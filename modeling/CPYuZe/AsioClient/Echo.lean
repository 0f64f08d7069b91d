import CPYuZe.AsioClient.Conversation

/-!
# Requests and answers

The name of a user goes into the first request as it is.  Here it has no newline in it, and is short
enough for the request to leave room for a zero in the buffer of the session.  Then an answer is the
request it follows, nothing is under way when the client goes on to the next one, and the session
never goes wrong (`answers_eq_requests`); one byte more, and it can (`receive_faults_iff`).

A `write_some` that leaves the newline out is the end of it: both sides wait for the other
(`next_answer_iff`).
-/

namespace AsioClient

open AsioServer (Session bufSize)
open ProxyProtocol (ByteOrder)

variable {host : ByteOrder} {budget : ℕ} {username : List UInt8} {s s' : System}

/-- A name that can be logged in with. -/
structure Plain (username : List UInt8) : Prop where
  line : newline ∉ username
  short : username.length ≤ 1016

/-- A request ends with its only newline, and does not fill the buffer. -/
lemma request_spec (h : Plain username) (k : ℕ) :
    ∃ front, request username k = front ++ [newline] ∧ newline ∉ front ∧ front.length ≤ 1022 := by
  cases k with
  | zero =>
    refine ⟨ascii "login " ++ username, rfl, ?_, ?_⟩
    · rw [List.mem_append]
      exact not_or.2 ⟨by decide, h.line⟩
    · have hlength : (ascii "login " ++ username).length = 6 + username.length :=
        List.length_append
      have hshort := h.short
      omega
  | succ k => exact ⟨ascii "ping", rfl, by decide, by decide⟩

lemma newline_mem_request (username : List UInt8) (k : ℕ) : newline ∈ request username k := by
  cases k with
  | zero => exact List.mem_append_right _ (List.mem_singleton_self _)
  | succ k => exact List.mem_append_right _ (List.mem_singleton_self _)

/-- Where there is one newline only, it is the last byte. -/
lemma eq_of_newline {front before rest : List UInt8} (hfree : newline ∉ front)
    (h : before ++ newline :: rest <+: front ++ [newline]) : before = front ∧ rest = [] := by
  rcases List.prefix_concat_iff.1 h with heq | hfront
  · rcases List.eq_nil_or_concat rest with rfl | ⟨rest, b, rfl⟩
    · exact ⟨(List.append_inj' heq rfl).1, rfl⟩
    · rw [List.concat_eq_append, ← List.cons_append, ← List.append_assoc] at heq
      obtain ⟨rfl, -⟩ := List.append_inj' heq rfl
      exact absurd (List.mem_append_right _ List.mem_cons_self) hfree
  · exact absurd (hfront.subset (List.mem_append_right _ List.mem_cons_self)) hfree

/-! ## The session -/

/-- The last byte of the buffer is a zero. -/
def Terminated (session : Session) : Prop := ∃ front, session.buffer = front ++ [0] ∧
  front.length = 1023

lemma terminated_init : Terminated .init :=
  ⟨List.replicate 1023 0, List.replicate_succ' (n := 1023), List.length_replicate⟩

lemma Terminated.mem {session : Session} (h : Terminated session) {data : List UInt8}
    (hshort : data.length ≤ 1023) : 0 ∈ data ++ session.buffer.drop data.length := by
  obtain ⟨front, hbuffer, hlength⟩ := h
  rw [hbuffer, List.drop_append_of_le_length (by omega)]
  exact List.mem_append_right _ (List.mem_append_right _ (List.mem_singleton_self _))

lemma Terminated.receive {session session' : Session} (h : Terminated session)
    {data : List UInt8} (hshort : data.length ≤ 1023)
    (hreceive : AsioServer.Proxied.receive host budget session data = .returned session') :
    Terminated session' := by
  obtain ⟨front, hbuffer, hlength⟩ := h
  refine ⟨data ++ front.drop data.length, ?_, ?_⟩
  · rw [(AsioServer.Proxied.receive_spec hreceive).1, hbuffer,
      List.drop_append_of_le_length (by omega), List.append_assoc]
  · rw [List.length_append, List.length_drop]
    omega

/-- A first read that begins like a login is not a header. -/
lemma receive_login {session : Session} (hclient : session.clientIp = []) {data : List UInt8}
    (hzero : 0 ∈ data ++ session.buffer.drop data.length) (hne : data ≠ [])
    (hlogin : data <+: request username 0) :
    ∃ session', AsioServer.Proxied.receive host budget session data = .returned session' := by
  obtain ⟨b, data, rfl⟩ := List.exists_cons_of_ne_nil hne
  have hb : b = 108 := by
    obtain ⟨rest, hrest⟩ := hlogin
    exact (List.cons.inj hrest).1
  have hsig : ∀ shown, ¬ AsioServer.pp1Sig <+: cstr (b :: shown) := by
    rintro shown ⟨rest, hrest⟩
    rw [hb] at hrest
    have hcstr : cstr (108 :: shown) = 108 :: cstr shown := rfl
    rw [hcstr] at hrest
    exact absurd (List.cons.inj hrest).1 (by decide)
  have hparse : AsioServer.Proxied.parseShown
      (cstr (b :: data ++ session.buffer.drop (b :: data).length)) = .returned (0, .zero) :=
    if_neg fun hand => hsig _ hand.2
  rw [AsioServer.Proxied.receive_first host budget hclient hzero, hparse, Outcome.returned_bind]
  exact ⟨_, rfl⟩

/-! ## The conversation -/

/-- The answers are the requests, and what is under way is of the last of them. -/
structure Echoing (username : List UInt8) (s : System) : Prop where
  name : s.client.username = username
  answers : s.client.answers = (List.range s.client.answers.length).map (request username)
  idle : s.client.pc = .write → s.toClient = [] ∧ s.toServer = []
  busy : ∀ buff, s.client.pc = .read buff → newline ∉ buff ∧
    buff ++ s.toClient ++ s.toServer <+: request username s.client.answers.length
  terminated : Terminated s.session
  first : s.session.clientIp = [] →
    s.client.answers = [] ∧ s.client.buff = [] ∧ s.toClient = []

lemma echoing_init (username : List UInt8) : Echoing username (.init username) where
  name := rfl
  answers := rfl
  idle _ := ⟨rfl, rfl⟩
  busy _ h := nomatch h
  terminated := terminated_init
  first _ := ⟨rfl, rfl, rfl⟩

/-- Bytes can only arrive while the client reads, and there are not enough of them to fill the
buffer. -/
lemma Echoing.arrives (hname : Plain username) (h : Echoing username s) {data rest : List UInt8}
    (harrives : Arrives s data rest) :
    (∃ buff, s.client.pc = .read buff) ∧ data.length ≤ 1023 := by
  cases hpc : s.client.pc with
  | write =>
    have hempty := harrives.split
    rw [(h.idle hpc).2] at hempty
    exact absurd (List.append_eq_nil_iff.1 hempty.symm).1 harrives.nonempty
  | read buff =>
    obtain ⟨front, hrequest, -, hlength⟩ := request_spec hname s.client.answers.length
    have hle := (h.busy buff hpc).2.length_le
    rw [hrequest, harrives.split] at hle
    simp only [List.length_append, List.length_singleton] at hle
    exact ⟨⟨buff, rfl⟩, by omega⟩

/-- The session gets through every read. -/
lemma Echoing.receive (hname : Plain username) (h : Echoing username s) {data rest : List UInt8}
    (harrives : Arrives s data rest) (host : ByteOrder) (budget : ℕ) :
    ∃ session, AsioServer.Proxied.receive host budget s.session data = .returned session := by
  obtain ⟨⟨buff, hpc⟩, hshort⟩ := h.arrives hname harrives
  have hzero : 0 ∈ data ++ s.session.buffer.drop data.length := h.terminated.mem hshort
  by_cases hclient : s.session.clientIp = []
  · obtain ⟨hanswers, hbuff, htoClient⟩ := h.first hclient
    rw [TalkToSvr.buff_of_read hpc] at hbuff
    have hlogin := (h.busy buff hpc).2
    rw [hbuff, htoClient, hanswers, harrives.split] at hlogin
    exact receive_login hclient hzero harrives.nonempty
      ((List.prefix_append data rest).trans hlogin)
  · exact ⟨_, AsioServer.Proxied.receive_later host budget hclient hzero⟩

/-- The last byte of an answer is read with nothing left behind it. -/
lemma Echoing.last (hname : Plain username) (h : Echoing username s) {buff rest : List UInt8}
    {b : UInt8} (hpc : s.client.pc = .read buff) (hbyte : s.toClient = b :: rest) :
    (Answered (buff ++ [b]) ↔ b = newline) ∧
      (b = newline → buff ++ [b] = request username s.client.answers.length ∧ rest = [] ∧
        s.toServer = []) := by
  obtain ⟨front, hrequest, hfree, hlength⟩ := request_spec hname s.client.answers.length
  obtain ⟨hbuff, hprefix⟩ := h.busy buff hpc
  rw [hbyte, List.append_assoc, List.cons_append] at hprefix
  constructor
  · rw [answered_iff]
    constructor
    · rintro (hmem | hfull)
      · exact (List.mem_singleton.1 ((List.mem_append.1 hmem).resolve_left hbuff)).symm
      · have hle := hprefix.length_le
        rw [hrequest] at hle
        simp only [List.length_append, List.length_cons, List.length_nil] at hle hfull
        exact absurd hfull (by unfold maxMsg; omega)
    · rintro rfl
      exact .inl (List.mem_append_right _ (List.mem_singleton_self _))
  · rintro rfl
    rw [hrequest] at hprefix ⊢
    obtain ⟨rfl, hnil⟩ := eq_of_newline hfree hprefix
    exact ⟨rfl, List.append_eq_nil_iff.1 hnil⟩

lemma Echoing.step (hname : Plain username) (h : Echoing username s)
    (hstep : Step host budget s s') : Echoing username s' := by
  cases hstep with
  | @write n hpc hpos hle =>
    obtain ⟨htoClient, htoServer⟩ := h.idle hpc
    refine ⟨h.name, h.answers, nofun, ?_, h.terminated, fun hclient => ?_⟩
    · intro buff hread
      obtain rfl := Pc.read.inj hread
      refine ⟨List.not_mem_nil, ?_⟩
      show [] ++ s.toClient ++ (s.toServer ++ s.client.next.take n) <+: _
      rw [htoClient, htoServer, TalkToSvr.next, h.name]
      exact List.take_prefix _ _
    · exact ⟨(h.first hclient).1, rfl, htoClient⟩
  | @serve data rest session harrives hreceive =>
    obtain ⟨⟨buff, hpc⟩, hshort⟩ := h.arrives hname harrives
    refine ⟨h.name, h.answers, fun hwrite => ?_, fun buff' hpc' => ?_,
      h.terminated.receive hshort hreceive, fun hclient => ?_⟩
    · cases hpc.symm.trans hwrite
    · obtain ⟨hfree, hprefix⟩ := h.busy buff' hpc'
      refine ⟨hfree, ?_⟩
      rw [harrives.split] at hprefix
      show buff' ++ (s.serve rest session).toClient ++ rest <+:
        request username s.client.answers.length
      rw [serve_toClient hreceive]
      simpa only [List.append_assoc] using hprefix
    · exact absurd hclient (AsioServer.Proxied.receive_spec hreceive).2.2
  | @readByte buff b rest hpc hbyte =>
    have hclient : s.session.clientIp ≠ [] := fun hclient => by
      have hnil := (h.first hclient).2.2
      rw [hbyte] at hnil
      cases hnil
    obtain ⟨hiff, hlast⟩ := h.last hname hpc hbyte
    by_cases hdone : Answered (buff ++ [b])
    · obtain ⟨hanswer, hrest, htoServer⟩ := hlast (hiff.1 hdone)
      have hread : (s.readByte buff b rest).client =
          { s.client with pc := .write, answers := s.client.answers ++ [buff ++ [b]] } :=
        TalkToSvr.readByte_of_answered hdone
      refine ⟨?_, ?_, fun _ => ⟨hrest, htoServer⟩, ?_, h.terminated,
        fun hclient' => absurd hclient' hclient⟩
      · rw [hread]
        exact h.name
      · rw [hread]
        dsimp only
        rw [List.length_append, List.length_singleton, List.range_succ, List.map_append,
          ← h.answers, hanswer]
        rfl
      · rw [hread]
        exact nofun
    · have hread : (s.readByte buff b rest).client =
          { s.client with pc := .read (buff ++ [b]) } :=
        TalkToSvr.readByte_of_not_answered hdone
      refine ⟨?_, ?_, ?_, ?_, h.terminated, fun hclient' => absurd hclient' hclient⟩
      · rw [hread]
        exact h.name
      · rw [hread]
        exact h.answers
      · rw [hread]
        exact nofun
      · rw [hread]
        intro buff' hread'
        obtain rfl := Pc.read.inj hread'
        refine ⟨(not_or.1 (mt answered_iff.2 hdone)).1, ?_⟩
        have hprefix := (h.busy buff hpc).2
        rw [hbyte] at hprefix
        show buff ++ [b] ++ rest ++ s.toServer <+: _
        rw [List.append_assoc buff [b] rest]
        exact hprefix

lemma echoing_of_reaches (hname : Plain username)
    (h : Relation.ReflTransGen (Step host budget) (.init username) s) : Echoing username s :=
  Transition.invariant (Echoing username) (echoing_init username)
    (fun _ _ hs hstep => hs.step hname hstep) h

/-! ## Getting through -/

/-- The request has got through without its newline. -/
def Cut (s : System) : Prop :=
  (∃ buff, s.client.pc = .read buff) ∧ newline ∉ s.toClient ++ s.toServer

/-- Then the rest of it never does, and there is no answer. -/
lemma Cut.step (hname : Plain username) (hs : Echoing username s) (h : Cut s)
    (hstep : Step host budget s s') :
    Cut s' ∧ s'.client.answers = s.client.answers := by
  obtain ⟨⟨buff, hpc⟩, hnone⟩ := h
  cases hstep with
  | write hpc' hpos hle => cases hpc.symm.trans hpc'
  | @serve data rest session harrives hreceive =>
    refine ⟨⟨⟨buff, hpc⟩, ?_⟩, rfl⟩
    rw [harrives.split] at hnone
    show newline ∉ (s.serve rest session).toClient ++ rest
    rwa [serve_toClient hreceive, List.append_assoc]
  | @readByte buff b rest hpc hbyte =>
    rw [hbyte] at hnone
    have hne : b ≠ newline := fun heq => hnone (heq ▸ List.mem_cons_self)
    have hread : (s.readByte buff b rest).client = { s.client with pc := .read (buff ++ [b]) } :=
      TalkToSvr.readByte_of_not_answered (mt (hs.last hname hpc hbyte).1.1 hne)
    rw [hread]
    exact ⟨⟨⟨buff ++ [b], congrArg TalkToSvr.pc hread⟩, mt (List.mem_cons_of_mem b) hnone⟩, rfl⟩

/-- If it has not, there is a step of the request on its way, the answer has come, or both. -/
lemma exists_step (hname : Plain username) (hs : Echoing username s) (h : ¬ Cut s)
    (host : ByteOrder) (budget : ℕ) :
    ∃ s', Step host budget s s' ∧
      (s.client.answers.length < s'.client.answers.length ∨
        (¬ Cut s' ∧ Unanswered host budget s s')) := by
  cases hpc : s.client.pc with
  | write =>
    have hmem : newline ∈ s.client.next := newline_mem_request _ _
    have hstep : Step host budget s (s.write s.client.next.length) :=
      .write hpc (List.length_pos_of_mem hmem) le_rfl
    refine ⟨_, hstep, .inr ⟨fun hcut => hcut.2 ?_, hstep, rfl⟩⟩
    refine List.mem_append_right _ (List.mem_append_right _ ?_)
    rwa [List.take_length]
  | read buff =>
    have hmem : newline ∈ s.toClient ++ s.toServer := by
      by_contra hnone
      exact h ⟨⟨buff, hpc⟩, hnone⟩
    cases hbyte : s.toClient with
    | nil =>
      rw [hbyte, List.nil_append] at hmem
      obtain ⟨front, hrequest, -, hlength⟩ := request_spec hname s.client.answers.length
      have hle := (hs.busy buff hpc).2.length_le
      rw [hrequest] at hle
      simp only [List.length_append, List.length_singleton] at hle
      have harrives : Arrives s s.toServer [] :=
        ⟨(List.append_nil _).symm, List.ne_nil_of_mem hmem, show _ ≤ 1024 by omega⟩
      obtain ⟨session, hreceive⟩ := hs.receive hname harrives host budget
      have hstep : Step host budget s (s.serve [] session) := .serve harrives hreceive
      refine ⟨_, hstep, .inr ⟨fun hcut => hcut.2 ?_, hstep, rfl⟩⟩
      rw [serve_toClient hreceive]
      exact List.mem_append_left _ (List.mem_append_right _ hmem)
    | cons b rest =>
      have hstep : Step host budget s (s.readByte buff b rest) := .readByte hpc hbyte
      refine ⟨_, hstep, ?_⟩
      by_cases hb : b = newline
      · have hread : (s.readByte buff b rest).client.answers =
            s.client.answers ++ [buff ++ [b]] :=
          TalkToSvr.answers_readByte_of_answered ((hs.last hname hpc hbyte).1.2 hb)
        refine .inl ?_
        rw [hread, List.length_append]
        exact Nat.lt_succ_self _
      · have hread : (s.readByte buff b rest).client.answers = s.client.answers :=
          TalkToSvr.answers_readByte_of_not_answered (mt (hs.last hname hpc hbyte).1.1 hb)
        refine .inr ⟨fun hcut => hcut.2 ?_, hstep, hread⟩
        rw [hbyte, List.cons_append] at hmem
        exact (List.mem_cons.1 hmem).resolve_left (Ne.symm hb)

lemma exists_answer (hname : Plain username) (hs : Echoing username s) (h : ¬ Cut s)
    (host : ByteOrder) (budget : ℕ) :
    ∃ s', Relation.ReflTransGen (Step host budget) s s' ∧
      s.client.answers.length < s'.client.answers.length := by
  refine Transition.exists_final (fun s' => Echoing username s' ∧
    s.client.answers.length ≤ s'.client.answers.length ∧
      (¬ Cut s' ∨ s.client.answers.length < s'.client.answers.length))
    (fun s' => s.client.answers.length < s'.client.answers.length)
    (fun s' => if s.client.answers.length < s'.client.answers.length then 0 else pending s' + 1)
    ?_ ⟨hs, le_rfl, .inl h⟩
  rintro s₁ ⟨hs₁, hle, hcut⟩ hfinal
  obtain ⟨s₂, hstep, hmore | ⟨hcut₂, hunanswered⟩⟩ :=
    exists_step hname hs₁ (hcut.resolve_right hfinal) host budget
  · have hlt : s.client.answers.length < s₂.client.answers.length := hle.trans_lt hmore
    refine ⟨s₂, hstep, ⟨hs₁.step hname hstep, hlt.le, .inr hlt⟩, ?_⟩
    rw [if_pos hlt, if_neg hfinal]
    exact Nat.succ_pos _
  · have hfinal₂ : ¬ s.client.answers.length < s₂.client.answers.length := by
      rwa [hunanswered.2]
    refine ⟨s₂, hstep, ⟨hs₁.step hname hstep, by rwa [hunanswered.2], .inl hcut₂⟩, ?_⟩
    rw [if_neg hfinal, if_neg hfinal₂]
    exact Nat.succ_lt_succ (pending_step hunanswered)

/-- Every answer is the request it follows, nothing is under way when the client goes on to the next
request, and whatever arrives, the session gets through it. -/
theorem answers_eq_requests (hname : Plain username)
    (h : Relation.ReflTransGen (Step host budget) (.init username) s) :
    s.client.answers = (List.range s.client.answers.length).map (request username) ∧
      (s.client.pc = .write → s.toClient = [] ∧ s.toServer = []) ∧
      ∀ data rest, Arrives s data rest →
        ∃ session, AsioServer.Proxied.receive host budget s.session data = .returned session := by
  have hs := echoing_of_reaches hname h
  exact ⟨hs.answers, hs.idle, fun _ _ harrives => hs.receive hname harrives host budget⟩

/-- The user of `main` gets an answer to the login. -/
theorem answers_eq_requests_login :
    ∃ s, Relation.ReflTransGen (Step .little 0) (.init (ascii "devinbo")) s ∧
      s.client.answers[0]? = some (ascii "login devinbo" ++ [newline]) := by
  have hname : Plain (ascii "devinbo") := ⟨by decide, by decide⟩
  obtain ⟨s, hrun, hmore⟩ :=
    exists_answer hname (echoing_init _) (fun hcut => nomatch hcut.1) .little 0
  have hpos : 0 < s.client.answers.length := hmore
  refine ⟨s, hrun, ?_⟩
  rw [(answers_eq_requests hname hrun).1, List.getElem?_map, List.getElem?_range hpos]
  rfl

/-- The session can go wrong exactly if the name is so long that the first request fills its
buffer. -/
theorem receive_faults_iff (hline : newline ∉ username) (hzero : 0 ∉ username) :
    (∃ s data rest f, Relation.ReflTransGen (Step host budget) (.init username) s ∧
      Arrives s data rest ∧
      AsioServer.Proxied.receive host budget s.session data = .faulted f) ↔
      1016 < username.length := by
  constructor
  · rintro ⟨s, data, rest, f, hrun, harrives, hfault⟩
    by_contra hshort
    have hname : Plain username := ⟨hline, not_lt.1 hshort⟩
    obtain ⟨session, hreceive⟩ :=
      (echoing_of_reaches hname hrun).receive hname harrives host budget
    cases hfault.symm.trans hreceive
  · intro hlong
    have hlength : (request username 0).length = 6 + username.length + 1 := by
      simp only [request, List.length_append, List.length_singleton]
      rfl
    have htake : ((request username 0).take 1024).length = 1024 := by
      rw [List.length_take]
      omega
    have hstep : Step host budget (.init username)
        ((System.init username).write (request username 0).length) :=
      .write rfl (show 0 < (request username 0).length by omega) le_rfl
    have hfree : 0 ∉ (request username 0).take 1024 := by
      refine mt List.mem_of_mem_take ?_
      simp only [request, List.mem_append, not_or]
      exact ⟨⟨by decide, hzero⟩, by decide⟩
    refine ⟨_, (request username 0).take 1024, (request username 0).drop 1024, _, .single hstep,
      ⟨?_, ?_, htake.le⟩, AsioServer.Proxied.receive_unterminated host budget ?_⟩
    · show [] ++ (request username 0).take (request username 0).length = _
      rw [List.take_length, List.take_append_drop]
      rfl
    · exact List.ne_nil_of_length_pos (by omega)
    · have hdrop : (System.init username).session.buffer.drop 1024 = [] :=
        List.drop_eq_nil_of_le List.length_replicate.le
      show 0 ∉ _ ++ (System.init username).session.buffer.drop _
      rw [htake, hdrop, List.append_nil]
      exact hfree

/-- A name of 1017 letters is too long. -/
theorem receive_faults_iff_long : ∃ s data rest f, Relation.ReflTransGen (Step .little 0)
    (.init (List.replicate 1017 97)) s ∧ Arrives s data rest ∧
      AsioServer.Proxied.receive .little 0 s.session data = .faulted f := by
  have hline : newline ∉ List.replicate 1017 (97 : UInt8) :=
    fun h => absurd (List.eq_of_mem_replicate h) (by decide)
  have hzero : (0 : UInt8) ∉ List.replicate 1017 (97 : UInt8) :=
    fun h => absurd (List.eq_of_mem_replicate h) (by decide)
  refine (receive_faults_iff hline hzero).2 ?_
  rw [List.length_replicate]
  decide

end AsioClient
