import CPYuZe.AsioServer.Session

/-!
# The address of the client

A stream begins with a header of the PROXY protocol and is cut into reads.  The session shows the
parser what the first read has brought, up to its first zero, and logs each later read up to the
first zero in the buffer, which may stand behind the read's own bytes where an older read has left
something else.  `derivesClientIp_iff` says for which streams and cuts this comes to what it is
meant to be.
-/

namespace AsioServer

variable {parsers : Parsers} {s s' : Session} {header srcAddr payload : List UInt8}

/-- What `buffer_` holds behind these reads. -/
def held (reads : List (List UInt8)) : List UInt8 :=
  reads.foldl (fun buffer data => data ++ buffer.drop data.length) (List.replicate bufSize 0)

/-- `client_ip_` behind the first read, with the result of the parser. -/
def foundIp (parsed : Parsed) : List UInt8 :=
  if 0 < parsed.rc ∧ parsed.info.srcAddr ≠ [] then parsed.info.srcAddr else someIp

lemma someIp_ne_nil : someIp ≠ [] := by decide

lemma foundIp_ne_nil (parsed : Parsed) : foundIp parsed ≠ [] := by
  unfold foundIp
  split
  · next h => exact h.2
  · next => exact someIp_ne_nil

/-- There is a zero in the signature of the second version, so that its parser is never called
with a C string. -/
lemma ppParseHdr_buffer {shown : List UInt8} (h : 0 ∉ shown) :
    (ppParseHdr parsers shown).buffer = shown := by
  have hsig : ¬ pp2Sig <+: shown := fun hpre => h (hpre.subset (by decide))
  unfold ppParseHdr
  rw [if_neg (fun hand => hsig hand.2)]
  split <;> rfl

namespace Session

lemma logged_print {line : Output} (h : line.data? = none) (s : Session) :
    (s.print line).logged = s.logged := by
  unfold logged print
  rw [List.filterMap_append, List.filterMap_cons_none h]
  exact List.append_nil _

lemma logged_print_recvData (s : Session) (data : List UInt8) :
    (s.print (.recvData data)).logged = s.logged ++ [data] :=
  List.filterMap_append

/-- Whatever the parser says, a line is printed and `client_ip_` is set. -/
lemma takeResult_eq (hclient : s.clientIp = []) (parsed : Parsed) :
    ∃ line : Output, line.data? = none ∧
      (s.takeResult parsed).orSomeIp = { s.print line with clientIp := foundIp parsed } := by
  unfold takeResult foundIp orSomeIp print
  rcases lt_trichotomy parsed.rc 0 with hrc | hrc | hrc
  · exact ⟨.parseFailed parsed.rc, rfl, by simp [hclient, hrc, hrc.ne, hrc.le.not_gt]⟩
  · exact ⟨.notProxyHeader, rfl, by simp [hclient, hrc]⟩
  · refine ⟨.proxyHeader parsed.rc parsed.info, rfl, ?_⟩
    by_cases haddr : parsed.info.srcAddr = []
    · simp [hrc.ne', hrc.le.not_gt, haddr]
    · simp [hrc, hrc.ne', hrc.le.not_gt, haddr]

/-- The parser is shown the C string in the buffer, and does not change it. -/
lemma parseClientIp_eq (hclient : s.clientIp = []) :
    ∃ line : Output, line.data? = none ∧
      (s.parseClientIp parsers (cstr s.buffer).length).orSomeIp =
        { s.print line with
          clientIp := foundIp (ppParseHdr parsers (cstr s.buffer))
          shown := s.shown ++ [cstr s.buffer] } := by
  have hbuffer : (ppParseHdr parsers (cstr s.buffer)).buffer ++
      s.buffer.drop (cstr s.buffer).length = s.buffer := by
    rw [ppParseHdr_buffer (zero_notMem_cstr _)]
    exact (congrArg (· ++ _) (take_length_cstr s.buffer)).symm.trans (List.take_append_drop _ _)
  unfold parseClientIp
  rw [if_neg (not_not.2 hclient), take_length_cstr, hbuffer]
  exact takeResult_eq (s := { s with shown := s.shown ++ [cstr s.buffer] }) hclient _

section Receive

variable {data : List UInt8}

/-- The first read. -/
lemma receive_first (hclient : s.clientIp = [])
    (hzero : 0 ∈ data ++ s.buffer.drop data.length) :
    ∃ s', s.receive parsers data = .returned s' ∧
      s'.buffer = data ++ s.buffer.drop data.length ∧
      s'.clientIp = foundIp (ppParseHdr parsers (cstr (data ++ s.buffer.drop data.length))) ∧
      s'.shown = s.shown ++ [cstr (data ++ s.buffer.drop data.length)] ∧
      s'.logged = s.logged := by
  obtain ⟨line, hline, heq⟩ := parseClientIp_eq
    (s := (s.doRead data).print .onRead) hclient
  have hread : s.receive parsers data =
      .returned ((((s.doRead data).print .onRead).parseClientIp parsers
        (cstr ((s.doRead data).print .onRead).buffer).length).orSomeIp.doWrite
          data.length).onWrite := by
    unfold receive onRead strlen
    rw [if_pos (show 0 ∈ (s.doRead data).buffer from hzero), Outcome.returned_bind,
      if_pos (show (s.doRead data).clientIp = [] from hclient)]
    rfl
  rw [heq] at hread
  refine ⟨_, hread, rfl, rfl, rfl, ?_⟩
  show ((((s.print .onRead).print line).print .onWrite).logged) = s.logged
  rw [logged_print rfl, logged_print hline, logged_print rfl]

/-- A later read. -/
lemma receive_later (hclient : s.clientIp ≠ [])
    (hzero : 0 ∈ data ++ s.buffer.drop data.length) :
    ∃ s', s.receive parsers data = .returned s' ∧
      s'.buffer = data ++ s.buffer.drop data.length ∧
      s'.clientIp = s.clientIp ∧ s'.shown = s.shown ∧
      s'.logged = s.logged ++ [cstr (data ++ s.buffer.drop data.length)] := by
  unfold receive onRead strlen doRead
  simp only [if_pos hzero, if_neg hclient, take_length_cstr, Outcome.returned_bind]
  refine ⟨_, rfl, rfl, rfl, rfl, ?_⟩
  show (((s.print .onRead).print _).print .onWrite).logged = s.logged ++ [_]
  rw [logged_print rfl, logged_print_recvData, logged_print rfl]

lemma receive_faulted (hzero : 0 ∉ data ++ s.buffer.drop data.length) :
    s.receive parsers data = .faulted .outOfBounds := by
  unfold receive onRead strlen doRead
  simp only [if_neg hzero]
  rfl

end Receive

/-- Once the address is set it stays, the parser is not called again, and the log only grows. -/
lemma receive_keeps {data : List UInt8} (hclient : s.clientIp ≠ [])
    (h : s.receive parsers data = .returned s') :
    s'.clientIp = s.clientIp ∧ s'.shown = s.shown ∧ s.logged <+: s'.logged := by
  by_cases hzero : 0 ∈ data ++ s.buffer.drop data.length
  · obtain ⟨s₁, hs₁, -, hip, hshown, hlogged⟩ := receive_later hclient hzero
    cases hs₁.symm.trans h
    exact ⟨hip, hshown, hlogged ▸ List.prefix_append _ _⟩
  · rw [receive_faulted hzero] at h
    cases h

lemma run_keeps {reads : List (List UInt8)} (hclient : s.clientIp ≠ [])
    (h : Outcome.run (receive parsers) s reads = .returned s') :
    s'.clientIp = s.clientIp ∧ s'.shown = s.shown ∧ s.logged <+: s'.logged := by
  induction reads generalizing s with
  | nil =>
    cases h
    exact ⟨rfl, rfl, List.prefix_rfl⟩
  | cons data reads ih =>
    obtain ⟨s₁, hs₁, hrest⟩ := Outcome.run_cons_eq_returned.1 h
    obtain ⟨hip₁, hshown₁, hlogged₁⟩ := receive_keeps hclient hs₁
    obtain ⟨hip, hshown, hlogged⟩ := ih (hip₁ ▸ hclient) hrest
    exact ⟨hip.trans hip₁, hshown.trans hshown₁, hlogged₁.trans hlogged⟩

end Session

/-! ## The later reads -/

/-- The session comes back from these reads and logs them as they are. -/
def LogsReads (parsers : Parsers) (s : Session) (reads : List (List UInt8)) : Prop :=
  ∃ s', Outcome.run (Session.receive parsers) s reads = .returned s' ∧
    s'.logged = s.logged ++ reads

/-- No zero is in the read, and one stands behind it in the buffer. -/
def EndsInZero (buffer data : List UInt8) : Prop :=
  0 ∉ data ∧ buffer[data.length]? = some 0

lemma endsInZero_iff {buffer data : List UInt8} :
    EndsInZero buffer data ↔ 0 ∈ data ++ buffer.drop data.length ∧
      cstr (data ++ buffer.drop data.length) = data := by
  rw [cstr_append_eq_iff, List.head?_drop]
  rfl

/-- A later read is logged as it is exactly if it ends in a zero. -/
lemma logsReads_cons {data : List UInt8} {reads : List (List UInt8)} (hclient : s.clientIp ≠ []) :
    LogsReads parsers s (data :: reads) ↔ EndsInZero s.buffer data ∧
      ∀ s', s.receive parsers data = .returned s' → LogsReads parsers s' reads := by
  rw [endsInZero_iff]
  by_cases hzero : 0 ∈ data ++ s.buffer.drop data.length
  · obtain ⟨s₁, hs₁, -, hip₁, -, hlogged₁⟩ := Session.receive_later hclient hzero
    constructor
    · rintro ⟨s', hrun, hlogged⟩
      rw [Outcome.run_cons_returned hs₁] at hrun
      have hdata : cstr (data ++ s.buffer.drop data.length) = data := by
        have hpre := (Session.run_keeps (hip₁ ▸ hclient) hrun).2.2
        rw [hlogged, hlogged₁, List.prefix_append_right_inj] at hpre
        exact (List.cons_prefix_cons.1 hpre).1
      refine ⟨⟨hzero, hdata⟩, fun s₂ hs₂ => ?_⟩
      cases hs₁.symm.trans hs₂
      refine ⟨s', hrun, ?_⟩
      rw [hlogged, hlogged₁, hdata, List.append_assoc]
      rfl
    · rintro ⟨⟨-, hdata⟩, hrest⟩
      obtain ⟨s', hrun, hlogged⟩ := hrest s₁ hs₁
      refine ⟨s', (Outcome.run_cons_returned hs₁ _).trans hrun, ?_⟩
      rw [hlogged, hlogged₁, hdata, List.append_assoc]
      rfl
  · refine iff_of_false ?_ fun h => hzero h.1.1
    rintro ⟨s', hrun, -⟩
    obtain ⟨s₁, hs₁, -⟩ := Outcome.run_cons_eq_returned.1 hrun
    rw [Session.receive_faulted hzero] at hs₁
    cases hs₁

lemma held_append (earlier : List (List UInt8)) (data : List UInt8) :
    held (earlier ++ [data]) = data ++ (held earlier).drop data.length := by
  unfold held
  rw [List.foldl_append]
  rfl

/-- All later reads are logged as they are exactly if each of them ends in a zero. -/
lemma logsReads_iff {earlier later : List (List UInt8)} (hclient : s.clientIp ≠ [])
    (hbuffer : s.buffer = held earlier) :
    LogsReads parsers s later ↔
      ∀ before data rest, later = before ++ data :: rest →
        EndsInZero (held (earlier ++ before)) data := by
  induction later generalizing s earlier with
  | nil =>
    refine iff_of_true ⟨s, rfl, (List.append_nil _).symm⟩ fun before data rest h => ?_
    exact absurd h.symm (List.append_ne_nil_of_right_ne_nil _ (List.cons_ne_nil _ _))
  | cons data later ih =>
    have hnext (hends : EndsInZero s.buffer data) :
        (∀ s', s.receive parsers data = .returned s' → LogsReads parsers s' later) ↔
          ∀ before data' rest, later = before ++ data' :: rest →
            EndsInZero (held (earlier ++ [data] ++ before)) data' := by
      obtain ⟨s₁, hs₁, hbuffer₁, hip₁, -, -⟩ :=
        Session.receive_later hclient (endsInZero_iff.1 hends).1
      rw [hbuffer, ← held_append] at hbuffer₁
      rw [← ih (hip₁ ▸ hclient) hbuffer₁]
      constructor
      · exact fun h => h s₁ hs₁
      · intro h s₂ hs₂
        cases hs₁.symm.trans hs₂
        exact h
    rw [logsReads_cons hclient]
    constructor
    · rintro ⟨hends, hlater⟩ before data' rest heq
      cases before with
      | nil =>
        obtain ⟨rfl, rfl⟩ := List.cons.inj heq
        rw [List.append_nil, ← hbuffer]
        exact hends
      | cons first before =>
        obtain ⟨rfl, hlist⟩ := List.cons.inj heq
        have h := (hnext hends).1 hlater before data' rest hlist
        rw [List.append_assoc] at h
        exact h
    · intro h
      have hends := h [] data later rfl
      rw [List.append_nil, ← hbuffer] at hends
      refine ⟨hends, (hnext hends).2 fun before data' rest heq => ?_⟩
      rw [List.append_assoc]
      exact h (data :: before) data' rest (congrArg (data :: ·) heq)

/-! ## The first read -/

/-- The address is found exactly if the whole header is there, and there is an address in it. -/
lemma foundIp_eq_iff (hheader : CompleteHeader parsers header srcAddr) {shown : List UInt8}
    (hshown : shown <+: header ++ payload) :
    foundIp (ppParseHdr parsers shown) = srcAddr ↔
      (header <+: shown ∧ srcAddr ≠ []) ∨ srcAddr = someIp := by
  by_cases hpre : header <+: shown
  · obtain ⟨rest, rfl⟩ := hpre
    obtain ⟨hrc, haddr⟩ := hheader.whole rest
    have hpos : 0 < (ppParseHdr parsers (header ++ rest)).rc := by
      rw [hrc]
      exact_mod_cast List.length_pos_iff.2 hheader.nonempty
    unfold foundIp
    rw [haddr]
    by_cases hnil : srcAddr = []
    · rw [if_neg (fun h => h.2 hnil)]
      simp [hnil, eq_comm]
    · rw [if_pos ⟨hpos, hnil⟩]
      simp [hnil]
  · have hpart : shown <+: header :=
      (List.prefix_or_prefix_of_prefix hshown (List.prefix_append _ _)).resolve_right hpre
    have hrc := hheader.part shown hpart fun heq => hpre (heq ▸ List.prefix_rfl)
    unfold foundIp
    rw [if_neg (fun h => absurd h.1 (not_lt.2 hrc))]
    simp [hpre, eq_comm]

/-- `client_ip_` ends up as the source address, the parser has only seen what has been received,
and each read but the first is logged as it is. -/
def DerivesClientIp (parsers : Parsers) (srcAddr : List UInt8) (reads : List (List UInt8)) :
    Prop :=
  ∃ s, Outcome.run (Session.receive parsers) Session.init reads = .returned s ∧
    s.clientIp = srcAddr ∧ (∀ shown ∈ s.shown, shown <+: reads.flatten) ∧
    s.logged = reads.tail

/-- The whole header is in the first read, without a zero, and there is an address in it.  An
address that happens to be the one for want of another is found in any case. -/
def FoundAtOnce (header srcAddr first : List UInt8) : Prop :=
  (header <+: first ∧ 0 ∉ header ∧ srcAddr ≠ []) ∨ srcAddr = someIp

structure SuitableCut (header srcAddr : List UInt8) (reads : List (List UInt8)) : Prop where
  /-- The first read has a zero in it or leaves one in the buffer. -/
  terminated : ∀ first later, reads = first :: later → 0 ∈ first ∨ first.length < bufSize
  found : ∀ first later, reads = first :: later → FoundAtOnce header srcAddr first
  later : ∀ earlier data rest, reads = earlier ++ data :: rest → earlier ≠ [] →
    EndsInZero (held earlier) data

/-- The first read in an empty buffer. -/
lemma receive_init {first : List UInt8} (hterminated : 0 ∈ first ∨ first.length < bufSize) :
    ∃ s, Session.init.receive parsers first = .returned s ∧ s.buffer = held [first] ∧
      s.clientIp = foundIp (ppParseHdr parsers (cstr first)) ∧ s.shown = [cstr first] ∧
      s.logged = [] := by
  have hdrop : Session.init.buffer.drop first.length =
      List.replicate (bufSize - first.length) 0 := List.drop_replicate
  have hzero : 0 ∈ first ++ Session.init.buffer.drop first.length := by
    rw [hdrop, List.mem_append, List.mem_replicate]
    exact hterminated.imp_right fun hlt => ⟨(Nat.sub_pos_of_lt hlt).ne', rfl⟩
  obtain ⟨s, hs, hbuffer, hip, hshown, hlogged⟩ := Session.receive_first rfl hzero
  rw [hdrop, cstr_append_replicate] at hip hshown
  exact ⟨s, hs, hbuffer, hip, hshown, hlogged⟩

/-- A read without a zero that fills the buffer takes `strlen` past its end. -/
lemma receive_init_faulted {first : List UInt8}
    (hterminated : ¬ (0 ∈ first ∨ first.length < bufSize)) :
    Session.init.receive parsers first = .faulted .outOfBounds := by
  obtain ⟨hmem, hlt⟩ := not_or.1 hterminated
  refine Session.receive_faulted ?_
  have hdrop : Session.init.buffer.drop first.length = [] := by
    refine List.drop_eq_nil_of_le ?_
    exact (List.length_replicate).trans_le (not_lt.1 hlt)
  rw [hdrop, List.append_nil]
  exact hmem

/-- Behind the first read, the address has to be the right one and the others to be logged. -/
lemma derivesClientIp_cons {first : List UInt8} {later : List (List UInt8)}
    (hs : Session.init.receive parsers first = .returned s) (hne : s.clientIp ≠ [])
    (hshown : s.shown = [cstr first]) (hlogged : s.logged = []) :
    DerivesClientIp parsers srcAddr (first :: later) ↔
      s.clientIp = srcAddr ∧ LogsReads parsers s later := by
  unfold DerivesClientIp LogsReads
  rw [Outcome.run_cons_returned hs, hlogged]
  constructor
  · rintro ⟨s', hrun, hip, -, hlogged'⟩
    exact ⟨(Session.run_keeps hne hrun).1.symm.trans hip, s', hrun, hlogged'⟩
  · rintro ⟨hip, s', hrun, hlogged'⟩
    obtain ⟨hip', hshown', -⟩ := Session.run_keeps hne hrun
    refine ⟨s', hrun, hip'.trans hip, fun shown hmem => ?_, hlogged'⟩
    rw [hshown', hshown, List.mem_singleton] at hmem
    rw [hmem]
    exact (cstr_prefix_self first).trans (List.prefix_append _ _)

/-- The session derives the address from the bytes received, and logs the others as they come,
exactly for these streams and cuts. -/
theorem derivesClientIp_iff (hheader : CompleteHeader parsers header srcAddr)
    {reads : List (List UInt8)} (hcut : reads.flatten = header ++ payload) :
    DerivesClientIp parsers srcAddr reads ↔ SuitableCut header srcAddr reads := by
  cases reads with
  | nil => exact absurd (List.append_eq_nil_iff.1 hcut.symm).1 hheader.nonempty
  | cons first later =>
    by_cases hterminated : 0 ∈ first ∨ first.length < bufSize
    · obtain ⟨s, hs, hbuffer, hip, hshown, hlogged⟩ := receive_init hterminated
      have hne : s.clientIp ≠ [] := hip ▸ foundIp_ne_nil _
      have hprefix : cstr first <+: header ++ payload :=
        hcut ▸ (cstr_prefix_self first).trans (List.prefix_append _ _)
      have hfound : s.clientIp = srcAddr ↔ FoundAtOnce header srcAddr first := by
        rw [hip, foundIp_eq_iff hheader hprefix, prefix_cstr_iff, FoundAtOnce, and_assoc]
      rw [derivesClientIp_cons hs hne hshown hlogged, hfound, logsReads_iff hne hbuffer]
      constructor
      · rintro ⟨hfirst, hlater⟩
        refine ⟨fun _ _ heq => ?_, fun _ _ heq => ?_, fun earlier data rest heq hearlier => ?_⟩
        · exact (List.cons.inj heq).1 ▸ hterminated
        · exact (List.cons.inj heq).1 ▸ hfirst
        · obtain ⟨_, before, rfl⟩ := List.exists_cons_of_ne_nil hearlier
          obtain ⟨rfl, hrest⟩ := List.cons.inj heq
          exact hlater before data rest hrest
      · intro h
        refine ⟨h.found first later rfl, fun before data rest heq => ?_⟩
        exact h.later (first :: before) data rest (congrArg (first :: ·) heq) (List.cons_ne_nil _ _)
    · refine iff_of_false ?_ fun h => hterminated (h.terminated first later rfl)
      rintro ⟨s, hrun, -⟩
      obtain ⟨s₁, hs₁, -⟩ := Outcome.run_cons_eq_returned.1 hrun
      rw [receive_init_faulted hterminated] at hs₁
      cases hs₁

/-! ## Two headers -/

/-- Parsers that know one header. -/
def parsersOf (header : List UInt8) (info : PpInfo) : Parsers where
  pp1ParseHdr buffer :=
    if header <+: buffer then (header.length, info) else (-18, ⟨[], [], 0, 0⟩)
  pp2ParseHdr buffer :=
    if header <+: buffer then ⟨header.length, info, buffer⟩ else ⟨-7, ⟨[], [], 0, 0⟩, buffer⟩

lemma parsersOf_complete {info : PpInfo}
    (hsig : (16 ≤ header.length ∧ pp2Sig <+: header) ∨ (8 ≤ header.length ∧ pp1Sig <+: header)) :
    CompleteHeader (parsersOf header info) header info.srcAddr where
  nonempty := by
    rintro rfl
    rcases hsig with ⟨hlength, -⟩ | ⟨hlength, -⟩ <;> exact absurd hlength (by decide)
  whole rest := by
    have hlength (n : ℕ) (h : n ≤ header.length) : n ≤ (header ++ rest).length :=
      h.trans (List.prefix_append header rest).length_le
    have hfront (sig : List UInt8) (h : sig <+: header) : sig <+: header ++ rest :=
      h.trans (List.prefix_append header rest)
    unfold ppParseHdr parsersOf
    by_cases h2 : 16 ≤ (header ++ rest).length ∧ pp2Sig <+: header ++ rest
    · rw [if_pos h2]
      simp only [if_pos (List.prefix_append header rest), and_self]
    · have h1 : 8 ≤ (header ++ rest).length ∧ pp1Sig <+: header ++ rest := by
        rcases hsig with ⟨hlen, hpre⟩ | ⟨hlen, hpre⟩
        · exact absurd ⟨hlength 16 hlen, hfront _ hpre⟩ h2
        · exact ⟨hlength 8 hlen, hfront _ hpre⟩
      rw [if_neg h2, if_pos h1]
      simp only [if_pos (List.prefix_append header rest), and_self]
  part shorter hpre hne := by
    have hnot : ¬ header <+: shorter := fun h =>
      hne (hpre.eq_of_length (hpre.length_le.antisymm h.length_le))
    unfold ppParseHdr parsersOf
    simp only [if_neg hnot]
    split
    · exact (by decide : (-7 : ℤ) ≤ 0)
    · split
      · exact (by decide : (-18 : ℤ) ≤ 0)
      · exact le_refl (0 : ℤ)

def v1Header : List UInt8 := ascii "PROXY TCP4 127.0.0.1 127.0.0.2 8080 80\r\n"

def v2Header : List UInt8 :=
  pp2Sig ++ [0x21, 0x11, 0, 12, 127, 0, 0, 1, 127, 0, 0, 2, 0x1F, 0x90, 0, 80]

/-- What both headers say. -/
def exampleInfo : PpInfo := ⟨ascii "127.0.0.1", ascii "127.0.0.2", 8080, 80⟩

/-- A header of the first version that comes in one read. -/
theorem derivesClientIp_iff_v1Header :
    DerivesClientIp (parsersOf v1Header exampleInfo) exampleInfo.srcAddr [v1Header] := by
  have hcomplete : CompleteHeader (parsersOf v1Header exampleInfo) v1Header exampleInfo.srcAddr :=
    parsersOf_complete (.inr ⟨by decide, by decide⟩)
  have hcut : [v1Header].flatten = v1Header ++ [] := by simp
  refine (derivesClientIp_iff hcomplete hcut).2 ⟨fun first _ heq => ?_, fun first _ heq => ?_, ?_⟩
  · rw [← (List.cons.inj heq).1]
    exact .inr (by decide)
  · rw [← (List.cons.inj heq).1]
    exact .inl ⟨List.prefix_rfl, by decide, by decide⟩
  · intro earlier data rest heq hearlier
    obtain ⟨first, before, rfl⟩ := List.exists_cons_of_ne_nil hearlier
    exact absurd (List.cons.inj heq).2.symm
      (List.append_ne_nil_of_right_ne_nil _ (List.cons_ne_nil _ _))

/-- A header of the second version that comes in one read: the parser is shown four bytes of
it. -/
theorem not_derivesClientIp_v2Header :
    CompleteHeader (parsersOf v2Header exampleInfo) v2Header exampleInfo.srcAddr ∧
    ¬ DerivesClientIp (parsersOf v2Header exampleInfo) exampleInfo.srcAddr [v2Header] := by
  refine ⟨parsersOf_complete (.inl ⟨by decide, by decide⟩), ?_⟩
  rintro ⟨s', hrun, hip, -⟩
  have hzero : 0 ∈ v2Header ∨ v2Header.length < bufSize := .inl (by decide)
  obtain ⟨s, hs, -, hfound, -⟩ := receive_init hzero
  rw [Outcome.run_cons_returned hs] at hrun
  cases hrun
  rw [hfound] at hip
  exact absurd hip (by decide)

end AsioServer
