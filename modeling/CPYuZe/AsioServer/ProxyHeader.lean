import CPYuZe.AsioServer.ClientIp
import CPYuZe.ProxyProtocol.LineRuns

/-!
# The session and the parser

Here the session calls the parser of `proxy_protocol.cpp`, with its whole buffer and the length of
the C string in it.  There is a zero in the signature of the second version, so that such a length
is never enough for it, and what is parsed is always a line of the first version
(`ppParseHdr_cstr`).  A run of this session is one of a session with `codeParsers` for its
parameters (`run_codeParsers`).

`run_returned` says what the session sends and which address it takes for that of the client;
`run_faulted_iff` says when it comes to read or write outside an array.
-/

namespace AsioServer

open ProxyProtocol (ByteOrder LineResult parseBlock blockOf Accepted Overruns)

/-- What the session looks at in `pp_info_t`. -/
def seen (info : ProxyProtocol.PpInfo) : PpInfo where
  srcAddr := cstr info.srcAddr.chars
  dstAddr := cstr info.dstAddr.chars
  srcPort := info.srcPort
  dstPort := info.dstPort

namespace Proxied

def parseClientIp (host : ByteOrder) (budget : ℕ) (s : Session) (bufferLength : ℕ) :
    Outcome ProxyProtocol.Fault Session :=
  if s.clientIp ≠ [] then .returned s
  else
    ProxyProtocol.ppParseHdr host budget s.buffer bufferLength >>= fun parsed =>
      .returned ({ s with
        buffer := parsed.buffer
        shown := s.shown ++ [s.buffer.take bufferLength] }.takeResult
          ⟨parsed.rc, seen parsed.info, parsed.buffer⟩)

def onRead (host : ByteOrder) (budget : ℕ) (s : Session) (ec : Option ErrorCode) (length : ℕ) :
    Outcome ProxyProtocol.Fault Session :=
  match ec with
  | some ec => .returned ((s.print .onRead).print (.readError ec))
  | none =>
    if 0 ∈ s.buffer then
      if s.clientIp = [] then
        parseClientIp host budget (s.print .onRead) (cstr s.buffer).length >>= fun s =>
          .returned (s.orSomeIp.doWrite length)
      else .returned (((s.print .onRead).print (.recvData (cstr s.buffer))).doWrite length)
    else .faulted .outOfBounds

/-- A read of `data`, and the write behind it. -/
def receive (host : ByteOrder) (budget : ℕ) (s : Session) (data : List UInt8) :
    Outcome ProxyProtocol.Fault Session :=
  onRead host budget (s.doRead data) none data.length >>= fun s => .returned s.onWrite

/-! ## What is parsed -/

/-- The parser, given a C string. -/
def parseShown (shown : List UInt8) : Outcome ProxyProtocol.Fault LineResult :=
  if 8 ≤ shown.length ∧ pp1Sig <+: shown then parseBlock (blockOf (shown.take 108)) .zero
  else .returned (0, .zero)

variable {host : ByteOrder} {budget : ℕ}

lemma ppParseHdr_cstr (host : ByteOrder) (budget : ℕ) (buffer : List UInt8) :
    ProxyProtocol.ppParseHdr host budget buffer (cstr buffer).length =
      parseShown (cstr buffer) >>= fun (rc, info) => .returned ⟨rc, info, buffer⟩ := by
  have hle : (cstr buffer).length ≤ buffer.length := (cstr_prefix_self buffer).length_le
  have hsig2 : ¬ (16 ≤ (cstr buffer).length ∧ pp2Sig <+: buffer) := by
    rintro ⟨hlong, rest, rfl⟩
    have hfront : cstr (pp2Sig ++ rest) = [0x0D, 0x0A, 0x0D, 0x0A] := rfl
    rw [hfront] at hlong
    exact absurd hlong (by decide)
  have hsig1 : pp1Sig <+: cstr buffer ↔ pp1Sig <+: buffer := by
    rw [prefix_cstr_iff]
    exact and_iff_left (by decide)
  have htake : (buffer.drop 0).take (min (cstr buffer).length 108) = (cstr buffer).take 108 := by
    rw [List.drop_zero, ← take_length_cstr buffer, List.take_take, List.length_take,
      min_eq_left hle, min_comm]
  rw [ProxyProtocol.ppParseHdr, if_neg hsig2, parseShown]
  by_cases h : 8 ≤ (cstr buffer).length ∧ pp1Sig <+: buffer
  · rw [if_pos h, if_pos ⟨h.1, hsig1.2 h.2⟩, ProxyProtocol.pp1ParseHdr,
      ProxyProtocol.readBytes_of_le (by omega), htake]
    rfl
  · rw [if_neg h, if_neg fun h' => h ⟨h'.1, hsig1.1 h'.2⟩]
    rfl

/-! ## Reads -/

section Read

variable {s s' : Session} {data : List UInt8} {f : ProxyProtocol.Fault}

/-- `ParseClientIp` with the result of the parser. -/
def takeLine (s : Session) (r : LineResult) : Session :=
  { s with shown := s.shown ++ [cstr s.buffer] }.takeResult ⟨r.1, seen r.2, s.buffer⟩

lemma parseClientIp_cstr (host : ByteOrder) (budget : ℕ) (hclient : s.clientIp = []) :
    parseClientIp host budget s (cstr s.buffer).length =
      parseShown (cstr s.buffer) >>= fun r => .returned (takeLine s r) := by
  rw [parseClientIp, if_neg (not_not.2 hclient), ppParseHdr_cstr, Outcome.bind_bind]
  congr 1
  funext r
  rw [Outcome.returned_bind, take_length_cstr]
  rfl

/-- What the first read leaves. -/
def firstRead (s : Session) (data : List UInt8) (r : LineResult) : Session :=
  ((takeLine ((s.doRead data).print .onRead) r).orSomeIp.doWrite data.length).onWrite

lemma receive_first (host : ByteOrder) (budget : ℕ) (hclient : s.clientIp = [])
    (hzero : 0 ∈ data ++ s.buffer.drop data.length) :
    receive host budget s data = parseShown (cstr (data ++ s.buffer.drop data.length)) >>=
      fun r => .returned (firstRead s data r) := by
  have hparse : parseClientIp host budget ((s.doRead data).print .onRead)
      (cstr (s.doRead data).buffer).length =
        parseShown (cstr (data ++ s.buffer.drop data.length)) >>= fun r =>
          .returned (takeLine ((s.doRead data).print .onRead) r) :=
    parseClientIp_cstr host budget hclient
  unfold receive onRead
  dsimp only
  rw [if_pos (show 0 ∈ (s.doRead data).buffer from hzero),
    if_pos (show (s.doRead data).clientIp = [] from hclient), hparse, Outcome.bind_bind,
    Outcome.bind_bind]
  rfl

/-- A later read is logged and sent. -/
lemma receive_later (host : ByteOrder) (budget : ℕ) (hclient : s.clientIp ≠ [])
    (hzero : 0 ∈ data ++ s.buffer.drop data.length) :
    receive host budget s data = .returned ((((s.doRead data).print .onRead).print
      (.recvData (cstr (data ++ s.buffer.drop data.length)))).doWrite data.length).onWrite := by
  unfold receive onRead
  dsimp only
  rw [if_pos (show 0 ∈ (s.doRead data).buffer from hzero),
    if_neg (show (s.doRead data).clientIp ≠ [] from hclient)]
  rfl

lemma receive_unterminated (host : ByteOrder) (budget : ℕ)
    (hzero : 0 ∉ data ++ s.buffer.drop data.length) :
    receive host budget s data = .faulted .outOfBounds := by
  unfold receive onRead
  dsimp only
  rw [if_neg (show 0 ∉ (s.doRead data).buffer from hzero)]
  rfl

lemma firstRead_spec (hclient : s.clientIp = []) (data : List UInt8) (r : LineResult) :
    (firstRead s data r).buffer = data ++ s.buffer.drop data.length ∧
      (firstRead s data r).sent = s.sent ++ data ∧
      (firstRead s data r).clientIp =
        foundIp ⟨r.1, seen r.2, data ++ s.buffer.drop data.length⟩ := by
  obtain ⟨line, -, heq⟩ := Session.takeResult_eq
    (s := { (s.doRead data).print .onRead with
      shown := s.shown ++ [cstr (data ++ s.buffer.drop data.length)] }) hclient
    ⟨r.1, seen r.2, data ++ s.buffer.drop data.length⟩
  have hfirst : firstRead s data r = (Session.doWrite { Session.print
      { (s.doRead data).print .onRead with
        shown := s.shown ++ [cstr (data ++ s.buffer.drop data.length)] } line with
      clientIp := foundIp ⟨r.1, seen r.2, data ++ s.buffer.drop data.length⟩ }
        data.length).onWrite := by
    rw [← heq]
    rfl
  rw [hfirst]
  refine ⟨rfl, ?_, rfl⟩
  show s.sent ++ (data ++ s.buffer.drop data.length).take data.length = s.sent ++ data
  rw [List.take_left]

/-- A later read goes wrong if it leaves no zero in the buffer, and is sent back otherwise. -/
lemma receive_later_cases (host : ByteOrder) (budget : ℕ) (hclient : s.clientIp ≠ [])
    (data : List UInt8) :
    (0 ∉ data ++ s.buffer.drop data.length ∧
        receive host budget s data = .faulted .outOfBounds) ∨
      (0 ∈ data ++ s.buffer.drop data.length ∧
        ∃ s', receive host budget s data = .returned s' ∧
          s'.buffer = data ++ s.buffer.drop data.length ∧ s'.sent = s.sent ++ data ∧
          s'.clientIp = s.clientIp) := by
  by_cases hzero : 0 ∈ data ++ s.buffer.drop data.length
  · refine .inr ⟨hzero, _, receive_later host budget hclient hzero, rfl, ?_, rfl⟩
    show s.sent ++ (data ++ s.buffer.drop data.length).take data.length = s.sent ++ data
    rw [List.take_left]
  · exact .inl ⟨hzero, receive_unterminated host budget hzero⟩

/-- A read that gets through is sent back, and there is an address. -/
lemma receive_spec (h : receive host budget s data = .returned s') :
    s'.buffer = data ++ s.buffer.drop data.length ∧ s'.sent = s.sent ++ data ∧
      s'.clientIp ≠ [] := by
  by_cases hclient : s.clientIp = []
  · by_cases hzero : 0 ∈ data ++ s.buffer.drop data.length
    · rw [receive_first host budget hclient hzero] at h
      obtain ⟨r, -, hfirst⟩ := Outcome.bind_eq_returned.1 h
      obtain rfl := Outcome.returned.inj hfirst
      obtain ⟨hbuffer, hsent, hip⟩ := firstRead_spec hclient data r
      exact ⟨hbuffer, hsent, hip ▸ foundIp_ne_nil _⟩
    · rw [receive_unterminated host budget hzero] at h
      cases h
  · rcases receive_later_cases host budget hclient data with
      ⟨-, hfault⟩ | ⟨-, s₁, hs₁, hbuffer, hsent, hip⟩
    · cases hfault.symm.trans h
    · obtain rfl := Outcome.returned.inj (hs₁.symm.trans h)
      exact ⟨hbuffer, hsent, hip ▸ hclient⟩

end Read

/-! ## The first line -/

/-- The parser takes a line, and this is the source address in it: an address that the parser
accepts, or one that it refuses without saying so. -/
structure Gives (shown ip : List UInt8) : Prop where
  nonempty : ip ≠ []
  accepted : ∃ rc info, Accepted (blockOf (shown.take 108)) .zero rc info ∧
    cstr info.srcAddr.chars = ip

section Line

variable {shown ip text : List UInt8} {net : ProxyProtocol.Net} {r : LineResult}

lemma Known.front (hnet : net.Known) :
    net.front.length = 11 ∧ pp1Sig <+: net.front ∧ 0 ∉ net.front := by
  rcases hnet with rfl | rfl <;> decide

/-- A line of one of the families is parsed. -/
lemma parseShown_of_front (hnet : net.Known) (hzero : 0 ∉ shown)
    (hblock : blockOf (shown.take 108) = net.front ++ text) :
    parseShown shown = parseBlock (blockOf (shown.take 108)) .zero := by
  obtain ⟨hlength, hsig, hfree⟩ := Known.front hnet
  have hpre : net.front <+: cstr (blockOf (shown.take 108)) :=
    prefix_cstr_iff.2 ⟨⟨text, hblock.symm⟩, hfree⟩
  rw [blockOf, cstr_append_replicate,
    cstr_eq_self fun hmem => hzero (List.mem_of_mem_take hmem)] at hpre
  have hshown : net.front <+: shown := hpre.trans (List.take_prefix _ _)
  have hle := hshown.length_le
  exact if_pos ⟨by omega, hsig.trans hshown⟩

lemma cstr_zero : cstr ProxyProtocol.PpInfo.zero.srcAddr.chars = [] := rfl

/-- The families of a line with a source address. -/
lemma exists_front {block : List UInt8} {rc : ℤ} {info : ProxyProtocol.PpInfo}
    (h : Accepted block .zero rc info) (hne : cstr info.srcAddr.chars ≠ []) :
    ∃ (net : ProxyProtocol.Net) (text : List UInt8), net.Known ∧ block = net.front ++ text := by
  cases h with
  | unknown => exact absurd cstr_zero hne
  | tcp hnet _ _ _ _ _ hblock => exact ⟨_, _, hnet, hblock⟩
  | srcMissing hnet => exact absurd cstr_zero hne
  | srcRefused hnet _ _ hblock => exact ⟨_, _, hnet, hblock⟩
  | dstMissing hnet _ _ hblock => exact ⟨_, _, hnet, hblock⟩
  | dstRefused hnet _ _ _ hblock => exact ⟨_, _, hnet, hblock⟩

lemma length_block (shown : List UInt8) : (blockOf (shown.take 108)).length ≤ 108 :=
  (ProxyProtocol.length_blockOf (List.length_take_le _ _)).le

/-- The address for which the session takes the result of the parser. -/
lemma foundIp_cases (hzero : 0 ∉ shown) (h : parseShown shown = .returned r)
    (buffer : List UInt8) :
    (Gives shown (foundIp ⟨r.1, seen r.2, buffer⟩)) ∨
      ((∀ ip, ¬ Gives shown ip) ∧ foundIp ⟨r.1, seen r.2, buffer⟩ = someIp) := by
  unfold foundIp
  dsimp only
  split_ifs with hfound
  · obtain ⟨hpos, hne⟩ := hfound
    unfold parseShown at h
    split_ifs at h
    · exact .inl ⟨hne, r.1, r.2,
        (ProxyProtocol.parseBlock_pos_iff (length_block shown)).1 ⟨h, hpos⟩, rfl⟩
    · obtain rfl := Outcome.returned.inj h
      exact absurd hpos (lt_irrefl 0)
  · refine .inr ⟨fun ip hgives => hfound ?_, rfl⟩
    obtain ⟨hne, rc, info, haccepted, rfl⟩ := hgives
    obtain ⟨net, text, hnet, hblock⟩ := exists_front haccepted hne
    obtain ⟨hparse, hpos⟩ :=
      (ProxyProtocol.parseBlock_pos_iff (length_block shown)).2 haccepted
    rw [parseShown_of_front hnet hzero hblock, hparse] at h
    obtain rfl := Outcome.returned.inj h
    exact ⟨hpos, hne⟩

/-- A line shorter than the block goes wrong only with a port that is too long. -/
lemma parseShown_faulted_iff {f : ProxyProtocol.Fault} (hzero : 0 ∉ shown)
    (hshort : shown.length < 108) :
    parseShown shown = .faulted f ↔ Overruns (blockOf (shown.take 108)) ∧ f = .outOfBounds := by
  have hmem : 0 ∈ blockOf (shown.take 108) := by
    rw [blockOf, List.mem_append, List.mem_replicate, List.length_take]
    exact .inr ⟨by omega, rfl⟩
  have hiff : parseBlock (blockOf (shown.take 108)) .zero = .faulted f ↔
      Overruns (blockOf (shown.take 108)) ∧ f = .outOfBounds :=
    ProxyProtocol.parseBlock_faulted_iff (length_block shown) hmem
  rw [← hiff]
  constructor
  · intro h
    unfold parseShown at h
    split_ifs at h
    exact h
  · intro h
    obtain ⟨hover, rfl⟩ := hiff.1 h
    cases hover with
    | srcPort hnet _ _ _ _ hblock => rw [parseShown_of_front hnet hzero hblock, h]
    | dstPort hnet _ _ _ _ _ hblock => rw [parseShown_of_front hnet hzero hblock, h]

lemma parseShown_ne_running (shown : List UInt8) : parseShown shown ≠ .running := by
  unfold parseShown
  split_ifs
  · exact ProxyProtocol.parseBlock_ne_running
  · exact fun h => nomatch h

end Line

/-! ## Runs -/

section Runs

variable {s s' : Session} {first : List UInt8} {reads later : List (List UInt8)}

/-- Behind the first read everything is sent back, and the address stays. -/
lemma run_later (hclient : s.clientIp ≠ [])
    (h : Outcome.run (receive host budget) s later = .returned s') :
    s'.sent = s.sent ++ later.flatten ∧ s'.clientIp = s.clientIp := by
  induction later generalizing s with
  | nil =>
    obtain rfl := Outcome.returned.inj h
    exact ⟨(List.append_nil _).symm, rfl⟩
  | cons data later ih =>
    obtain ⟨s₁, hs₁, hrest⟩ := Outcome.run_cons_eq_returned.1 h
    rcases receive_later_cases host budget hclient data with
      ⟨-, hfault⟩ | ⟨-, s₂, hs₂, -, hsent, hip⟩
    · cases hfault.symm.trans hs₁
    · obtain rfl := Outcome.returned.inj (hs₂.symm.trans hs₁)
      obtain ⟨hsent', hip'⟩ := ih (hip ▸ hclient) hrest
      refine ⟨?_, hip'.trans hip⟩
      rw [hsent', hsent, List.append_assoc, List.flatten_cons]

/-- The first read, in the empty buffer. -/
lemma receive_init (host : ByteOrder) (budget : ℕ) (hzero : 0 ∈ held [first]) :
    receive host budget Session.init first =
      parseShown (cstr first) >>= fun r => .returned (firstRead Session.init first r) := by
  have hdrop : Session.init.buffer.drop first.length =
      List.replicate (bufSize - first.length) 0 := List.drop_replicate
  rw [receive_first host budget rfl hzero, hdrop, cstr_append_replicate]

/-- A session that gets through sends back what it has received, every byte and no other, and what
it takes for the address of the client is in the first line. -/
theorem run_returned
    (h : Outcome.run (receive host budget) Session.init (first :: later) = .returned s') :
    s'.sent = (first :: later).flatten ∧
      (Gives (cstr first) s'.clientIp ∨
        ((∀ ip, ¬ Gives (cstr first) ip) ∧ s'.clientIp = someIp)) := by
  obtain ⟨s₁, hs₁, hrest⟩ := Outcome.run_cons_eq_returned.1 h
  by_cases hzero : 0 ∈ held [first]
  · rw [receive_init host budget hzero] at hs₁
    obtain ⟨r, hr, hfirst⟩ := Outcome.bind_eq_returned.1 hs₁
    obtain rfl := Outcome.returned.inj hfirst
    obtain ⟨-, hsent, hip⟩ := firstRead_spec (s := Session.init) rfl first r
    have hclient : (firstRead Session.init first r).clientIp ≠ [] := hip ▸ foundIp_ne_nil _
    obtain ⟨hsent', hip'⟩ := run_later hclient hrest
    refine ⟨?_, ?_⟩
    · rw [hsent', hsent]
      rfl
    · rw [hip', hip]
      exact foundIp_cases (zero_notMem_cstr first) hr _
  · rw [receive_unterminated host budget hzero] at hs₁
    cases hs₁

/-- The text in the place of the source address is taken for it, though it is not an address. -/
theorem run_returned_refused : ∃ s', Outcome.run (receive .little 0) Session.init
    [ascii "PROXY TCP4 x y 1 2\r\n", ascii "hello"] = .returned s' ∧
      s'.sent = ascii "PROXY TCP4 x y 1 2\r\nhello" ∧ s'.clientIp = ascii "x" ∧
      Gives (cstr (ascii "PROXY TCP4 x y 1 2\r\n")) (ascii "x") := by
  have hrun : Outcome.run (receive .little 0) Session.init
      [ascii "PROXY TCP4 x y 1 2\r\n", ascii "hello"] >>= (fun s => .returned s.clientIp) =
        .returned (ascii "x") := by
    decide +kernel
  obtain ⟨s', hs', hip⟩ := Outcome.bind_eq_returned.1 hrun
  have hip' : s'.clientIp = ascii "x" := Outcome.returned.inj hip
  obtain ⟨hsent, hgives⟩ := run_returned hs'
  rw [hip'] at hgives
  exact ⟨s', hs', hsent, hip', hgives.resolve_right fun h => absurd h.2 (by decide)⟩

/-- Behind the first read the session goes wrong at a read that leaves no zero in the buffer. -/
lemma run_later_faulted_iff {earlier : List (List UInt8)} (hclient : s.clientIp ≠ [])
    (hbuffer : s.buffer = held earlier) :
    (∃ f, Outcome.run (receive host budget) s later = .faulted f) ↔
      ∃ before data rest, later = before ++ data :: rest ∧
        0 ∉ held (earlier ++ (before ++ [data])) := by
  induction later generalizing s earlier with
  | nil =>
    refine iff_of_false (fun ⟨f, h⟩ => nomatch h) ?_
    rintro ⟨before, data, rest, heq, -⟩
    exact List.append_ne_nil_of_right_ne_nil _ (List.cons_ne_nil _ _) heq.symm
  | cons data later ih =>
    have hheld : held (earlier ++ ([] ++ [data])) = data ++ s.buffer.drop data.length := by
      rw [List.nil_append, held_append, hbuffer]
    rcases receive_later_cases host budget hclient data with
      ⟨hzero, hfault⟩ | ⟨hzero, s₁, hs₁, hbuffer₁, -, hip₁⟩
    · refine iff_of_true ⟨.outOfBounds, ?_⟩ ⟨[], data, later, rfl, hheld ▸ hzero⟩
      rw [Outcome.run, hfault]
    · rw [Outcome.run_cons_returned hs₁]
      rw [← hheld, List.nil_append] at hbuffer₁
      rw [ih (hip₁ ▸ hclient) hbuffer₁]
      constructor
      · rintro ⟨before, data', rest, rfl, hnone⟩
        refine ⟨data :: before, data', rest, rfl, ?_⟩
        rwa [List.append_assoc] at hnone
      · rintro ⟨before, data', rest, heq, hnone⟩
        cases before with
        | nil =>
          obtain ⟨rfl, -⟩ := List.cons.inj heq
          exact absurd hzero (hheld ▸ hnone)
        | cons first before =>
          obtain ⟨rfl, rfl⟩ := List.cons.inj heq
          refine ⟨before, data', rest, rfl, ?_⟩
          rwa [List.append_assoc]

/-- If what the first read brings is shorter than a block, the session goes wrong exactly if a read
leaves no zero in the buffer, or a port in the first line is too long. -/
theorem run_faulted_iff (hshort : ∀ first ∈ reads.head?, (cstr first).length < 108) :
    (∃ f, Outcome.run (receive host budget) Session.init reads = .faulted f) ↔
      (∃ before data rest, reads = before ++ data :: rest ∧ 0 ∉ held (before ++ [data])) ∨
        ∃ first later, reads = first :: later ∧ Overruns (blockOf ((cstr first).take 108)) := by
  cases reads with
  | nil =>
    refine iff_of_false (fun ⟨f, h⟩ => nomatch h) ?_
    rintro (⟨before, data, rest, heq, -⟩ | ⟨_, _, heq, -⟩)
    · exact List.append_ne_nil_of_right_ne_nil _ (List.cons_ne_nil _ _) heq.symm
    · cases heq
  | cons first later =>
    by_cases hzero : 0 ∈ held [first]
    rotate_left
    · refine iff_of_true ⟨.outOfBounds, ?_⟩ (.inl ⟨[], first, later, rfl, hzero⟩)
      rw [Outcome.run, receive_unterminated host budget hzero]
    have hline {f : ProxyProtocol.Fault} : parseShown (cstr first) = .faulted f ↔
        Overruns (blockOf ((cstr first).take 108)) ∧ f = .outOfBounds :=
      parseShown_faulted_iff (zero_notMem_cstr first) (hshort first rfl)
    have hfirst := receive_init host budget hzero
    cases hparse : parseShown (cstr first) with
    | running => exact absurd hparse (parseShown_ne_running _)
    | faulted f =>
      rw [hparse] at hfirst
      refine iff_of_true ⟨f, ?_⟩ (.inr ⟨first, later, rfl, (hline.1 hparse).1⟩)
      rw [Outcome.run, hfirst]
      rfl
    | returned r =>
      rw [hparse, Outcome.returned_bind] at hfirst
      obtain ⟨hbuffer, -, hip⟩ := firstRead_spec (s := Session.init) rfl first r
      have hclient : (firstRead Session.init first r).clientIp ≠ [] := hip ▸ foundIp_ne_nil _
      have hheld : (firstRead Session.init first r).buffer = held [first] := hbuffer
      rw [Outcome.run_cons_returned hfirst, run_later_faulted_iff hclient hheld]
      constructor
      · rintro ⟨before, data, rest, rfl, hnone⟩
        exact .inl ⟨first :: before, data, rest, rfl, hnone⟩
      · rintro (⟨before, data, rest, heq, hnone⟩ | ⟨first', later', heq, hover⟩)
        · cases before with
          | nil =>
            obtain ⟨rfl, -⟩ := List.cons.inj heq
            exact absurd hzero hnone
          | cons first' before =>
            obtain ⟨rfl, rfl⟩ := List.cons.inj heq
            exact ⟨before, data, rest, rfl, hnone⟩
        · obtain ⟨rfl, rfl⟩ := List.cons.inj heq
          cases hparse.symm.trans (hline.2 ⟨hover, rfl⟩)

/-- A second read fills the buffer. -/
theorem run_faulted_iff_full : ∃ f, Outcome.run (receive .little 0) Session.init
    [ascii "A", List.replicate 1024 65] = .faulted f := by
  have hshort : ∀ first ∈ [ascii "A", List.replicate 1024 65].head?, (cstr first).length < 108 := by
    intro first hfirst
    obtain rfl := Option.mem_some_iff.1 hfirst
    decide
  have hnone : 0 ∉ held ([ascii "A"] ++ [List.replicate 1024 65]) := by decide +kernel
  exact (run_faulted_iff hshort).2 (.inl ⟨[ascii "A"], _, [], rfl, hnone⟩)

end Runs

/-! ## The parameters of a session -/

/-- The parsers of `proxy_protocol.cpp`, in an array that ends where what is of interest ends.  In
place of a fault stands that there is no header. -/
def codeParsers (host : ByteOrder) (budget : ℕ) : Parsers where
  pp1ParseHdr bytes :=
    match ProxyProtocol.pp1ParseHdr bytes bytes.length .zero with
    | .returned (rc, info) => (rc, seen info)
    | .faulted _ | .running => (0, seen .zero)
  pp2ParseHdr bytes :=
    match ProxyProtocol.pp2ParseHdr host budget bytes bytes.length .zero with
    | .returned parsed => ⟨parsed.rc, seen parsed.info, parsed.buffer⟩
    | .faulted _ | .running => ⟨0, seen .zero, bytes⟩

section Parameters

variable {s s' : Session} {data shown : List UInt8} {r : LineResult}

lemma ppParseHdr_codeParsers (hzero : 0 ∉ shown) (h : parseShown shown = .returned r) :
    ppParseHdr (codeParsers host budget) shown = ⟨r.1, seen r.2, shown⟩ := by
  have hsig2 : ¬ (16 ≤ shown.length ∧ pp2Sig <+: shown) :=
    fun hsig => hzero (hsig.2.subset (by decide))
  rw [ppParseHdr, if_neg hsig2]
  unfold parseShown at h
  split_ifs at h with hsig
  · have hparse : ProxyProtocol.pp1ParseHdr shown shown.length .zero = .returned r := by
      rw [ProxyProtocol.pp1ParseHdr, ProxyProtocol.readBytes_of_le (by omega), List.drop_zero,
        min_comm, ← List.take_eq_take_min]
      exact h
    rw [if_pos hsig, codeParsers]
    dsimp only
    rw [hparse]
  · obtain rfl := Outcome.returned.inj h
    rw [if_neg hsig]
    rfl

lemma parseClientIp_codeParsers (hclient : s.clientIp = [])
    (h : parseShown (cstr s.buffer) = .returned r) :
    s.parseClientIp (codeParsers host budget) (cstr s.buffer).length = takeLine s r := by
  have hparse : ppParseHdr (codeParsers host budget) (cstr s.buffer) =
      ⟨r.1, seen r.2, cstr s.buffer⟩ :=
    ppParseHdr_codeParsers (zero_notMem_cstr _) h
  have hbuffer : cstr s.buffer ++ s.buffer.drop (cstr s.buffer).length = s.buffer := by
    have hsplit := List.take_append_drop (cstr s.buffer).length s.buffer
    rwa [take_length_cstr] at hsplit
  rw [Session.parseClientIp, if_neg (not_not.2 hclient), take_length_cstr, hparse]
  dsimp only
  rw [hbuffer]
  rfl

lemma receive_codeParsers (h : receive host budget s data = .returned s') :
    s.receive (codeParsers host budget) data = .returned s' := by
  by_cases hzero : 0 ∈ data ++ s.buffer.drop data.length
  rotate_left
  · rw [receive_unterminated host budget hzero] at h
    cases h
  have hstrlen : strlen (s.doRead data).buffer = .returned (cstr (s.doRead data).buffer).length :=
    if_pos hzero
  rw [Session.receive, Session.onRead, hstrlen, Outcome.returned_bind]
  by_cases hclient : s.clientIp = []
  · rw [receive_first host budget hclient hzero] at h
    obtain ⟨r, hr, hfirst⟩ := Outcome.bind_eq_returned.1 h
    obtain rfl := Outcome.returned.inj hfirst
    have hparsed : ((s.doRead data).print .onRead).parseClientIp (codeParsers host budget)
        (cstr (s.doRead data).buffer).length = takeLine ((s.doRead data).print .onRead) r :=
      parseClientIp_codeParsers hclient hr
    rw [if_pos (show (s.doRead data).clientIp = [] from hclient), hparsed]
    rfl
  · rw [receive_later host budget hclient hzero] at h
    obtain rfl := Outcome.returned.inj h
    rw [if_neg (show (s.doRead data).clientIp ≠ [] from hclient), take_length_cstr]
    rfl

/-- A run of the session that gets through is one of a session with these parameters. -/
theorem run_codeParsers {reads : List (List UInt8)}
    (h : Outcome.run (receive host budget) s reads = .returned s') :
    Outcome.run (Session.receive (codeParsers host budget)) s reads = .returned s' := by
  induction reads generalizing s with
  | nil => exact congrArg Outcome.returned (Outcome.returned.inj h)
  | cons data reads ih =>
    obtain ⟨s₁, hs₁, hrest⟩ := Outcome.run_cons_eq_returned.1 h
    rw [Outcome.run_cons_returned (receive_codeParsers hs₁)]
    exact ih hrest

theorem run_codeParsers_refused : ∃ s', Outcome.run (Session.receive (codeParsers .little 0))
    Session.init [ascii "PROXY TCP4 x y 1 2\r\n", ascii "hello"] = .returned s' ∧
      s'.clientIp = ascii "x" := by
  have hrun : Outcome.run (receive .little 0) Session.init
      [ascii "PROXY TCP4 x y 1 2\r\n", ascii "hello"] >>= (fun s => .returned s.clientIp) =
        .returned (ascii "x") := by
    decide +kernel
  obtain ⟨s', hs', hip⟩ := Outcome.bind_eq_returned.1 hrun
  exact ⟨s', run_codeParsers hs', Outcome.returned.inj hip⟩

end Parameters

end Proxied

end AsioServer
