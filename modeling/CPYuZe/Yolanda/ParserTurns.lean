import CPYuZe.Yolanda.RequestParsing

/-!
# The turns of the parser

What the parser does with an input that need not be well formed.  A turn that goes round again
is of one of four kinds (`ParserStep`, `turnsTo_step`): nothing changes because there is no line
end, a request line with two spaces in it is taken and its copies can be terminated, a line with
`": "` is stored as a header in a slot that is left, or a line without it ends the headers.  The
lines that are stored one after the other are `HeaderLines`.
-/

namespace Yolanda

/-! ## The first line -/

lemma exists_line_of_findCRLF {b : Buffer} {n : ℕ} (h : bufferFindCRLF b = some n) :
    ∃ line rest, b.content = line ++ crlf ++ rest ∧ line.length = n ∧ ¬ crlf <:+: line :=
  exists_of_memmem (by decide) h

lemma first_line_inj {line line' rest rest' : List UInt8} (hline : ¬ crlf <:+: line)
    (hline' : ¬ crlf <:+: line') (h : line ++ crlf ++ rest = line' ++ crlf ++ rest') :
    line = line' ∧ rest = rest' := by
  have hfirst : memmem crlf (line ++ crlf ++ rest) = some line.length := by
    rw [List.append_assoc]
    exact memmem_pair_append (by decide) hline rest
  have hfirst' : memmem crlf (line' ++ crlf ++ rest') = some line'.length := by
    rw [List.append_assoc]
    exact memmem_pair_append (by decide) hline' rest'
  have hlen : line.length = line'.length := by
    rw [h, hfirst'] at hfirst
    exact (Option.some.inj hfirst).symm
  rw [List.append_assoc, List.append_assoc] at h
  obtain ⟨heq, hrest⟩ := List.append_inj h hlen
  exact ⟨heq, List.append_cancel_left hrest⟩

/-! ## Request lines -/

lemma count_of_memmem_space {line : List UInt8} {n : ℕ} (h : memmem space line = some n) :
    line.count 32 = (line.drop (n + 1)).count 32 + 1 := by
  obtain ⟨front, rest, rfl, rfl, hfront⟩ := exists_of_memmem (by decide) h
  have hzero : front.count 32 = 0 := by
    rw [List.count_eq_zero]
    intro hmem
    exact hfront ((List.singleton_infix_iff _ _).2 hmem)
  have hdrop : (front ++ space ++ rest).drop (front.length + 1) = rest := by
    rw [List.append_assoc, ← List.drop_drop, List.drop_left]
    rfl
  rw [hdrop, List.count_append, List.count_append, hzero]
  simp [space, Nat.add_comm]

lemma count_of_memmem_space_none {line : List UInt8} (h : memmem space line = none) :
    line.count 32 = 0 := by
  rw [List.count_eq_zero]
  intro hmem
  exact memmem_eq_none_iff.1 h ((List.singleton_infix_iff _ _).2 hmem)

/-- A copy, the byte behind it, and a terminator behind that. -/
def TerminatedPast (b : Block) : Prop := ∃ copy last rest, b = ⟨copy ++ last :: 0 :: rest⟩

section RequestLine

variable (h : Heap) (q : HttpRequest) {line : List UInt8}

lemma processStatusLine_of_le (hline : 2 ≤ line.count 32) (hfit : CopiesFit h.spare h.next) :
    ∃ method url version, TerminatedPast version ∧
      processStatusLine h line q = .returned (line.length,
        { q with method := some method, url := some url, version := some version }, h.skip 3) := by
  unfold processStatusLine
  cases hfirst : memmem space line with
  | none =>
    rw [count_of_memmem_space_none hfirst] at hline
    omega
  | some m =>
    have hcount := count_of_memmem_space hfirst
    cases hsecond : memmem space (line.drop (m + 1)) with
    | none =>
      rw [hcount, count_of_memmem_space_none hsecond] at hline
      omega
    | some u =>
      -- each of the three terminators is inside its allocation
      obtain ⟨_, _, hmethod⟩ := ((copyString_past_cases h line m).resolve_right
        fun hno => hno.1 hfit.1).2
      obtain ⟨_, _, hurl⟩ := ((copyString_past_cases (h.skip 1) (line.drop (m + 1)) u).resolve_right
        fun hno => hno.1 hfit.2.1).2
      obtain ⟨_, _, hversion⟩ := ((copyString_past_cases ((h.skip 1).skip 1)
        ((line.drop (m + 1)).drop (u + 1)) ((line.drop (m + 1)).drop (u + 1)).length).resolve_right
        fun hno => hno.1 hfit.2.2).2
      simp only [hmethod, hsecond, hurl, hversion, Outcome.returned_bind, Outcome.pure_eq]
      exact ⟨_, _, _, ⟨_, _, _, rfl⟩, rfl⟩

/-- With fewer than two spaces one of the assertions fails, if nothing has gone wrong before. -/
lemma processStatusLine_of_lt (hline : line.count 32 < 2) :
    ∃ e, processStatusLine h line q = .faulted e := by
  unfold processStatusLine
  cases hfirst : memmem space line with
  | none => exact ⟨_, rfl⟩
  | some m =>
    have hcount := count_of_memmem_space hfirst
    dsimp only
    rcases copyString_past_cases h line m with ⟨-, _, _, hmethod⟩ | ⟨-, hfault⟩
    · cases hsecond : memmem space (line.drop (m + 1)) with
      | none => exact ⟨.assertion, by simp only [hmethod, Outcome.returned_bind]⟩
      | some u =>
        have hcount' := count_of_memmem_space hsecond
        omega
    · exact ⟨_, by rw [hfault]; rfl⟩

end RequestLine

/-! ## Turns -/

section Turns

variable {s : ParseState} {line rest : List UInt8}

lemma parseTurn_requestLine (hs : s.request.currentState = .requestStatus)
    (hfit : CopiesFit s.heap.spare s.heap.next) (hline : ¬ crlf <:+: line)
    (hspaces : 2 ≤ line.count 32) (hc : s.input.content = line ++ crlf ++ rest) :
    ∃ method url version, TerminatedPast version ∧ parseTurn s = .returned (.next
      ⟨s.heap.skip 3, (s.input.advance line.length).advance 2,
        { s.request with
          method := some method, url := some url, version := some version
          currentState := .requestHeaders }⟩) := by
  have hfind := findCRLF_of_content hline hc
  have htake : s.input.content.take line.length = line := by
    rw [hc, List.append_assoc, List.take_left]
  obtain ⟨method, url, version, hversion, hstatus⟩ :=
    processStatusLine_of_le s.heap s.request hspaces hfit
  have hne : line.length ≠ 0 := by
    have := List.count_le_length (a := (32 : UInt8)) (l := line)
    omega
  unfold parseTurn parseStatus
  rw [hs, hfind]
  simp only [htake, hstatus, Outcome.returned_bind, if_pos hne, Outcome.pure_eq]
  exact ⟨method, url, version, hversion, rfl⟩

lemma parseTurn_badLine (hs : s.request.currentState = .requestStatus)
    (hline : ¬ crlf <:+: line) (hspaces : line.count 32 < 2)
    (hc : s.input.content = line ++ crlf ++ rest) : ∃ e, parseTurn s = .faulted e := by
  have hfind := findCRLF_of_content hline hc
  have htake : s.input.content.take line.length = line := by
    rw [hc, List.append_assoc, List.take_left]
  obtain ⟨e, he⟩ := processStatusLine_of_lt s.heap s.request hspaces
  refine ⟨e, ?_⟩
  unfold parseTurn parseStatus
  rw [hs, hfind]
  simp only [htake, he, Outcome.faulted_bind]

/-- A line with `": "` is stored as a header and consumed, if there is a slot for it. -/
lemma parseTurn_headerLine (hs : s.request.currentState = .requestHeaders)
    (hline : ¬ crlf <:+: line) (hcolon : colonSpace <:+: line)
    (hc : s.input.content = line ++ crlf ++ rest) :
    ∃ key value, 0 ∈ key.bytes ∧ 0 ∈ value.bytes ∧ parseTurn s =
      httpRequestAddHeader s.request key value >>= fun q => .returned (.next
        ⟨s.heap.skip 2, (s.input.advance line.length).advance 2, q⟩) := by
  have hfind := findCRLF_of_content hline hc
  have htake : s.input.content.take line.length = line := by
    rw [hc, List.append_assoc, List.take_left]
  cases hmem : memmem colonSpace line with
  | none => exact absurd hcolon (memmem_eq_none_iff.1 hmem)
  | some colon =>
    obtain ⟨key, hkey, hkzero⟩ := copyString_zero_mem s.heap line colon
    obtain ⟨value, hvalue, hvzero⟩ := copyString_zero_mem (s.heap.skip 1) (line.drop (colon + 2))
      (line.length - colon - 2)
    refine ⟨key, value, hkzero, hvzero, ?_⟩
    unfold parseTurn
    rw [hs]
    simp only [parseHeader, hfind, htake, hmem, hkey, hvalue, Heap.skip_skip,
      Outcome.returned_bind, Outcome.pure_eq, Outcome.bind_bind]

lemma parseTurn_headerLine_of_lt (hs : s.request.currentState = .requestHeaders)
    (hline : ¬ crlf <:+: line) (hcolon : colonSpace <:+: line)
    (hc : s.input.content = line ++ crlf ++ rest)
    (hslot : s.request.requestHeadersNumber < s.request.requestHeaders.length) :
    ∃ key value, 0 ∈ key.bytes ∧ 0 ∈ value.bytes ∧ parseTurn s = .returned (.next
      ⟨s.heap.skip 2, (s.input.advance line.length).advance 2,
        s.request.withHeader key value⟩) := by
  obtain ⟨key, value, hkey, hvalue, hturn⟩ := parseTurn_headerLine hs hline hcolon hc
  refine ⟨key, value, hkey, hvalue, ?_⟩
  rw [hturn, addHeader_of_lt _ _ hslot, Outcome.returned_bind]

lemma parseTurn_headerLine_of_le (hs : s.request.currentState = .requestHeaders)
    (hline : ¬ crlf <:+: line) (hcolon : colonSpace <:+: line)
    (hc : s.input.content = line ++ crlf ++ rest)
    (hslot : s.request.requestHeaders.length ≤ s.request.requestHeadersNumber) :
    parseTurn s = .faulted .outOfBounds := by
  obtain ⟨key, value, -, -, hturn⟩ := parseTurn_headerLine hs hline hcolon hc
  rw [hturn, addHeader_of_le _ _ hslot, Outcome.faulted_bind]

end Turns

/-- One turn of the parser that goes round again. -/
abbrev TurnsTo : ParseState → ParseState → Prop := Outcome.TurnsTo parseTurn

/-- What a turn that goes round again has done. -/
inductive ParserStep (s : ParseState) : ParseState → Prop
  | waits : ParserStep s s
  | requestLine (line rest : List UInt8) (method url version : Block)
      (hs : s.request.currentState = .requestStatus)
      (hfit : CopiesFit s.heap.spare s.heap.next)
      (hc : s.input.content = line ++ crlf ++ rest) (hline : ¬ crlf <:+: line)
      (hspaces : 2 ≤ line.count 32) (hversion : TerminatedPast version) :
      ParserStep s ⟨s.heap.skip 3, (s.input.advance line.length).advance 2,
        { s.request with
          method := some method, url := some url, version := some version
          currentState := .requestHeaders }⟩
  | header (line rest : List UInt8) (key value : Block)
      (hs : s.request.currentState = .requestHeaders)
      (hslot : s.request.requestHeadersNumber < s.request.requestHeaders.length)
      (hc : s.input.content = line ++ crlf ++ rest) (hline : ¬ crlf <:+: line)
      (hcolon : colonSpace <:+: line) (hkey : 0 ∈ key.bytes) (hvalue : 0 ∈ value.bytes) :
      ParserStep s ⟨s.heap.skip 2, (s.input.advance line.length).advance 2,
        s.request.withHeader key value⟩
  | endLine (line rest : List UInt8) (hs : s.request.currentState = .requestHeaders)
      (hc : s.input.content = line ++ crlf ++ rest) (hline : ¬ crlf <:+: line)
      (hcolon : ¬ colonSpace <:+: line) :
      ParserStep s (headersParsed s [])

section Steps

variable {s s' : ParseState}

lemma turnsTo_inj {s₁ s₂ : ParseState} (h₁ : TurnsTo s s₁) (h₂ : TurnsTo s s₂) : s₁ = s₂ := by
  simpa using h₁.symm.trans h₂

lemma not_turnsTo_of_done (hs : s.request.currentState = .requestDone) : ¬ TurnsTo s s' := by
  intro h
  simpa using (parseTurn_done hs).symm.trans h

/-- A call that comes back has gone through turns to a request that is done. -/
lemma reaches_of_returned {fuel : ℕ} (h : Outcome.loop parseTurn fuel s = .returned s') :
    Relation.ReflTransGen TurnsTo s s' ∧ s'.request.currentState = .requestDone := by
  obtain ⟨s₁, hreach, hdone⟩ := Outcome.exists_reaches_of_loop h
  obtain ⟨rfl, hs⟩ := parseTurn_eq_done hdone
  exact ⟨hreach, hs⟩

lemma turnsTo_step (hturn : TurnsTo s s') : ParserStep s s' := by
  by_cases hdone : s.request.currentState = .requestDone
  · exact absurd hturn (not_turnsTo_of_done hdone)
  · cases hfind : bufferFindCRLF s.input with
    | none =>
      rw [turnsTo_inj hturn (parseTurn_waits hdone hfind)]
      exact .waits
    | some n =>
      obtain ⟨line, rest, hc, -, hline⟩ := exists_line_of_findCRLF hfind
      cases hs : s.request.currentState with
      | requestDone => exact absurd hs hdone
      | requestBody =>
        have hsame : TurnsTo s s := by
          unfold TurnsTo Outcome.TurnsTo parseTurn
          rw [hs]
        rw [turnsTo_inj hturn hsame]
        exact .waits
      | requestStatus =>
        by_cases hspaces : 2 ≤ line.count 32
        · by_cases hfit : CopiesFit s.heap.spare s.heap.next
          · obtain ⟨method, url, version, hversion, hnext⟩ :=
              parseTurn_requestLine hs hfit hline hspaces hc
            rw [turnsTo_inj hturn hnext]
            exact .requestLine line rest method url version hs hfit hc hline hspaces hversion
          · obtain ⟨e, hbad⟩ := parseTurn_of_not_fit hline hs hfit hc
            simp [Outcome.TurnsTo, hbad] at hturn
        · obtain ⟨e, hbad⟩ := parseTurn_badLine hs hline (by omega) hc
          simp [Outcome.TurnsTo, hbad] at hturn
      | requestHeaders =>
        by_cases hcolon : colonSpace <:+: line
        · by_cases hslot : s.request.requestHeadersNumber < s.request.requestHeaders.length
          · obtain ⟨key, value, hkey, hvalue, hnext⟩ :=
              parseTurn_headerLine_of_lt hs hline hcolon hc hslot
            rw [turnsTo_inj hturn hnext]
            exact .header line rest key value hs hslot hc hline hcolon hkey hvalue
          · have hbad := parseTurn_headerLine_of_le hs hline hcolon hc (by omega)
            simp [Outcome.TurnsTo, hbad] at hturn
        · rw [turnsTo_inj hturn (parseTurn_endLine hline hcolon hs hc)]
          exact .endLine line rest hs hc hline hcolon

end Steps

/-! ## Headers one after the other -/

/-- `n` lines with `": "` in them stand at the front of the content, and then the rest. -/
inductive HeaderLines : ℕ → List UInt8 → List UInt8 → Prop
  | nil (content : List UInt8) : HeaderLines 0 content content
  | cons {n : ℕ} {line more rest : List UInt8} (hline : ¬ crlf <:+: line)
      (hcolon : colonSpace <:+: line) (h : HeaderLines n more rest) :
      HeaderLines (n + 1) (line ++ crlf ++ more) rest

/-- Behind a request line the parser waits for headers, with the same array. -/
lemma turnsTo_requestLine {s : ParseState} {line more : List UInt8}
    (hs : s.request.currentState = .requestStatus) (hfit : CopiesFit s.heap.spare s.heap.next)
    (hline : ¬ crlf <:+: line) (hspaces : 2 ≤ line.count 32)
    (hc : s.input.content = line ++ crlf ++ more) :
    ∃ s₁, TurnsTo s s₁ ∧ s₁.request.currentState = .requestHeaders ∧ s₁.input.content = more ∧
      s₁.request.requestHeadersNumber = s.request.requestHeadersNumber ∧
      s₁.request.requestHeaders.length = s.request.requestHeaders.length := by
  obtain ⟨method, url, version, -, hturn⟩ := parseTurn_requestLine hs hfit hline hspaces hc
  exact ⟨_, hturn, rfl, content_advance_line hc, rfl, rfl⟩

/-- The parser gets to what stands behind the headers, and stores each of them, if there are slots
for them. -/
lemma reaches_headers {n : ℕ} {content more : List UInt8} (h : HeaderLines n content more) :
    ∀ {s : ParseState}, s.request.currentState = .requestHeaders → s.input.content = content →
      n ≤ s.request.free →
      ∃ s₁, Relation.ReflTransGen TurnsTo s s₁ ∧
        s₁.request.currentState = .requestHeaders ∧ s₁.input.content = more ∧
        s₁.request.requestHeadersNumber = s.request.requestHeadersNumber + n ∧
        s₁.request.requestHeaders.length = s.request.requestHeaders.length := by
  induction h with
  | nil content => exact fun hs hc _ => ⟨_, .refl, hs, hc, rfl, rfl⟩
  | cons hline hcolon _ ih =>
    intro s hs hc hslots
    have hslot : s.request.requestHeadersNumber < s.request.requestHeaders.length := by
      rw [HttpRequest.free] at hslots
      omega
    obtain ⟨key, value, -, -, hturn⟩ := parseTurn_headerLine_of_lt hs hline hcolon hc hslot
    have hfree := withHeader_free key value hslot
    obtain ⟨s₁, hreach, hs₁, hc₁, hnumber, hlength⟩ :=
      ih (s := ⟨_, _, s.request.withHeader key value⟩) hs (content_advance_line hc)
        (show _ ≤ (s.request.withHeader key value).free by omega)
    refine ⟨s₁, .head hturn hreach, hs₁, hc₁, ?_, ?_⟩
    · rw [hnumber, withHeader_number]
      omega
    · rw [hlength, withHeader_length]

/-! ## An input -/

/-- A new buffer into which `bytes` have been read. -/
def received (bytes : List UInt8) : Buffer where
  data := bytes ++ List.replicate (initBufferSize - bytes.length) 0
  readIndex := 0
  writeIndex := bytes.length
  totalSize := initBufferSize

lemma received_content (bytes : List UInt8) : (received bytes).content = bytes := List.take_left

lemma received_wf {bytes : List UInt8} (h : bytes.length ≤ initBufferSize) :
    (received bytes).Wf := by
  refine ⟨Nat.zero_le _, h, ?_⟩
  simp only [received, List.length_append, List.length_replicate]
  omega

end Yolanda
