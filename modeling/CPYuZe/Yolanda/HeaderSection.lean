import CPYuZe.Yolanda.ParserTurns

/-!
# The end of the header section

The lines of a header section are told apart by whether they have `": "` in them.  The first
line that has not (`EndLine`) is what the parser takes for the end of the headers, if there are
slots for those in front of it, and of that line it consumes two bytes, as if it was always empty.
`headerSection_iff` says that it has to be: a line without `": "` that is not empty is taken for the
end all the same, and its bytes are left in front of the next request.
-/

namespace Yolanda

/-- `line` is the first line without `": "`, `rest` is what stands behind it, and there are slots
for the lines in front of it. -/
structure EndLine (free : ℕ) (content line rest : List UInt8) : Prop where
  headers : ∃ n ≤ free, HeaderLines n content (line ++ crlf ++ rest)
  whole : ¬ crlf <:+: line
  noColon : ¬ colonSpace <:+: line

lemma EndLine.here {free : ℕ} {line rest : List UInt8} (hline : ¬ crlf <:+: line)
    (hcolon : ¬ colonSpace <:+: line) : EndLine free (line ++ crlf ++ rest) line rest :=
  ⟨⟨0, Nat.zero_le _, .nil _⟩, hline, hcolon⟩

/-- A header in front takes a slot and does not change which line is the end line. -/
lemma endLine_header_iff {free : ℕ} {header more line rest : List UInt8}
    (hheader : ¬ crlf <:+: header) (hcolon : colonSpace <:+: header) :
    EndLine (free + 1) (header ++ crlf ++ more) line rest ↔ EndLine free more line rest := by
  constructor
  · rintro ⟨⟨n, hn, hlines⟩, hline, hend⟩
    refine ⟨?_, hline, hend⟩
    generalize hall : header ++ crlf ++ more = content at hlines
    cases hlines with
    | nil =>
      obtain ⟨heq, -⟩ := first_line_inj hheader hline hall
      exact absurd (heq ▸ hcolon) hend
    | cons hfirst _ hlines =>
      obtain ⟨-, heq⟩ := first_line_inj hheader hfirst hall
      exact ⟨_, Nat.le_of_succ_le_succ hn, heq ▸ hlines⟩
  · rintro ⟨⟨n, hn, hlines⟩, hline, hend⟩
    exact ⟨⟨n + 1, Nat.succ_le_succ hn, .cons hheader hcolon hlines⟩, hline, hend⟩

/-- There is one end line at most. -/
lemma EndLine.eq_of_no_colon {free : ℕ} {first more line rest : List UInt8}
    (hfirst : ¬ crlf <:+: first) (hcolon : ¬ colonSpace <:+: first)
    (h : EndLine free (first ++ crlf ++ more) line rest) : line = first := by
  obtain ⟨⟨n, -, hlines⟩, hline, -⟩ := h
  generalize hall : first ++ crlf ++ more = content at hlines
  cases hlines with
  | nil => exact (first_line_inj hfirst hline hall).1.symm
  | cons hother hmem _ =>
    obtain ⟨heq, -⟩ := first_line_inj hfirst hother hall
    exact absurd (heq ▸ hmem) hcolon

/-! ## Where the headers end -/

/-- The headers end at an empty line and nowhere else, whatever is still to come: a turn that
ends them consumes a line end and no other byte, and of a line without `": "` that is not empty
no byte is left when the headers have ended. -/
structure EndsAtEmptyLine (s : ParseState) : Prop where
  empty : ∀ s₁ s₂, Relation.ReflTransGen TurnsTo s s₁ → TurnsTo s₁ s₂ →
    s₁.request.currentState = .requestHeaders → s₂.request.currentState = .requestDone →
    s₁.input.content = crlf ++ s₂.input.content ∧
      s₂.input.readIndex = s₁.input.readIndex + 2
  garbage : ∀ s₁ s₂ line rest, Relation.ReflTransGen TurnsTo s s₁ → TurnsTo s₁ s₂ →
    s₁.request.currentState = .requestHeaders →
    s₁.input.content = line ++ crlf ++ rest → line ≠ [] → ¬ crlf <:+: line →
    ¬ colonSpace <:+: line →
    s₂.request.currentState ≠ .requestDone ∧
      ∀ s₃, Relation.ReflTransGen TurnsTo s₂ s₃ → s₃.request.currentState = .requestDone →
        s₃.input.content <:+ rest

section HeaderSection

variable {s s' : ParseState} {line rest : List UInt8}

/-- What is kept while the headers are read: a line that will end them is empty. -/
def EndsEmpty (s : ParseState) : Prop :=
  s.request.currentState = .requestHeaders ∧
      (∀ line rest, EndLine s.request.free s.input.content line rest → line = []) ∨
    s.request.currentState = .requestDone

/-- An end line is reached. -/
lemma EndLine.reaches (h : EndLine s.request.free s.input.content line rest)
    (hs : s.request.currentState = .requestHeaders) :
    ∃ s₁, Relation.ReflTransGen TurnsTo s s₁ ∧ s₁.request.currentState = .requestHeaders ∧
      s₁.input.content = line ++ crlf ++ rest := by
  obtain ⟨n, hn, hlines⟩ := h.headers
  obtain ⟨s₁, hreach, hs₁, hc, -⟩ := reaches_headers hlines hs rfl hn
  exact ⟨s₁, hreach, hs₁, hc⟩

lemma EndsEmpty.step (h : EndsEmpty s) (hturn : TurnsTo s s') : EndsEmpty s' := by
  rcases h with ⟨hs, hempty⟩ | hs
  · cases turnsTo_step hturn with
    | waits => exact .inl ⟨hs, hempty⟩
    | requestLine _ _ _ _ _ hstatus => simp [hs] at hstatus
    | header line rest key value _ hslot hc hline hcolon =>
      refine .inl ⟨hs, fun line' rest' hend => ?_⟩
      rw [show _ = rest from content_advance_line hc] at hend
      apply hempty line' rest'
      rw [hc, ← withHeader_free key value hslot]
      exact (endLine_header_iff hline hcolon).2 hend
    | endLine => exact .inr rfl
  · exact absurd hturn (not_turnsTo_of_done hs)

lemma EndsEmpty.reaches (h : EndsEmpty s) (hreach : Relation.ReflTransGen TurnsTo s s') :
    EndsEmpty s' := by
  induction hreach with
  | refl => exact h
  | tail _ hturn ih => exact ih.step hturn

/-- The headers end at an empty line and nowhere else exactly when the first line without `": "`
is empty, if there is one and the parser gets to it. -/
theorem headerSection_iff (s : ParseState) (hs : s.request.currentState = .requestHeaders) :
    EndsAtEmptyLine s ↔
      ∀ line rest, EndLine s.request.free s.input.content line rest → line = [] := by
  constructor
  · intro h line rest hend
    by_contra hne
    obtain ⟨s₁, hreach, hs₁, hc⟩ := hend.reaches hs
    have hturn := parseTurn_endLine hend.whole hend.noColon hs₁ hc
    exact (h.garbage s₁ _ line rest hreach hturn hs₁ hc hne hend.whole hend.noColon).1 rfl
  · intro hempty
    have hinv : EndsEmpty s := .inl ⟨hs, hempty⟩
    constructor
    · intro s₁ s₂ hreach hturn hs₁ hs₂
      rcases hinv.reaches hreach with ⟨-, hempty₁⟩ | hdone
      · cases turnsTo_step hturn with
        | waits => simp [hs₁] at hs₂
        | requestLine _ _ _ _ _ hstatus => simp [hs₁] at hstatus
        | header line rest key value => simp [hs₁] at hs₂
        | endLine line rest _ hc hline hcolon =>
          obtain rfl : line = [] := hempty₁ line rest (hc ▸ EndLine.here hline hcolon)
          have hrest : (s₁.input.advance 2).content = rest := by
            rw [Buffer.content_advance, hc]
            rfl
          refine ⟨?_, rfl⟩
          show s₁.input.content = crlf ++ (s₁.input.advance 2).content
          rw [hrest, hc, List.nil_append]
      · simp [hdone] at hs₁
    · intro s₁ s₂ line rest hreach _ hs₁ hc hne hline hcolon
      rcases hinv.reaches hreach with ⟨-, hempty₁⟩ | hdone
      · exact absurd (hempty₁ line rest (hc ▸ EndLine.here hline hcolon)) hne
      · simp [hdone] at hs₁

end HeaderSection

/-! ## A line without a colon -/

/-- Behind a request line, with `bytes` still to be parsed. -/
def behindRequestLine (h : Heap) (bytes : List UInt8) : ParseState :=
  ⟨h, received bytes, { httpRequestNew with currentState := .requestHeaders }⟩

theorem headerSection_iff_empty :
    EndsAtEmptyLine (behindRequestLine ⟨fun _ _ => 0, fun _ => 8, 3⟩ crlf) := by
  refine (headerSection_iff (behindRequestLine ⟨fun _ _ => 0, fun _ => 8, 3⟩ crlf) rfl).2 ?_
  intro line rest hend
  have hc : (received crlf).content = [] ++ crlf ++ [] := received_content crlf
  rw [behindRequestLine, hc] at hend
  exact hend.eq_of_no_colon (by decide) (by decide)

/-- A header without a space behind its colon is taken for the end of the headers. -/
theorem not_endsAtEmptyLine_hostx :
    ¬ ∀ s : ParseState, s.request.currentState = .requestHeaders → EndsAtEmptyLine s := by
  intro h
  set s := behindRequestLine ⟨fun _ _ => 0, fun _ => 8, 3⟩ (ascii "Host:x\r\n\r\n") with hs
  have hc : s.input.content = ascii "Host:x" ++ crlf ++ crlf := received_content _
  have hline : ¬ crlf <:+: ascii "Host:x" := by decide
  have hcolon : ¬ colonSpace <:+: ascii "Host:x" := by decide
  exact ((h s rfl).garbage s _ _ _ .refl (parseTurn_endLine hline hcolon rfl hc) rfl hc
    (by decide) hline hcolon).1 rfl

end Yolanda
