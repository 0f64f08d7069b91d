import CPYuZe.Yolanda.HttpServer

/-!
# Parsing the text of a request

A well-formed request without a body is a request line with two spaces, header lines with
`": "` in them, and an empty line (`RequestText`, `WellFormed`).  When all of it stands in the
input and there is room for it (`RoomFor`) the parser comes back in as many turns as there are
lines and one more, with the request and with the input behind it (`loop_encode`); without room a
store goes wrong (`encode_neverReturns`).  When only a part of the request is there the parser does
not come back either (`neverReturns_of_lt`): the lines before the cut are taken as far as there is
room for them, and then the loop turns on a line that has no end.
-/

namespace Yolanda

/-- The text of a request without a body, line by line. -/
structure RequestText where
  method : List UInt8
  url : List UInt8
  version : List UInt8
  headers : List (List UInt8 × List UInt8)

def headerText (t : List UInt8 × List UInt8) : List UInt8 := t.1 ++ colonSpace ++ t.2

/-- The lines of the headers and the empty line. -/
def encodeHeaders (ts : List (List UInt8 × List UInt8)) : List UInt8 :=
  (ts.flatMap fun t => headerText t ++ crlf) ++ crlf

namespace RequestText

def line (r : RequestText) : List UInt8 := r.method ++ space ++ (r.url ++ space ++ r.version)

def encode (r : RequestText) : List UInt8 := r.line ++ crlf ++ encodeHeaders r.headers

/-- The spaces of the request line and the first `": "` of a header are where they are meant to
be, no line has a line end in it, and no byte is zero. -/
structure WellFormed (r : RequestText) : Prop where
  method : (32 : UInt8) ∉ r.method
  url : (32 : UInt8) ∉ r.url
  line : ¬ crlf <:+: r.line
  line_ne_zero : (0 : UInt8) ∉ r.line
  key : ∀ t ∈ r.headers, ¬ colonSpace <:+: t.1
  header : ∀ t ∈ r.headers, ¬ crlf <:+: headerText t
  header_ne_zero : ∀ t ∈ r.headers, (0 : UInt8) ∉ headerText t

end RequestText

lemma encodeHeaders_cons (t : List UInt8 × List UInt8) (ts : List (List UInt8 × List UInt8)) :
    encodeHeaders (t :: ts) = headerText t ++ crlf ++ encodeHeaders ts := by
  simp [encodeHeaders]

/-! ## Lines -/

/-- Consuming the front of the content leaves what is behind it. -/
lemma Buffer.Wf.advance_append {b : Buffer} (h : b.Wf) {xs ys : List UInt8}
    (hc : b.content = xs ++ ys) :
    (b.advance xs.length).Wf ∧ (b.advance xs.length).content = ys := by
  constructor
  · apply h.advance
    rw [← h.length_content, hc, List.length_append]
    omega
  · rw [Buffer.content_advance, hc, List.drop_left]

/-- Behind a line and its end. -/
lemma content_advance_line {b : Buffer} {line rest : List UInt8}
    (hc : b.content = line ++ crlf ++ rest) :
    ((b.advance line.length).advance 2).content = rest := by
  rw [Buffer.content_advance, Buffer.content_advance, hc, List.append_assoc, List.drop_left]
  rfl

lemma Buffer.Wf.advance_line {b : Buffer} (h : b.Wf) {line rest : List UInt8}
    (hc : b.content = line ++ crlf ++ rest) :
    ((b.advance line.length).advance 2).Wf ∧
      ((b.advance line.length).advance 2).content = rest := by
  have hrest := content_advance_line hc
  rw [List.append_assoc] at hc
  obtain ⟨hwf, hcontent⟩ := h.advance_append hc
  exact ⟨(hwf.advance_append hcontent).1, hrest⟩

lemma findCRLF_of_content {b : Buffer} {line rest : List UInt8} (hline : ¬ crlf <:+: line)
    (hc : b.content = line ++ crlf ++ rest) : bufferFindCRLF b = some line.length := by
  rw [bufferFindCRLF, hc, List.append_assoc]
  exact memmem_pair_append (by decide) hline rest

/-- What has arrived of a line and of what follows it: no line end yet, or the whole line. -/
lemma prefix_line_cases {pre line rest : List UInt8} (h : pre <+: line ++ crlf ++ rest) :
    pre <+: line ++ [13] ∨ ∃ later, pre = line ++ crlf ++ later ∧ later <+: rest := by
  by_cases hlen : pre.length ≤ (line ++ [13]).length
  · left
    apply List.prefix_of_prefix_length_le h _ hlen
    exact ⟨10 :: rest, by simp [crlf]⟩
  · right
    have hle : (line ++ crlf).length ≤ pre.length := by
      simp only [List.length_append, List.length_singleton] at hlen
      simp only [List.length_append, crlf, List.length_cons, List.length_nil]
      omega
    obtain ⟨later, hlater⟩ := List.prefix_of_prefix_length_le (List.prefix_append _ rest) h hle
    refine ⟨later, hlater.symm, ?_⟩
    rw [← hlater] at h
    exact (List.prefix_append_right_inj _).1 h

lemma findCRLF_eq_none {b : Buffer} {line : List UInt8} (hline : ¬ crlf <:+: line)
    (hc : b.content <+: line ++ [13]) : bufferFindCRLF b = none := by
  unfold bufferFindCRLF
  rcases List.prefix_concat_iff.1 hc with heq | hpre
  · rw [heq]
    exact memmem_pair_append_singleton (by decide) hline
  · exact memmem_eq_none_iff.2 fun hin => hline (hin.trans hpre.isInfix)

/-! ## One turn -/

/-- The request behind the request line. -/
def parsedLine (h : Heap) (q : HttpRequest) (r : RequestText) : HttpRequest :=
  { q with
    method := some (h.copied r.method)
    url := some ((h.skip 1).copied r.url)
    version := some ((h.skip 2).copied r.version)
    currentState := .requestHeaders }

/-- The request behind a header. -/
def parsedHeader (h : Heap) (q : HttpRequest) (t : List UInt8 × List UInt8) : HttpRequest :=
  q.withHeader (h.terminated t.1) ((h.skip 1).terminated t.2)

/-- The request behind the headers and the empty line. -/
def parsedHeaders (h : Heap) (q : HttpRequest) : List (List UInt8 × List UInt8) → HttpRequest
  | [] => { q with currentState := .requestDone }
  | t :: ts => parsedHeaders (h.skip 2) (parsedHeader h q t) ts

/-- What the parser makes of the text of a request. -/
def parsedRequest (h : Heap) (q : HttpRequest) (r : RequestText) : HttpRequest :=
  parsedHeaders (h.skip 3) (parsedLine h q r) r.headers

def statusParsed (s : ParseState) (r : RequestText) : ParseState where
  heap := s.heap.skip 3
  input := (s.input.advance r.line.length).advance 2
  request := parsedLine s.heap s.request r

def headerParsed (s : ParseState) (t : List UInt8 × List UInt8) : ParseState where
  heap := s.heap.skip 2
  input := (s.input.advance (headerText t).length).advance 2
  request := parsedHeader s.heap s.request t

def headersParsed (s : ParseState) (ts : List (List UInt8 × List UInt8)) : ParseState where
  heap := s.heap.skip (2 * ts.length)
  input := s.input.advance (encodeHeaders ts).length
  request := parsedHeaders s.heap s.request ts

def requestParsed (s : ParseState) (r : RequestText) : ParseState where
  heap := s.heap.skip (3 + 2 * r.headers.length)
  input := s.input.advance r.encode.length
  request := parsedRequest s.heap s.request r

/-- The copies of the request line can be terminated, and the headers have slots. -/
structure RoomFor (s : ParseState) (r : RequestText) : Prop where
  copies : CopiesFit s.heap.spare s.heap.next
  slots : s.request.requestHeadersNumber + r.headers.length ≤ s.request.requestHeaders.length

lemma Buffer.advance_advance (b : Buffer) (m n : ℕ) :
    (b.advance m).advance n = b.advance (m + n) := by
  simp only [Buffer.advance, Nat.add_assoc]

lemma headersParsed_cons (s : ParseState) (t : List UInt8 × List UInt8)
    (ts : List (List UInt8 × List UInt8)) :
    headersParsed (headerParsed s t) ts = headersParsed s (t :: ts) := by
  have hlen : (headerText t).length + 2 + (encodeHeaders ts).length =
      (encodeHeaders (t :: ts)).length := by
    rw [encodeHeaders_cons, List.length_append, List.length_append]
    rfl
  have hnext : 2 + 2 * ts.length = 2 * (t :: ts).length := by
    rw [List.length_cons]
    omega
  simp only [headersParsed, headerParsed, Heap.skip_skip, Buffer.advance_advance, hlen, hnext,
    parsedHeaders]

lemma requestParsed_eq (s : ParseState) (r : RequestText) :
    headersParsed (statusParsed s r) r.headers = requestParsed s r := by
  have hlen : r.line.length + 2 + (encodeHeaders r.headers).length = r.encode.length := by
    rw [RequestText.encode, List.length_append, List.length_append]
    rfl
  simp only [headersParsed, statusParsed, Heap.skip_skip, Buffer.advance_advance, hlen,
    requestParsed, parsedRequest]

section Lines

variable {r : RequestText} (h : Heap) (q : HttpRequest)

/-- With room for the terminators the strings of a request line are copied one by one. -/
lemma processStatusLine_eq (hr : r.WellFormed) (hfit : CopiesFit h.spare h.next) :
    processStatusLine h r.line q = .returned (r.line.length,
      { q with
        method := some (h.copied r.method)
        url := some ((h.skip 1).copied r.url)
        version := some ((h.skip 2).copied r.version) }, h.skip 3) := by
  have hzero := hr.line_ne_zero
  simp only [RequestText.line, List.mem_append, not_or] at hzero
  obtain ⟨⟨hmethod, -⟩, ⟨hurl, -⟩, hversion⟩ := hzero
  have hline : r.line = r.method ++ 32 :: (r.url ++ space ++ r.version) := by
    simp [RequestText.line, space]
  have hstart : r.url ++ space ++ r.version = r.url ++ 32 :: r.version := by simp [space]
  have hfirst : memmem space r.line = some r.method.length := by
    rw [hline]
    exact memmem_singleton_append hr.method _
  have hsecond : memmem space (r.url ++ space ++ r.version) = some r.url.length := by
    rw [hstart]
    exact memmem_singleton_append hr.url _
  have htake₁ : r.line.take r.method.length = r.method := by rw [hline, List.take_left]
  have htake₂ : (r.url ++ space ++ r.version).take r.url.length = r.url := by
    rw [hstart, List.take_left]
  have hdrop₁ : r.line.drop (r.method.length + 1) = r.url ++ space ++ r.version := by
    rw [hline, ← List.drop_drop, List.drop_left]
    rfl
  have hdrop₂ : (r.url ++ space ++ r.version).drop (r.url.length + 1) = r.version := by
    rw [hstart, ← List.drop_drop, List.drop_left]
    rfl
  have hcopy₁ := copyString_past h r.line r.method.length
    (by simp [hline]) (by rw [htake₁]; exact hmethod) hfit.1
  have hcopy₂ := copyString_past (h.skip 1) (r.url ++ space ++ r.version) r.url.length (by simp)
    (by rw [htake₂]; exact hurl) hfit.2.1
  have hcopy₃ := copyString_past (h.skip 2) r.version r.version.length le_rfl
    (by rw [List.take_length]; exact hversion) hfit.2.2
  rw [htake₁] at hcopy₁
  rw [htake₂, Heap.skip_skip] at hcopy₂
  rw [List.take_length, Heap.skip_skip] at hcopy₃
  simp only [processStatusLine, hfirst, hcopy₁, hdrop₁, hsecond, hcopy₂, hdrop₂, hcopy₃,
    Outcome.returned_bind, Outcome.pure_eq]

/-- Without room for one of the terminators a request line goes wrong, if it does not do so for
want of a space. -/
lemma processStatusLine_of_not_fit (line : List UInt8) (hfit : ¬ CopiesFit h.spare h.next) :
    ∃ e, processStatusLine h line q = .faulted e := by
  unfold processStatusLine
  cases memmem space line with
  | none => exact ⟨_, rfl⟩
  | some m =>
    dsimp only
    rcases copyString_past_cases h line m with ⟨hone, _, _, hmethod⟩ | ⟨-, hfault⟩
    · rw [hmethod, Outcome.returned_bind]
      dsimp only
      cases memmem space (line.drop (m + 1)) with
      | none => exact ⟨_, rfl⟩
      | some u =>
        dsimp only
        rcases copyString_past_cases (h.skip 1) (line.drop (m + 1)) u with
          ⟨htwo, _, _, hurl⟩ | ⟨-, hfault⟩
        · rw [hurl, Outcome.returned_bind]
          dsimp only
          rcases copyString_past_cases ((h.skip 1).skip 1) ((line.drop (m + 1)).drop (u + 1))
            ((line.drop (m + 1)).drop (u + 1)).length with ⟨hthree, -⟩ | ⟨-, hfault⟩
          · exact absurd ⟨hone, htwo, hthree⟩ hfit
          · exact ⟨_, by rw [hfault]; rfl⟩
        · exact ⟨_, by rw [hfault]; rfl⟩
    · exact ⟨_, by rw [hfault]; rfl⟩

end Lines

section Turns

variable {s : ParseState} {r : RequestText} {rest : List UInt8}

lemma parseTurn_status (hr : r.WellFormed) (hs : s.request.currentState = .requestStatus)
    (hfit : CopiesFit s.heap.spare s.heap.next) (hc : s.input.content = r.line ++ crlf ++ rest) :
    parseTurn s = .returned (.next (statusParsed s r)) := by
  have hfind := findCRLF_of_content hr.line hc
  have htake : s.input.content.take r.line.length = r.line := by
    rw [hc, List.append_assoc, List.take_left]
  have hne : r.line.length ≠ 0 := by simp [RequestText.line, space]
  unfold parseTurn parseStatus
  rw [hs, hfind]
  simp only [htake, processStatusLine_eq s.heap s.request hr hfit, Outcome.returned_bind,
    if_pos hne, Outcome.pure_eq]
  rfl

lemma parseTurn_of_not_fit {line : List UInt8} (hline : ¬ crlf <:+: line)
    (hs : s.request.currentState = .requestStatus)
    (hfit : ¬ CopiesFit s.heap.spare s.heap.next) (hc : s.input.content = line ++ crlf ++ rest) :
    ∃ e, parseTurn s = .faulted e := by
  obtain ⟨e, he⟩ := processStatusLine_of_not_fit s.heap s.request
    (s.input.content.take line.length) hfit
  refine ⟨e, ?_⟩
  unfold parseTurn parseStatus
  rw [hs, findCRLF_of_content hline hc]
  simp only [he, Outcome.faulted_bind]

/-- Without a line end in the input the loop goes round again and nothing changes. -/
lemma parseTurn_waits (hs : s.request.currentState ≠ .requestDone)
    (h : bufferFindCRLF s.input = none) : parseTurn s = .returned (.next s) := by
  unfold parseTurn parseStatus parseHeader
  rw [h]
  cases hstate : s.request.currentState with
  | requestStatus => rfl
  | requestHeaders => rfl
  | requestBody => rfl
  | requestDone => exact absurd hstate hs

/-- The strings of a header are copied, and then it is to be stored. -/
lemma parseTurn_header {t : List UInt8 × List UInt8} (hkey : ¬ colonSpace <:+: t.1)
    (hline : ¬ crlf <:+: headerText t) (hzero : (0 : UInt8) ∉ headerText t)
    (hs : s.request.currentState = .requestHeaders)
    (hc : s.input.content = headerText t ++ crlf ++ rest) :
    parseTurn s =
      httpRequestAddHeader s.request (s.heap.terminated t.1) ((s.heap.skip 1).terminated t.2) >>=
        fun q => .returned (.next
          ⟨s.heap.skip 2, (s.input.advance (headerText t).length).advance 2, q⟩) := by
  simp only [headerText, List.mem_append, not_or] at hzero
  obtain ⟨⟨hkzero, -⟩, hvzero⟩ := hzero
  have hfind := findCRLF_of_content hline hc
  have htake : s.input.content.take (headerText t).length = headerText t := by
    rw [hc, List.append_assoc, List.take_left]
  have hcolon : memmem colonSpace (headerText t) = some t.1.length := by
    rw [headerText, List.append_assoc]
    exact memmem_pair_append (by decide) hkey t.2
  have hdrop : (headerText t).drop (t.1.length + 2) = t.2 := by
    rw [headerText, List.append_assoc, ← List.drop_drop, List.drop_left]
    rfl
  have hlen : (headerText t).length - t.1.length - 2 = t.2.length := by
    simp only [headerText, List.length_append, colonSpace, List.length_cons, List.length_nil]
    omega
  have hktake : (headerText t).take t.1.length = t.1 := by
    rw [headerText, List.append_assoc, List.take_left]
  have hcopy₁ := copyString_inside s.heap (headerText t) t.1.length
    (by simp [headerText]) (by rw [hktake]; exact hkzero)
  have hcopy₂ := copyString_inside (s.heap.skip 1) t.2 t.2.length le_rfl
    (by rw [List.take_length]; exact hvzero)
  rw [hktake] at hcopy₁
  rw [List.take_length, Heap.skip_skip] at hcopy₂
  unfold parseTurn
  rw [hs]
  simp only [parseHeader, hfind, htake, hcolon, hcopy₁, hdrop, hlen, hcopy₂,
    Outcome.returned_bind, Outcome.pure_eq, Outcome.bind_bind]

/-- With a slot left the header is stored. -/
lemma parseTurn_header_of_lt {t : List UInt8 × List UInt8} (hkey : ¬ colonSpace <:+: t.1)
    (hline : ¬ crlf <:+: headerText t) (hzero : (0 : UInt8) ∉ headerText t)
    (hs : s.request.currentState = .requestHeaders)
    (hc : s.input.content = headerText t ++ crlf ++ rest)
    (hslot : s.request.requestHeadersNumber < s.request.requestHeaders.length) :
    parseTurn s = .returned (.next (headerParsed s t)) := by
  rw [parseTurn_header hkey hline hzero hs hc, addHeader_of_lt _ _ hslot]
  rfl

/-- Without one it is stored outside the array. -/
lemma parseTurn_header_of_le {t : List UInt8 × List UInt8} (hkey : ¬ colonSpace <:+: t.1)
    (hline : ¬ crlf <:+: headerText t) (hzero : (0 : UInt8) ∉ headerText t)
    (hs : s.request.currentState = .requestHeaders)
    (hc : s.input.content = headerText t ++ crlf ++ rest)
    (hslot : s.request.requestHeaders.length ≤ s.request.requestHeadersNumber) :
    parseTurn s = .faulted .outOfBounds := by
  rw [parseTurn_header hkey hline hzero hs hc, addHeader_of_le _ _ hslot]
  rfl

/-- A line without `": "` ends the headers, and only two bytes of it are consumed. -/
lemma parseTurn_endLine {line : List UInt8} (hline : ¬ crlf <:+: line)
    (hcolon : ¬ colonSpace <:+: line) (hs : s.request.currentState = .requestHeaders)
    (hc : s.input.content = line ++ crlf ++ rest) :
    parseTurn s = .returned (.next (headersParsed s [])) := by
  have hfind := findCRLF_of_content hline hc
  have htake : s.input.content.take line.length = line := by
    rw [hc, List.append_assoc, List.take_left]
  unfold parseTurn
  rw [hs]
  simp only [parseHeader, hfind, htake, memmem_eq_none_iff.2 hcolon]
  rfl

lemma parseTurn_done (hs : s.request.currentState = .requestDone) :
    parseTurn s = .returned (.done s) := by
  unfold parseTurn
  rw [hs]

end Turns

/-! ## The whole loop -/

/-- The texts of headers, one after the other: each is found where it stands. -/
structure HeadersWellFormed (ts : List (List UInt8 × List UInt8)) : Prop where
  key : ∀ t ∈ ts, ¬ colonSpace <:+: t.1
  header : ∀ t ∈ ts, ¬ crlf <:+: headerText t
  header_ne_zero : ∀ t ∈ ts, (0 : UInt8) ∉ headerText t

lemma RequestText.WellFormed.headers {r : RequestText} (hr : r.WellFormed) :
    HeadersWellFormed r.headers :=
  ⟨hr.key, hr.header, hr.header_ne_zero⟩

lemma HeadersWellFormed.tail {t : List UInt8 × List UInt8} {ts : List (List UInt8 × List UInt8)}
    (h : HeadersWellFormed (t :: ts)) : HeadersWellFormed ts :=
  ⟨fun t' h' => h.key t' (List.mem_cons_of_mem t h'),
    fun t' h' => h.header t' (List.mem_cons_of_mem t h'),
    fun t' h' => h.header_ne_zero t' (List.mem_cons_of_mem t h')⟩

/-- The input with the lines of these headers and the empty line at its front. -/
structure AtHeaders (s : ParseState) (ts : List (List UInt8 × List UInt8)) (rest : List UInt8) :
    Prop where
  wf : s.input.Wf
  state : s.request.currentState = .requestHeaders
  wellFormed : HeadersWellFormed ts
  content : s.input.content = encodeHeaders ts ++ rest

section Headers

variable {s : ParseState} {t : List UInt8 × List UInt8} {ts : List (List UInt8 × List UInt8)}
  {rest : List UInt8}

lemma AtHeaders.content_cons (h : AtHeaders s (t :: ts) rest) :
    s.input.content = headerText t ++ crlf ++ (encodeHeaders ts ++ rest) := by
  rw [h.content, encodeHeaders_cons, List.append_assoc]

lemma AtHeaders.next (h : AtHeaders s (t :: ts) rest) : AtHeaders (headerParsed s t) ts rest := by
  obtain ⟨hwf, hcontent⟩ := h.wf.advance_line h.content_cons
  exact ⟨hwf, h.state, h.wellFormed.tail, hcontent⟩

lemma AtHeaders.turn (h : AtHeaders s (t :: ts) rest)
    (hslot : s.request.requestHeadersNumber < s.request.requestHeaders.length) :
    parseTurn s = .returned (.next (headerParsed s t)) :=
  parseTurn_header_of_lt (h.wellFormed.key t List.mem_cons_self)
    (h.wellFormed.header t List.mem_cons_self) (h.wellFormed.header_ne_zero t List.mem_cons_self)
    h.state h.content_cons hslot

lemma AtHeaders.overrun (h : AtHeaders s (t :: ts) rest)
    (hslot : s.request.requestHeaders.length ≤ s.request.requestHeadersNumber) :
    parseTurn s = .faulted .outOfBounds :=
  parseTurn_header_of_le (h.wellFormed.key t List.mem_cons_self)
    (h.wellFormed.header t List.mem_cons_self) (h.wellFormed.header_ne_zero t List.mem_cons_self)
    h.state h.content_cons hslot

lemma AtHeaders.parsed (h : AtHeaders s ts rest) :
    (headersParsed s ts).input.Wf ∧ (headersParsed s ts).input.content = rest :=
  h.wf.advance_append h.content

lemma parsedHeaders_state (ts : List (List UInt8 × List UInt8)) :
    ∀ (h : Heap) (q : HttpRequest), (parsedHeaders h q ts).currentState = .requestDone := by
  induction ts with
  | nil => exact fun _ _ => rfl
  | cons t ts ih => exact fun h q => ih _ _

/-- With slots for all headers, their lines and the empty line take one turn each, and the loop's
exit one more. -/
lemma loop_headers (ts : List (List UInt8 × List UInt8)) : ∀ {s : ParseState},
    AtHeaders s ts rest →
    s.request.requestHeadersNumber + ts.length ≤ s.request.requestHeaders.length →
    ∀ n, Outcome.loop parseTurn n s =
      if ts.length + 2 ≤ n then .returned (headersParsed s ts) else .running := by
  induction ts with
  | nil =>
    intro s h _ n
    have hdone : parseTurn (headersParsed s []) = .returned (.done (headersParsed s [])) :=
      parseTurn_done rfl
    have hend := parseTurn_endLine (show ¬ crlf <:+: [] by decide) (by decide) h.state h.content
    match n with
    | 0 => rfl
    | 1 => exact Outcome.loop_next hend 0
    | n + 2 =>
      rw [Outcome.loop_next hend, Outcome.loop_done hdone]
      exact (if_pos (by simp)).symm
  | cons t ts ih =>
    intro s h hslots n
    rw [List.length_cons] at hslots
    have hloop := ih h.next (by
      simp only [headerParsed, parsedHeader, withHeader_number, withHeader_length]
      omega)
    cases n with
    | zero => rfl
    | succ n =>
      rw [Outcome.loop_next (h.turn (by omega)), hloop n, headersParsed_cons]
      simp only [List.length_cons]
      split_ifs <;> first | rfl | omega

/-- With fewer slots one of the headers is stored outside the array. -/
lemma headers_neverReturn (ts : List (List UInt8 × List UInt8)) : ∀ {s : ParseState},
    AtHeaders s ts rest →
    s.request.requestHeadersNumber ≤ s.request.requestHeaders.length →
    s.request.requestHeaders.length < s.request.requestHeadersNumber + ts.length →
    Outcome.NeverReturns parseTurn s := by
  induction ts with
  | nil =>
    intro s _ hwithin hover
    simp only [List.length_nil] at hover
    omega
  | cons t ts ih =>
    intro s h hwithin hover
    rw [List.length_cons] at hover
    by_cases hslot : s.request.requestHeadersNumber < s.request.requestHeaders.length
    · refine Outcome.NeverReturns.of_next (h.turn hslot) (ih h.next ?_ ?_) <;>
        simp only [headerParsed, parsedHeader, withHeader_number, withHeader_length] <;> omega
    · exact Outcome.neverReturns_of_faulted (h.overrun (by omega))

end Headers

/-- The input with the text of a request at its front. -/
structure AtRequest (s : ParseState) (r : RequestText) (rest : List UInt8) : Prop where
  wf : s.input.Wf
  state : s.request.currentState = .requestStatus
  wellFormed : r.WellFormed
  content : s.input.content = r.encode ++ rest

section Requests

variable {s : ParseState} {r : RequestText} {rest : List UInt8}

lemma AtRequest.content_line (h : AtRequest s r rest) :
    s.input.content = r.line ++ crlf ++ (encodeHeaders r.headers ++ rest) := by
  rw [h.content, RequestText.encode, List.append_assoc]

lemma AtRequest.next (h : AtRequest s r rest) :
    AtHeaders (statusParsed s r) r.headers rest := by
  obtain ⟨hwf, hcontent⟩ := h.wf.advance_line h.content_line
  exact ⟨hwf, rfl, h.wellFormed.headers, hcontent⟩

lemma AtRequest.parsed (h : AtRequest s r rest) :
    (requestParsed s r).input.Wf ∧ (requestParsed s r).input.content = rest :=
  h.wf.advance_append h.content

/-- The parser on an input that has a whole request at its front. -/
lemma loop_encode (h : AtRequest s r rest) (hroom : RoomFor s r) (n : ℕ) :
    Outcome.loop parseTurn n s =
      if r.headers.length + 3 ≤ n then .returned (requestParsed s r) else .running := by
  have hturn := parseTurn_status h.wellFormed h.state hroom.copies h.content_line
  have hloop := loop_headers r.headers h.next hroom.slots
  cases n with
  | zero => rfl
  | succ n =>
    rw [Outcome.loop_next hturn, hloop n, requestParsed_eq]
    split_ifs <;> first | rfl | omega

/-- Without room for the request the parser does not come back. -/
lemma encode_neverReturns (h : AtRequest s r rest)
    (hwithin : s.request.requestHeadersNumber ≤ s.request.requestHeaders.length)
    (hroom : ¬ RoomFor s r) : Outcome.NeverReturns parseTurn s := by
  by_cases hfit : CopiesFit s.heap.spare s.heap.next
  · have hturn := parseTurn_status h.wellFormed h.state hfit h.content_line
    refine Outcome.NeverReturns.of_next hturn (headers_neverReturn r.headers h.next hwithin ?_)
    exact not_le.1 fun hslots => hroom ⟨hfit, hslots⟩
  · obtain ⟨e, he⟩ := parseTurn_of_not_fit h.wellFormed.line h.state hfit h.content_line
    exact Outcome.neverReturns_of_faulted he

/-- A part of the headers keeps the parser waiting, if there are slots for what is there. -/
lemma headers_neverReturn_of_lt (ts : List (List UInt8 × List UInt8)) : ∀ {s : ParseState},
    s.input.Wf → s.request.currentState = .requestHeaders → HeadersWellFormed ts →
    s.input.content <+: encodeHeaders ts →
    s.input.content.length < (encodeHeaders ts).length → Outcome.NeverReturns parseTurn s := by
  induction ts with
  | nil =>
    intro s _ hs _ hc hlt
    have hline : ¬ crlf <:+: ([] : List UInt8) := by decide
    have hpre : s.input.content <+: [] ++ crlf ++ [] := by simpa [encodeHeaders] using hc
    rcases prefix_line_cases hpre with hpre | ⟨later, heq, -⟩
    · exact (Outcome.diverges_of_next
        (parseTurn_waits (by simp [hs]) (findCRLF_eq_none hline hpre))).neverReturns
    · rw [heq] at hlt
      simp [encodeHeaders] at hlt
  | cons t ts ih =>
    intro s hwf hs hts hc hlt
    rw [encodeHeaders_cons] at hc hlt
    have hkey := hts.key t List.mem_cons_self
    have hline := hts.header t List.mem_cons_self
    have hzero := hts.header_ne_zero t List.mem_cons_self
    rcases prefix_line_cases hc with hpre | ⟨later, heq, hlater⟩
    · exact (Outcome.diverges_of_next
        (parseTurn_waits (by simp [hs]) (findCRLF_eq_none hline hpre))).neverReturns
    · obtain ⟨hwf', hc'⟩ := hwf.advance_line heq
      simp only [heq, List.length_append] at hlt
      by_cases hslot : s.request.requestHeadersNumber < s.request.requestHeaders.length
      · have hturn := parseTurn_header_of_lt hkey hline hzero hs heq hslot
        have hinput : (headerParsed s t).input.content = later := hc'
        refine Outcome.NeverReturns.of_next hturn (ih hwf' hs hts.tail ?_ ?_)
        · rw [hinput]
          exact hlater
        · rw [hinput]
          omega
      · exact Outcome.neverReturns_of_faulted
          (parseTurn_header_of_le hkey hline hzero hs heq (by omega))

/-- A part of a request does not bring the parser back. -/
lemma neverReturns_of_lt (hr : r.WellFormed) (hwf : s.input.Wf)
    (hs : s.request.currentState = .requestStatus) (hc : s.input.content <+: r.encode)
    (hlt : s.input.content.length < r.encode.length) : Outcome.NeverReturns parseTurn s := by
  rw [RequestText.encode] at hc hlt
  rcases prefix_line_cases hc with hpre | ⟨later, heq, hlater⟩
  · exact (Outcome.diverges_of_next
      (parseTurn_waits (by simp [hs]) (findCRLF_eq_none hr.line hpre))).neverReturns
  · by_cases hfit : CopiesFit s.heap.spare s.heap.next
    · obtain ⟨hwf', hc'⟩ := hwf.advance_line heq
      simp only [heq, List.length_append] at hlt
      have hinput : (statusParsed s r).input.content = later := hc'
      refine Outcome.NeverReturns.of_next (parseTurn_status hr hs hfit heq)
        (headers_neverReturn_of_lt r.headers hwf' rfl hr.headers ?_ ?_)
      · rw [hinput]
        exact hlater
      · rw [hinput]
        omega
    · obtain ⟨e, he⟩ := parseTurn_of_not_fit hr.line hs hfit heq
      exact Outcome.neverReturns_of_faulted he

end Requests

/-! ## What has been parsed -/

section Parsed

variable {h : Heap} {q : HttpRequest} {r : RequestText}

lemma parsedHeaders_number (ts : List (List UInt8 × List UInt8)) :
    ∀ (h : Heap) (q : HttpRequest), (parsedHeaders h q ts).requestHeadersNumber =
      q.requestHeadersNumber + ts.length := by
  induction ts with
  | nil => exact fun _ _ => rfl
  | cons t ts ih =>
    intro h q
    rw [parsedHeaders, ih, parsedHeader, withHeader_number, List.length_cons]
    omega

lemma parsedHeaders_length (ts : List (List UInt8 × List UInt8)) :
    ∀ (h : Heap) (q : HttpRequest), (parsedHeaders h q ts).requestHeaders.length =
      q.requestHeaders.length := by
  induction ts with
  | nil => exact fun _ _ => rfl
  | cons t ts ih =>
    intro h q
    rw [parsedHeaders, ih, parsedHeader, withHeader_length]

/-- The headers leave the strings of the request line alone. -/
lemma parsedHeaders_line (ts : List (List UInt8 × List UInt8)) :
    ∀ (h : Heap) (q : HttpRequest), (parsedHeaders h q ts).method = q.method ∧
      (parsedHeaders h q ts).url = q.url ∧ (parsedHeaders h q ts).version = q.version := by
  induction ts with
  | nil => exact fun _ _ => ⟨rfl, rfl, rfl⟩
  | cons t ts ih => exact fun h q => ih _ _

/-- The headers stand in the slots behind those that were there. -/
lemma parsedHeaders_headers (ts : List (List UInt8 × List UInt8)) :
    ∀ (h : Heap) (q : HttpRequest),
      q.requestHeadersNumber + ts.length ≤ q.requestHeaders.length →
      (parsedHeaders h q ts).headers = q.headers ++ (storedHeaders h ts).map some := by
  induction ts with
  | nil => exact fun _ _ _ => (List.append_nil _).symm
  | cons t ts ih =>
    intro h q hslots
    rw [List.length_cons] at hslots
    rw [parsedHeaders, ih _ _ (by
      simp only [parsedHeader, withHeader_number, withHeader_length]
      omega)]
    rw [parsedHeader, withHeader_headers _ _ (by omega), List.append_assoc]
    rfl

end Parsed

end Yolanda
