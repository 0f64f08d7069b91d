import CPYuZe.Yolanda.TcpConnection

/-!
# The HTTP server

The callbacks of `http_server.c` and the parser they run.  The parser is one loop over the
state of the request: each turn looks for a line end in the input and takes what stands before
it for the request line, for a header or for the end of the headers.  A turn that finds no line
end changes nothing, and the loop goes round again.

The strings of a request are copied into allocations of their own (`copyString`).  The copies of
the request line have their terminating zero stored one byte past what was asked for.  That is
inside the allocation only if it is larger than that (`CopiesFit`), and what ends the string is a
byte `malloc` has left there; the copies of a header are terminated inside.

`http_onMessage` parses, hands the request to the application, sends the response and closes
the connection if the request says so.  The parser answers 1 whenever it comes back, which
leaves the branch with the error response without a use.
-/

namespace Yolanda

/-! ## Parsing -/

def space : List UInt8 := [32]

def colonSpace : List UInt8 := [58, 32]

/-- `p = malloc(n + 1); strncpy(p, src, n); p[terminator] = '\0'`. -/
def copyString (h : Heap) (src : List UInt8) (n terminator : ℕ) : Call (Block × Heap) :=
  let (b, h) := h.malloc (n + 1)
  match (b.overwrite (strncpy src n)).store terminator 0 with
  | some b => .returned (b, h)
  | none => .faulted .outOfBounds

/-- `line` is the memory from `start` to `end`. -/
def processStatusLine (h : Heap) (line : List UInt8) (req : HttpRequest) :
    Call (ℕ × HttpRequest × Heap) :=
  let size := line.length
  match memmem space line with
  | none => .faulted .assertion
  | some methodSize => do
    let (method, h) ← copyString h line methodSize (methodSize + 1)
    let start := line.drop (methodSize + 1)
    match memmem space start with
    | none => .faulted .assertion
    | some urlSize => do
      let (url, h) ← copyString h start urlSize (urlSize + 1)
      let start := start.drop (urlSize + 1)
      let (version, h) ← copyString h start start.length (start.length + 1)
      pure (size,
        { req with method := some method, url := some url, version := some version }, h)

/-- What the parser works on. -/
structure ParseState where
  heap : Heap
  input : Buffer
  request : HttpRequest

/-- A turn of the loop that waits for the request line. -/
def parseStatus (s : ParseState) : Call ParseState :=
  match bufferFindCRLF s.input with
  | none => .returned s
  | some crlf => do
    let (size, req, h) ← processStatusLine s.heap (s.input.content.take crlf) s.request
    if size ≠ 0 then
      pure ⟨h, (s.input.advance size).advance 2, { req with currentState := .requestHeaders }⟩
    else pure ⟨h, s.input, req⟩

/-- A turn of the loop that waits for a header. -/
def parseHeader (s : ParseState) : Call ParseState :=
  match bufferFindCRLF s.input with
  | none => .returned s
  | some crlf =>
    let line := s.input.content.take crlf
    match memmem colonSpace line with
    | some colon => do
      let (key, h) ← copyString s.heap line colon colon
      let (value, h) ← copyString h (line.drop (colon + 2)) (crlf - colon - 2) (crlf - colon - 2)
      let req ← httpRequestAddHeader s.request key value
      pure ⟨h, (s.input.advance crlf).advance 2, req⟩
    | none =>
      .returned ⟨s.heap, s.input.advance 2, { s.request with currentState := .requestDone }⟩

/-- The loop's condition and body. -/
def parseTurn (s : ParseState) : Call (Outcome.Turn ParseState ParseState) :=
  match s.request.currentState with
  | .requestDone => .returned (.done s)
  | .requestStatus => do
    let s ← parseStatus s
    pure (.next s)
  | .requestHeaders => do
    let s ← parseHeader s
    pure (.next s)
  | .requestBody => .returned (.next s)

/-- The state the parser leaves, and `ok`. -/
def parseHttpRequest (fuel : ℕ) (s : ParseState) : Call (ParseState × ℕ) := do
  let s ← Outcome.loop parseTurn fuel s
  pure (s, 1)

/-! ## The callbacks -/

/-- What the outside answers in one call of `http_onMessage`. -/
structure MessageAnswers where
  fuel : ℕ
  byteDiff : ByteDiff
  /-- The byte in front of the text of the error response, and the answers its send gets. -/
  errorFront : UInt8
  errorAnswers : Answers
  /-- What the buffer for the response holds at first, and the byte in front of it. -/
  fresh : ℕ → UInt8
  outside : UInt8
  encodeRealloc : Realloc
  answers : Answers

/-- The text of the error response, cut to `sizeof` of the pointer to it. -/
def errorResponse : List UInt8 := (ascii "HTTP/1.1 400 Bad Request\r\n\r\n").take 8

/-- The second half of `http_onMessage`.  `allocated` is the number of allocations made before
the request was parsed. -/
def respond (m : MessageAnswers) (allocated : ℕ) (request : HttpRequest) (w : World) :
    Call World :=
  if request.currentState = .requestDone then
    match w.conn.data with
    | none => .faulted .nullPointer
    | some httpServer => do
      let (w, httpResponse) :=
        match httpServer.requestCallback with
        | some callback =>
          (w.emit (.request allocated request), callback request httpResponseNew)
        | none => (w, httpResponseNew)
      let buffer ← httpResponseEncodeBuffer m.encodeRealloc httpResponse (bufferNew m.fresh)
      let (w, _, _) ← tcpConnectionSendBuffer w m.outside buffer m.answers
      let closes ← httpRequestCloseConnection m.byteDiff request
      let w := if closes then tcpConnectionShutdown w else w
      pure { w with conn := { w.conn with request := some (httpRequestReset request) } }
  else .returned w

/-- The world with what the parser has left. -/
def World.afterParse (w : World) (s : ParseState) : World :=
  { w with
    conn := { w.conn with inputBuffer := s.input, request := some s.request }
    heap := s.heap }

def httpOnMessage (m : MessageAnswers) (w : World) : Call World :=
  match w.conn.request with
  | none => .faulted .nullPointer
  | some request => do
    let (s, ok) ← parseHttpRequest m.fuel ⟨w.heap, w.conn.inputBuffer, request⟩
    let allocated := w.heap.next
    let w := w.afterParse s
    let w ←
      if ok = 0 then do
        let (w, _) ← tcpConnectionSendData w m.errorFront errorResponse m.errorAnswers
        pure (tcpConnectionShutdown w)
      else pure w
    respond m allocated s.request w

def httpOnConnectionCompleted (c : TcpConnection) : TcpConnection :=
  { c with request := some httpRequestNew }

def httpOnConnectionClosed (w : World) : World :=
  { w with conn := { w.conn with request := none } }

/-- `handle_read` on a connection of the server, with the answers of one call. -/
def httpHandleRead (m : MessageAnswers) (r : Realloc) (result : ReadvResult) (w : World) :
    Call World :=
  handleRead (some (httpOnMessage m)) (some httpOnConnectionClosed) r result w

/-- A connection as `handle_connection_established` leaves it, with the server as its data. -/
def httpConnection (connectedFd : ℤ) (eventLoop self : ℕ) (fresh₁ fresh₂ : ℕ → UInt8)
    (heap : Heap) (httpServer : HttpServer) : World :=
  let w := tcpConnectionNew connectedFd eventLoop (some httpOnConnectionCompleted) self fresh₁
    fresh₂ heap
  { w with conn := { w.conn with data := some httpServer } }

/-! ## What the functions do -/

/-- The parser leaves its loop only with a request that is done. -/
lemma parseTurn_eq_done {s s' : ParseState} (h : parseTurn s = .returned (.done s')) :
    s' = s ∧ s.request.currentState = .requestDone := by
  unfold parseTurn at h
  cases hs : s.request.currentState <;> rw [hs] at h
  case requestDone =>
    cases h
    exact ⟨rfl, rfl⟩
  case requestStatus => cases hstatus : parseStatus s <;> simp [hstatus] at h
  case requestHeaders => cases hheader : parseHeader s <;> simp [hheader] at h
  all_goals cases h

/-- The parser comes back only with a request that is done. -/
lemma parse_done {fuel : ℕ} {s s' : ParseState}
    (h : Outcome.loop parseTurn fuel s = .returned s') :
    s'.request.currentState = .requestDone := by
  obtain ⟨s₁, -, hdone⟩ := Outcome.exists_reaches_of_loop h
  obtain ⟨rfl, hs⟩ := parseTurn_eq_done hdone
  exact hs

/-- The error branch is never taken. -/
lemma httpOnMessage_eq (m : MessageAnswers) {w : World} {request : HttpRequest}
    (h : w.conn.request = some request) :
    httpOnMessage m w =
      Outcome.loop parseTurn m.fuel ⟨w.heap, w.conn.inputBuffer, request⟩ >>= fun s =>
        respond m w.heap.next s.request (w.afterParse s) := by
  unfold httpOnMessage parseHttpRequest
  rw [h]
  dsimp only
  cases Outcome.loop parseTurn m.fuel ⟨w.heap, w.conn.inputBuffer, request⟩ <;> rfl

/-- The three allocations from the `n`-th on are larger than what was asked for. -/
def CopiesFit (spare : ℕ → ℕ) (n : ℕ) : Prop :=
  0 < spare n ∧ 0 < spare (n + 1) ∧ 0 < spare (n + 2)

instance (spare : ℕ → ℕ) (n : ℕ) : Decidable (CopiesFit spare n) :=
  inferInstanceAs (Decidable (_ ∧ _))

section Copies

variable (h : Heap) (src : List UInt8) (n : ℕ)

lemma length_overwrite_strncpy :
    ((h.malloc (n + 1)).1.overwrite (strncpy src n)).bytes.length = n + 1 + h.spare h.next := by
  simp only [Heap.malloc, Block.overwrite, List.length_append, length_strncpy, List.length_drop,
    List.length_map, List.length_range]
  omega

/-- A terminator inside the allocation is stored. -/
lemma copyString_of_lt {terminator : ℕ} (hin : terminator < n + 1 + h.spare h.next) :
    copyString h src n terminator =
      .returned (⟨((h.malloc (n + 1)).1.overwrite (strncpy src n)).bytes.set terminator 0⟩,
        h.skip 1) := by
  have hstore : ((h.malloc (n + 1)).1.overwrite (strncpy src n)).store terminator 0 =
      some ⟨((h.malloc (n + 1)).1.overwrite (strncpy src n)).bytes.set terminator 0⟩ := by
    rw [Block.store, if_pos]
    rwa [length_overwrite_strncpy]
  simp only [copyString, hstore]
  rfl

/-- A terminator one past what was asked for is outside the allocation if there is no more than
that. -/
lemma copyString_of_spare_eq_zero (hspare : h.spare h.next = 0) :
    copyString h src n (n + 1) = .faulted .outOfBounds := by
  have hstore : ((h.malloc (n + 1)).1.overwrite (strncpy src n)).store (n + 1) 0 = none := by
    rw [Block.store, if_neg]
    rw [length_overwrite_strncpy, hspare]
    exact lt_irrefl _
  simp only [copyString, hstore]

/-- A terminator one past what was asked for is stored exactly if there is more than that.  One
byte stands between the copy and the terminator. -/
lemma copyString_past_cases :
    (0 < h.spare h.next ∧ ∃ last rest, copyString h src n (n + 1) =
      .returned (⟨strncpy src n ++ last :: 0 :: rest⟩, h.skip 1)) ∨
      ¬ 0 < h.spare h.next ∧ copyString h src n (n + 1) = .faulted .outOfBounds := by
  by_cases hspare : 0 < h.spare h.next
  · left
    have hlen : (strncpy src n).length = n := length_strncpy src n
    obtain ⟨last, c, rest, hdrop⟩ : ∃ last c rest,
        (h.malloc (n + 1)).1.bytes.drop (strncpy src n).length = last :: c :: rest := by
      have hdropLen : ((h.malloc (n + 1)).1.bytes.drop (strncpy src n).length).length =
          h.spare h.next + 1 := by
        simp only [Heap.malloc, List.length_drop, List.length_map, List.length_range, hlen]
        omega
      obtain ⟨last, tail, hlast⟩ := List.exists_cons_of_length_eq_add_one hdropLen
      rw [hlast, List.length_cons, Nat.add_right_cancel_iff] at hdropLen
      obtain ⟨c, rest, rfl⟩ := List.exists_cons_of_length_pos (hdropLen.symm ▸ hspare)
      exact ⟨last, c, rest, hlast⟩
    refine ⟨hspare, last, rest, ?_⟩
    rw [copyString_of_lt h src n (by omega), Block.overwrite, hdrop,
      List.set_append_right _ _ (by omega), hlen, Nat.add_sub_cancel_left]
    rfl
  · exact .inr ⟨hspare, copyString_of_spare_eq_zero h src n (by omega)⟩

/-- A copy whose terminator is inside the allocation is terminated, whatever was copied. -/
lemma copyString_zero_mem :
    ∃ b, copyString h src n n = .returned (b, h.skip 1) ∧ 0 ∈ b.bytes := by
  refine ⟨_, copyString_of_lt h src n (by omega), ?_⟩
  apply List.mem_set
  rw [length_overwrite_strncpy]
  omega

/-- The copy before its terminator is stored. -/
lemma malloc_overwrite_strncpy (hn : n ≤ src.length) (hz : 0 ∉ src.take n) :
    ((h.malloc (n + 1)).1.overwrite (strncpy src n)).bytes =
      src.take n ++ h.fresh h.next n :: h.slack (n + 1) := by
  have hlen : (src.take n).length = n := List.length_take_of_le hn
  have hbytes := h.malloc_overwrite (src.take n)
  rw [hlen] at hbytes
  rw [strncpy_eq_take hn hz]
  exact hbytes

/-- A copy whose terminator is stored one past what was asked for ends in the byte `malloc` left
there. -/
lemma copyString_past (hn : n ≤ src.length) (hz : 0 ∉ src.take n) (hspare : 0 < h.spare h.next) :
    copyString h src n (n + 1) = .returned (h.copied (src.take n), h.skip 1) := by
  have hlen : (src.take n).length = n := List.length_take_of_le hn
  obtain ⟨c, rest, hslack⟩ : ∃ c rest, h.slack (n + 1) = c :: rest :=
    List.exists_cons_of_length_pos (by rwa [Heap.length_slack])
  rw [copyString_of_lt h src n (by omega), malloc_overwrite_strncpy h src n hn hz, Heap.copied,
    hlen, hslack, List.set_append_right _ _ (by omega), hlen, Nat.add_sub_cancel_left]
  rfl

/-- A copy whose terminator is inside what was asked for is the string. -/
lemma copyString_inside (hn : n ≤ src.length) (hz : 0 ∉ src.take n) :
    copyString h src n n = .returned (h.terminated (src.take n), h.skip 1) := by
  have hlen : (src.take n).length = n := List.length_take_of_le hn
  rw [copyString_of_lt h src n (by omega), malloc_overwrite_strncpy h src n hn hz,
    Heap.terminated, hlen, List.set_append_right _ _ (by omega), hlen, Nat.sub_self]
  rfl

end Copies

end Yolanda
