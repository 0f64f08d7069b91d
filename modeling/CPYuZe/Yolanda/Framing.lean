import CPYuZe.Yolanda.Application
import CPYuZe.Yolanda.RequestParsing

/-!
# Requests and the chunks they arrive in

A stream of well-formed requests is cut into chunks, one `handle_read` each.  What the
connection does with them is told by the requests it hands to the application and the data it
passes to the socket (`exchanges`): the stream is framed (`Framed`) when every chunk has been
taken and the requests of the stream have been handed over in order, each followed by its
response, each with the strings that were sent and as a connection of its own would have parsed
it.

The parser comes back from a chunk only when a request has ended in it, and it takes one request
a call.  So the stream is framed only if there are as many chunks as requests and each of them
ends the next request at least.  The other conditions of `framing_iff` are about the memory the
requests are copied to (the byte behind each copy of the request line, and that the terminator
past it is inside the allocation), about the room in the input buffer, the slots for the headers
and the `Connection` header that a request of version 1.0 is asked for, and about the socket, which
has to take each response at once.
-/

namespace Yolanda

/-! ## Deliveries -/

/-- A chunk and what the outside answers while it is taken.  The result of `readv` is an `int`. -/
structure Delivery where
  chunk : List UInt8
  chunk_ne_nil : chunk ≠ []
  chunk_lt : chunk.length < 2 ^ 31
  readRealloc : Realloc
  read_served : readRealloc.Succeeds
  message : ServedMessage

def deliver (fuel : ℕ) (w : World) (d : Delivery) : Call World :=
  httpHandleRead { d.message.toMessageAnswers with fuel := fuel } d.readRealloc (.ok d.chunk) w

/-! ## What is seen of a connection -/

def Event.isExchange : Event → Bool
  | .request _ _ | .passed _ => true
  | .add _ _ | .remove _ _ | .update _ | .accepted _ | .writeFailed _ | .queued _
  | .writeCompleted | .shutdownWr _ => false

/-- The requests handed to the application and the data passed to the socket. -/
def exchanges (trace : List Event) : List Event := trace.filter Event.isExchange

lemma exchanges_append (t t' : List Event) : exchanges (t ++ t') = exchanges t ++ exchanges t' :=
  List.filter_append t t'

/-- A request is handed over and its response is passed to the socket. -/
def Application.exchange (app : Application) (p : ℕ × HttpRequest) : List Event :=
  [.request p.1 p.2, .passed (app.response p.2)]

def readHeader : Option RequestHeader → Option (List UInt8 × List UInt8)
  | some header => do
    let key ← header.key.read
    let value ← header.value.read
    pure (key, value)
  | none => none

/-- The strings of the request are those of the text. -/
structure Represents (q : HttpRequest) (r : RequestText) : Prop where
  method : q.method.bind Block.read = some r.method
  url : q.url.bind Block.read = some r.url
  version : q.version.bind Block.read = some r.version
  headers : q.headers.map readHeader = r.headers.map some

/-- Requests that are the same but for the slots that belong to neither. -/
structure SameRequest (q q' : HttpRequest) : Prop where
  method : q.method = q'.method
  url : q.url = q'.url
  version : q.version = q'.version
  currentState : q.currentState = q'.currentState
  number : q.requestHeadersNumber = q'.requestHeadersNumber
  headers : q.headers = q'.headers

/-- A connection of its own that gets the same allocations parses the text to the same request. -/
def ParsedAlone (h : Heap) (p : ℕ × HttpRequest) (r : RequestText) : Prop :=
  ∀ input : Buffer, input.Wf → input.content = r.encode →
    ∃ fuel s, parseHttpRequest fuel ⟨{ h with next := p.1 }, input, httpRequestNew⟩ =
      .returned (s, 1) ∧ SameRequest s.request p.2

def Faithful (h : Heap) (p : ℕ × HttpRequest) (r : RequestText) : Prop :=
  Represents p.2 r ∧ ParsedAlone h p r

/-- All chunks are taken, and the connection has handed over the requests of the stream, in
order, each as it was sent and each with one response. -/
def Framed (app : Application) (w : World) (ds : List Delivery) (reqs : List RequestText) :
    Prop :=
  ∃ fuel w', Outcome.run (deliver fuel) w ds = .returned w' ∧
    ∃ served, exchanges w'.trace = exchanges w.trace ++ served.flatMap app.exchange ∧
      List.Forall₂ (Faithful w.heap) served reqs

/-! ## When a stream is framed -/

/-- A request takes three allocations, and two more for each header. -/
def RequestText.allocations (r : RequestText) : ℕ := 3 + 2 * r.headers.length

/-- The requests, each with the number of allocations made before it. -/
def numbered : ℕ → List RequestText → List (ℕ × RequestText)
  | _, [] => []
  | n, r :: reqs => (n, r) :: numbered (n + r.allocations) reqs

/-- The byte behind each copy of the request line is zero, if `n` allocations have been made
before. -/
def Terminated (fresh : ℕ → ℕ → UInt8) (n : ℕ) (r : RequestText) : Prop :=
  fresh n r.method.length = 0 ∧ fresh (n + 1) r.url.length = 0 ∧
    fresh (n + 2) r.version.length = 0

/-- A request of version 1.0 has a header for the connection. -/
def NamesConnection (r : RequestText) : Prop :=
  http10 <+: r.version → ∃ t ∈ r.headers, connectionKey <+: t.1

instance (r : RequestText) : Decidable (NamesConnection r) :=
  inferInstanceAs (Decidable (_ → _))

/-- What each text is stored as, if the parser starts with `q` and uses it again for every
request. -/
def stored (h : Heap) (q : HttpRequest) : List RequestText → List HttpRequest
  | [] => []
  | r :: reqs =>
    parsedRequest h q r ::
      stored (h.skip r.allocations) (httpRequestReset (parsedRequest h q r)) reqs

/-- Each chunk finds room in an input buffer of these sizes, from which the requests are consumed
one after the other. -/
def ReadsFit : BufferSizes → List Delivery → List RequestText → Prop
  | z, d :: ds, r :: reqs =>
    z.FitsRead d.chunk.length ∧
      ReadsFit ((z.read d.chunk.length).advance r.encode.length) ds reqs
  | _, _, _ => True

instance ReadsFit.decidable : (z : BufferSizes) → (ds : List Delivery) →
    (reqs : List RequestText) → Decidable (ReadsFit z ds reqs)
  | _, [], _ => inferInstanceAs (Decidable True)
  | _, _ :: _, [] => inferInstanceAs (Decidable True)
  | z, d :: ds, r :: reqs =>
    have := ReadsFit.decidable ((z.read d.chunk.length).advance r.encode.length) ds reqs
    inferInstanceAs (Decidable (_ ∧ _))

/-- The socket takes a whole response. -/
def TakesResponse (app : Application) (d : Delivery) (q : HttpRequest) : Prop :=
  ∃ n, d.message.answers.write = .wrote n ∧ (app.response q).length ≤ n

/-- The conditions on the chunks, on the memory, on the socket and on the requests, with `pending`
bytes of the first request already in an input buffer of the sizes `z`. -/
structure FramesFrom (app : Application) (h : Heap) (q : HttpRequest) (z : BufferSizes)
    (pending : ℕ) (ds : List Delivery) (reqs : List RequestText) : Prop where
  /-- There are as many chunks as requests. -/
  count : ds.length = reqs.length
  /-- The first `k` chunks hold the first `k` requests. -/
  whole : ∀ k, ((reqs.take k).flatMap RequestText.encode).length ≤
    pending + ((ds.take k).flatMap Delivery.chunk).length
  fits : ReadsFit z ds reqs
  copies : ∀ p ∈ numbered h.next reqs, CopiesFit h.spare p.1
  terminated : ∀ p ∈ numbered h.next reqs, Terminated h.fresh p.1 p.2
  slots : ∀ r ∈ reqs, r.headers.length ≤ requestHeadersCapacity
  connection : ∀ r ∈ reqs, NamesConnection r
  written : List.Forall₂ (TakesResponse app) ds (stored h q reqs)

/-- What it takes for a chunk that ends a request to be taken. -/
structure Serves (app : Application) (h : Heap) (q : HttpRequest) (z : BufferSizes)
    (d : Delivery) (r : RequestText) : Prop where
  fits : z.FitsRead d.chunk.length
  copies : CopiesFit h.spare h.next
  slots : r.headers.length ≤ requestHeadersCapacity
  written : TakesResponse app d (parsedRequest h q r)

section FramesFrom

variable {app : Application} {h : Heap} {q : HttpRequest} {z : BufferSizes} {pending : ℕ}
  {d : Delivery} {ds : List Delivery} {r : RequestText} {reqs : List RequestText}

lemma framesFrom_nil : FramesFrom app h q z pending [] reqs ↔ reqs = [] := by
  constructor
  · intro h
    exact List.eq_nil_of_length_eq_zero h.count.symm
  · rintro rfl
    exact ⟨rfl, by simp, trivial, by simp [numbered], by simp [numbered], by simp, by simp, .nil⟩

lemma framesFrom_cons (hle : r.encode.length ≤ pending + d.chunk.length) :
    FramesFrom app h q z pending (d :: ds) (r :: reqs) ↔
      (Serves app h q z d r ∧ Terminated h.fresh h.next r ∧ NamesConnection r) ∧
      FramesFrom app (h.skip r.allocations) (httpRequestReset (parsedRequest h q r))
        ((z.read d.chunk.length).advance r.encode.length)
        (pending + d.chunk.length - r.encode.length) ds reqs := by
  constructor
  · intro hframes
    obtain ⟨hfits, hfitss⟩ := hframes.fits
    obtain ⟨hcopy, hcopies⟩ := List.forall_mem_cons.1 hframes.copies
    obtain ⟨hterm, hterms⟩ := List.forall_mem_cons.1 hframes.terminated
    obtain ⟨hslot, hslots⟩ := List.forall_mem_cons.1 hframes.slots
    obtain ⟨hname, hnames⟩ := List.forall_mem_cons.1 hframes.connection
    obtain ⟨hwrite, hwrites⟩ := List.forall₂_cons.1 hframes.written
    refine ⟨⟨⟨hfits, hcopy, hslot, hwrite⟩, hterm, hname⟩,
      ⟨?_, fun k => ?_, hfitss, hcopies, hterms, hslots, hnames, hwrites⟩⟩
    · have hcount := hframes.count
      simp only [List.length_cons] at hcount
      omega
    · have hk := hframes.whole (k + 1)
      simp only [List.take_succ_cons, List.flatMap_cons, List.length_append] at hk
      omega
  · rintro ⟨⟨hserves, hterm, hname⟩, hframes⟩
    refine ⟨?_, fun k => ?_, ⟨hserves.fits, hframes.fits⟩,
      List.forall_mem_cons.2 ⟨hserves.copies, hframes.copies⟩,
      List.forall_mem_cons.2 ⟨hterm, hframes.terminated⟩,
      List.forall_mem_cons.2 ⟨hserves.slots, hframes.slots⟩,
      List.forall_mem_cons.2 ⟨hname, hframes.connection⟩, .cons hserves.written hframes.written⟩
    · simp only [List.length_cons, hframes.count]
    · cases k with
      | zero => simp
      | succ k =>
        have hk := hframes.whole k
        simp only [List.take_succ_cons, List.flatMap_cons, List.length_append]
        omega

end FramesFrom

/-! ## Parsed requests -/

/-- A request with nothing in it yet. -/
structure Blank (q : HttpRequest) : Prop where
  currentState : q.currentState = .requestStatus
  number : q.requestHeadersNumber = 0
  capacity : q.requestHeaders.length = requestHeadersCapacity

lemma httpRequestNew_blank : Blank httpRequestNew := ⟨rfl, rfl, List.length_replicate⟩

section ParsedRequests

variable {h : Heap} {q q' : HttpRequest} {r : RequestText}

lemma parsedRequest_state (h : Heap) (q : HttpRequest) (r : RequestText) :
    (parsedRequest h q r).currentState = .requestDone :=
  parsedHeaders_state _ _ _

lemma parsedRequest_line (h : Heap) (q : HttpRequest) (r : RequestText) :
    (parsedRequest h q r).method = some (h.copied r.method) ∧
      (parsedRequest h q r).url = some ((h.skip 1).copied r.url) ∧
      (parsedRequest h q r).version = some ((h.skip 2).copied r.version) :=
  parsedHeaders_line _ _ _

lemma parsedRequest_number (hq : Blank q) :
    (parsedRequest h q r).requestHeadersNumber = r.headers.length := by
  rw [parsedRequest, parsedHeaders_number]
  show q.requestHeadersNumber + r.headers.length = r.headers.length
  rw [hq.number, Nat.zero_add]

lemma parsedRequest_capacity (hq : Blank q) :
    (parsedRequest h q r).requestHeaders.length = requestHeadersCapacity :=
  (parsedHeaders_length _ _ _).trans hq.capacity

lemma parsedRequest_headers (hq : Blank q) (hslots : r.headers.length ≤ requestHeadersCapacity) :
    (parsedRequest h q r).headers = (storedHeaders (h.skip 3) r.headers).map some := by
  have hnumber : (parsedLine h q r).requestHeadersNumber = 0 := hq.number
  have hcapacity : (parsedLine h q r).requestHeaders.length = requestHeadersCapacity := hq.capacity
  have hnone : (parsedLine h q r).headers = [] := by rw [HttpRequest.headers, hnumber]; rfl
  rw [parsedRequest, parsedHeaders_headers _ _ _ (by omega), hnone, List.nil_append]

/-- The reset between two requests leaves nothing behind. -/
lemma blank_reset (hq : Blank q) : Blank (httpRequestReset (parsedRequest h q r)) :=
  ⟨rfl, rfl, parsedRequest_capacity hq⟩

/-- What is parsed does not depend on what the slots held before. -/
lemma parsedRequest_same (hq : Blank q) (hq' : Blank q')
    (hslots : r.headers.length ≤ requestHeadersCapacity) :
    SameRequest (parsedRequest h q r) (parsedRequest h q' r) := by
  obtain ⟨hm, hu, hv⟩ := parsedRequest_line h q r
  obtain ⟨hm', hu', hv'⟩ := parsedRequest_line h q' r
  refine ⟨hm.trans hm'.symm, hu.trans hu'.symm, hv.trans hv'.symm, ?_, ?_, ?_⟩
  · rw [parsedRequest_state, parsedRequest_state]
  · rw [parsedRequest_number hq, parsedRequest_number hq']
  · rw [parsedRequest_headers hq hslots, parsedRequest_headers hq' hslots]

lemma Blank.roomFor_iff (hq : Blank q) {input : Buffer} :
    RoomFor ⟨h, input, q⟩ r ↔
      CopiesFit h.spare h.next ∧ r.headers.length ≤ requestHeadersCapacity := by
  have hslots : q.requestHeadersNumber + r.headers.length ≤ q.requestHeaders.length ↔
      r.headers.length ≤ requestHeadersCapacity := by
    rw [hq.number, hq.capacity, Nat.zero_add]
  exact ⟨fun hroom => ⟨hroom.copies, hslots.1 hroom.slots⟩,
    fun hroom => ⟨hroom.1, hslots.2 hroom.2⟩⟩

lemma parsedRequest_alone (hr : r.WellFormed) (hq : Blank q) (hcopies : CopiesFit h.spare h.next)
    (hslots : r.headers.length ≤ requestHeadersCapacity) :
    ParsedAlone h (h.next, parsedRequest h q r) r := by
  intro input hwf hcontent
  have hat : AtRequest ⟨h, input, httpRequestNew⟩ r [] :=
    ⟨hwf, rfl, hr, by rw [hcontent, List.append_nil]⟩
  have hroom : RoomFor ⟨h, input, httpRequestNew⟩ r :=
    httpRequestNew_blank.roomFor_iff.2 ⟨hcopies, hslots⟩
  refine ⟨r.headers.length + 3, requestParsed ⟨h, input, httpRequestNew⟩ r, ?_,
    parsedRequest_same httpRequestNew_blank hq hslots⟩
  show parseHttpRequest _ ⟨h, input, httpRequestNew⟩ = _
  rw [parseHttpRequest, loop_encode hat hroom, if_pos le_rfl]
  rfl

lemma map_readHeader (ts : List (List UInt8 × List UInt8)) :
    ∀ h : Heap, (∀ t ∈ ts, (0 : UInt8) ∉ headerText t) →
      ((storedHeaders h ts).map some).map readHeader = ts.map some := by
  induction ts with
  | nil => exact fun _ _ => rfl
  | cons t ts ih =>
    intro h hts
    obtain ⟨hzero, hzeroes⟩ := List.forall_mem_cons.1 hts
    simp only [headerText, List.mem_append, not_or] at hzero
    rw [storedHeaders, List.map_cons, List.map_cons, ih _ hzeroes]
    simp [readHeader, Heap.read_terminated _ hzero.1.1, Heap.read_terminated _ hzero.2]

/-- A parsed request has the strings that were sent exactly when the copies of the request line
happen to be terminated. -/
lemma represents_iff (hr : r.WellFormed) (hq : Blank q)
    (hslots : r.headers.length ≤ requestHeadersCapacity) :
    Represents (parsedRequest h q r) r ↔ Terminated h.fresh h.next r := by
  have hzero := hr.line_ne_zero
  simp only [RequestText.line, List.mem_append, not_or] at hzero
  obtain ⟨⟨hmethod, -⟩, ⟨hurl, -⟩, hversion⟩ := hzero
  obtain ⟨hm, hu, hv⟩ := parsedRequest_line h q r
  have hmread := Heap.read_copied h hmethod
  have huread := Heap.read_copied (h.skip 1) hurl
  have hvread := Heap.read_copied (h.skip 2) hversion
  constructor
  · intro hrep
    refine ⟨hmread.1 ?_, huread.1 ?_, hvread.1 ?_⟩
    · rw [← hrep.method, hm, Option.bind_some]
    · rw [← hrep.url, hu, Option.bind_some]
    · rw [← hrep.version, hv, Option.bind_some]
  · rintro ⟨hmzero, huzero, hvzero⟩
    refine ⟨?_, ?_, ?_, ?_⟩
    · rw [hm, Option.bind_some, hmread.2 hmzero]
    · rw [hu, Option.bind_some, huread.2 huzero]
    · rw [hv, Option.bind_some, hvread.2 hvzero]
    · rw [parsedRequest_headers hq hslots]
      exact map_readHeader _ _ hr.header_ne_zero

/-- What the parser stores. -/
lemma parsedRequest_stored (hq : Blank q) (hslots : r.headers.length ≤ requestHeadersCapacity) :
    Stored (parsedRequest h q r) r.version (h.fresh (h.next + 2) r.version.length)
      (storedHeaders (h.skip 3) r.headers) where
  version := ⟨_, (parsedRequest_line h q r).2.2⟩
  headers := parsedRequest_headers hq hslots
  number := by rw [parsedRequest_number hq, length_storedHeaders]
  key := fun header hmem => (storedHeaders_zero_mem _ _ header hmem).1
  value := fun header hmem => (storedHeaders_zero_mem _ _ header hmem).2

/-- The decision to close goes wrong exactly when a header for the connection is missing. -/
lemma closes_iff (hr : r.WellFormed) (hq : Blank q)
    (hslots : r.headers.length ≤ requestHeadersCapacity) (hterm : Terminated h.fresh h.next r)
    (d : ByteDiff) :
    (∃ closes, httpRequestCloseConnection d (parsedRequest h q r) = .returned closes) ↔
      NamesConnection r := by
  have hlooks : LooksLikeHttp10 r.version (h.fresh (h.next + 2) r.version.length) ↔
      http10 <+: r.version := by
    rw [hterm.2.2]
    exact prefix_append_zero_iff (by decide) []
  have hzero : ∀ t ∈ r.headers, 0 ∉ t.1 ∧ 0 ∉ t.2 := by
    intro t ht
    have hts := hr.header_ne_zero t ht
    simp only [headerText, List.mem_append, not_or] at hts
    exact ⟨hts.1.1, hts.2⟩
  rw [(parsedRequest_stored hq hslots).closeConnection_returns_iff, hlooks,
    exists_storedHeaders_iff hzero]
  rfl

end ParsedRequests

/-! ## One chunk -/

/-- A connection of the server between two requests, the next of which will be stored in `q`. -/
structure Ready (app : Application) (w : World) (q : HttpRequest) : Prop where
  input : w.conn.inputBuffer.Wf
  total : w.conn.inputBuffer.totalSize < 2 ^ 31
  output : Unqueued w
  data : w.conn.data = some app.server
  request : w.conn.request = some q
  blank : Blank q

/-- The bytes that have arrived and have not been parsed. -/
def World.pending (w : World) : List UInt8 := w.conn.inputBuffer.content

lemma httpConnection_ready (connectedFd : ℤ) (eventLoop self : ℕ) (fresh₁ fresh₂ : ℕ → UInt8)
    (heap : Heap) (app : Application) :
    Ready app (httpConnection connectedFd eventLoop self fresh₁ fresh₂ heap app.server)
      httpRequestNew where
  input := bufferNew_wf fresh₁
  total := bufferNew_total_lt fresh₁
  output := httpConnection_unqueued connectedFd eventLoop self fresh₁ fresh₂ heap app.server
  data := rfl
  request := rfl
  blank := httpRequestNew_blank

/-- The world after a request has been parsed from `input` and answered. -/
def World.served (w : World) (app : Application) (input : Buffer) (q : HttpRequest)
    (r : RequestText) (closes : Bool) : World :=
  let s := requestParsed ⟨w.heap, input, q⟩ r
  answered (((w.afterParse s).emit (.request w.heap.next s.request)).sent
    (app.response s.request)) s.request closes

section Chunk

variable {app : Application} {w w' : World} {q : HttpRequest} {d : Delivery} {fuel : ℕ}
  {r : RequestText} {rest : List UInt8}

/-- A chunk for which there is room goes behind the bytes that are there, and the parser is run on
them. -/
lemma deliver_eq (h : Ready app w q) (d : Delivery) (fuel : ℕ)
    (hfits : w.conn.inputBuffer.sizes.FitsRead d.chunk.length) :
    ∃ input, Appended w.conn.inputBuffer input d.chunk ∧
      input.sizes = w.conn.inputBuffer.sizes.read d.chunk.length ∧
      deliver fuel w d =
        Outcome.loop parseTurn fuel ⟨w.heap, input, q⟩ >>= fun s =>
          respond { d.message.toMessageAnswers with fuel := fuel } w.heap.next s.request
            (w.afterParse s) := by
  have hcan : CanRead d.readRealloc w.conn.inputBuffer d.chunk :=
    (d.read_served.canRead_iff h.total d.chunk_lt).2 hfits
  obtain ⟨input, hread, happ⟩ := bufferSocketRead_returns h.input hcan
  have hpos : (d.chunk.length : ℤ) > 0 := by
    have := List.length_pos_iff.2 d.chunk_ne_nil
    omega
  refine ⟨input, happ, bufferSocketRead_sizes h.input hcan hread, ?_⟩
  have hmessage := httpOnMessage_eq { d.message.toMessageAnswers with fuel := fuel }
    (w := w.setInput input) h.request
  simp only [deliver, httpHandleRead, handleRead, hread, Outcome.returned_bind, if_pos hpos]
  exact hmessage

/-- A chunk for which there is no room is stored past the input buffer. -/
lemma deliver_fits (h : Ready app w q) (hreturned : deliver fuel w d = .returned w') :
    w.conn.inputBuffer.sizes.FitsRead d.chunk.length := by
  by_contra hfits
  have hcan : ¬ CanRead d.readRealloc w.conn.inputBuffer d.chunk :=
    fun hcan => hfits ((d.read_served.canRead_iff h.total d.chunk_lt).1 hcan)
  simp [deliver, httpHandleRead, handleRead, bufferSocketRead_faults h.input hcan] at hreturned

/-- With a part of a request the call does not come back. -/
lemma deliver_ne_returned_of_lt (h : Ready app w q) (hr : r.WellFormed)
    (hpre : w.pending ++ d.chunk <+: r.encode)
    (hlt : (w.pending ++ d.chunk).length < r.encode.length) :
    deliver fuel w d ≠ .returned w' := by
  intro hreturned
  obtain ⟨input, happ, -, heq⟩ := deliver_eq h d fuel (deliver_fits h hreturned)
  have hcontent : input.content = w.pending ++ d.chunk := happ.content_eq
  have hnever := neverReturns_of_lt (s := ⟨w.heap, input, q⟩) hr happ.wf h.blank.currentState
    (by rw [hcontent]; exact hpre) (by rw [hcontent]; exact hlt)
  rw [heq] at hreturned
  obtain ⟨s, hloop, -⟩ := Outcome.bind_eq_returned.1 hreturned
  exact hnever _ _ hloop

/-- With a whole request the call comes back exactly if there is room for what is read and for the
request, the socket takes the response, and it can be decided whether to close. -/
lemma deliver_returned_iff (fuel : ℕ) (h : Ready app w q) (hr : r.WellFormed)
    (hbytes : w.pending ++ d.chunk = r.encode ++ rest) :
    ∃ input,
      (w.conn.inputBuffer.sizes.FitsRead d.chunk.length →
        Appended w.conn.inputBuffer input d.chunk ∧
          input.sizes = w.conn.inputBuffer.sizes.read d.chunk.length) ∧
      ∀ w', deliver fuel w d = .returned w' ↔
        r.headers.length + 3 ≤ fuel ∧ Serves app w.heap q w.conn.inputBuffer.sizes d r ∧
        ∃ closes, httpRequestCloseConnection d.message.byteDiff (parsedRequest w.heap q r) =
          .returned closes ∧ w' = w.served app input q r closes := by
  by_cases hfits : w.conn.inputBuffer.sizes.FitsRead d.chunk.length
  swap
  · exact ⟨w.conn.inputBuffer, fun hyes => absurd hyes hfits, fun w' =>
      iff_of_false (fun hreturned => hfits (deliver_fits h hreturned)) fun hall =>
        hfits hall.2.1.fits⟩
  obtain ⟨input, happ, hsizes, heq⟩ := deliver_eq h d fuel hfits
  refine ⟨input, fun _ => ⟨happ, hsizes⟩, fun w' => ?_⟩
  have hat : AtRequest ⟨w.heap, input, q⟩ r rest :=
    ⟨happ.wf, h.blank.currentState, hr, happ.content_eq.trans hbytes⟩
  have hroom : RoomFor ⟨w.heap, input, q⟩ r ↔
      CopiesFit w.heap.spare w.heap.next ∧ r.headers.length ≤ requestHeadersCapacity :=
    h.blank.roomFor_iff
  rw [heq]
  by_cases hcan : RoomFor ⟨w.heap, input, q⟩ r
  swap
  · have hwithin : q.requestHeadersNumber ≤ q.requestHeaders.length := by
      rw [h.blank.number]
      exact Nat.zero_le _
    have hnever := encode_neverReturns hat hwithin hcan
    refine iff_of_false (fun hreturned => ?_) fun hall => hcan (hroom.2 ?_)
    · obtain ⟨s, hloop, -⟩ := Outcome.bind_eq_returned.1 hreturned
      exact hnever _ _ hloop
    · exact ⟨hall.2.1.copies, hall.2.1.slots⟩
  obtain ⟨hcopies, hslots⟩ := hroom.1 hcan
  have hrespond := respond_returned_iff { d.message with fuel := fuel }
    (q := parsedRequest w.heap q r)
    (w := w.afterParse (requestParsed ⟨w.heap, input, q⟩ r)) w.heap.next
    (h.output.of_conn rfl rfl) (parsedRequest_state _ _ _) h.data w'
  rw [loop_encode hat hcan]
  by_cases hfuel : r.headers.length + 3 ≤ fuel
  · rw [if_pos hfuel, Outcome.returned_bind]
    refine hrespond.trans ⟨?_, ?_⟩
    · rintro ⟨hwrite, hcloses⟩
      exact ⟨hfuel, ⟨hfits, hcopies, hslots, hwrite⟩, hcloses⟩
    · rintro ⟨-, hserves, hcloses⟩
      exact ⟨hserves.written, hcloses⟩
  · rw [if_neg hfuel]
    exact iff_of_false (fun hreturned => nomatch hreturned) fun hall => hfuel hall.1

/-- A connection that has answered a request is ready for the next. -/
lemma served_ready (closes : Bool) (h : Ready app w q) (hr : r.WellFormed) {input : Buffer}
    (happ : Appended w.conn.inputBuffer input d.chunk)
    (hsizes : input.sizes = w.conn.inputBuffer.sizes.read d.chunk.length)
    (hfits : w.conn.inputBuffer.sizes.FitsRead d.chunk.length)
    (hbytes : w.pending ++ d.chunk = r.encode ++ rest) :
    Ready app (w.served app input q r closes) (httpRequestReset (parsedRequest w.heap q r)) ∧
      (w.served app input q r closes).pending = rest := by
  have hat : AtRequest ⟨w.heap, input, q⟩ r rest :=
    ⟨happ.wf, h.blank.currentState, hr, happ.content_eq.trans hbytes⟩
  have htotal : input.totalSize < 2 ^ 31 := by
    have hread := hfits.read_total_lt h.total
    rw [← hsizes] at hread
    exact hread
  cases closes with
  | false =>
    exact ⟨⟨hat.parsed.1, htotal, h.output.of_conn rfl rfl, h.data, rfl, blank_reset h.blank⟩,
      hat.parsed.2⟩
  | true =>
    exact ⟨⟨hat.parsed.1, htotal, h.output.of_conn rfl rfl, h.data, rfl, blank_reset h.blank⟩,
      hat.parsed.2⟩

lemma served_exchanges (input : Buffer) (closes : Bool) :
    exchanges (w.served app input q r closes).trace =
      exchanges w.trace ++ app.exchange (w.heap.next, parsedRequest w.heap q r) := by
  have hopen : exchanges ((((w.afterParse (requestParsed ⟨w.heap, input, q⟩ r)).emit
      (.request w.heap.next (parsedRequest w.heap q r))).sent
        (app.response (parsedRequest w.heap q r))).trace) =
      exchanges w.trace ++ app.exchange (w.heap.next, parsedRequest w.heap q r) := by
    rw [World.sent_trace, World.emit_trace, exchanges_append, exchanges_append, exchanges_append,
      List.append_assoc, List.append_assoc]
    rfl
  cases closes with
  | false => exact hopen
  | true =>
    exact (exchanges_append _ [.shutdownWr _]).trans ((List.append_nil _).trans hopen)

lemma served_heap (input : Buffer) (closes : Bool) :
    (w.served app input q r closes).heap = w.heap.skip r.allocations := by
  cases closes <;> rfl

lemma served_sizes (input : Buffer) (closes : Bool) :
    (w.served app input q r closes).conn.inputBuffer.sizes =
      input.sizes.advance r.encode.length := by
  cases closes <;> rfl

end Chunk

/-! ## All chunks -/

/-- Two ways to cut the same bytes: the first part of one ends inside the first part of the
other, or it holds it. -/
lemma append_cases {α : Type*} {xs ys zs ws : List α} (h : xs ++ ys = zs ++ ws) :
    (xs <+: zs ∧ xs.length < zs.length) ∨ ∃ rest, xs = zs ++ rest ∧ rest ++ ys = ws := by
  rcases List.append_eq_append_iff.1 h with ⟨as, hzs, hys⟩ | ⟨bs, hxs, hws⟩
  · by_cases has : as = []
    · refine .inr ⟨[], ?_, ?_⟩
      · rw [hzs, has, List.append_nil, List.append_nil]
      · rw [hys, has, List.nil_append, List.nil_append]
    · refine .inl ⟨⟨as, hzs.symm⟩, ?_⟩
      have hpos := List.length_pos_iff.2 has
      rw [hzs, List.length_append]
      omega
  · exact .inr ⟨bs, hxs, hws.symm⟩

lemma encode_ne_nil (r : RequestText) : r.encode ≠ [] := by
  simp [RequestText.encode, crlf]

section Stream

variable {app : Application} {fuel : ℕ}

/-- The bytes that are there, the chunks to come, and the requests they make up. -/
structure Streams (app : Application) (w : World) (q : HttpRequest) (ds : List Delivery)
    (reqs : List RequestText) : Prop where
  ready : Ready app w q
  wellFormed : ∀ r ∈ reqs, r.WellFormed
  bytes : w.pending ++ ds.flatMap Delivery.chunk = reqs.flatMap RequestText.encode

lemma Streams.ne_nil {w : World} {q : HttpRequest} {d : Delivery} {ds : List Delivery}
    {reqs : List RequestText} (h : Streams app w q (d :: ds) reqs) : reqs ≠ [] := by
  rintro rfl
  have hnil := h.bytes
  simp [d.chunk_ne_nil] at hnil

/-- What has become of a stream whose first chunk has ended its first request. -/
structure Progress (app : Application) (w : World) (q : HttpRequest) (d : Delivery)
    (ds : List Delivery) (r : RequestText) (reqs : List RequestText) (w' : World) : Prop where
  streams : Streams app w' (httpRequestReset (parsedRequest w.heap q r)) ds reqs
  pending : w'.pending.length = w.pending.length + d.chunk.length - r.encode.length
  heap : w'.heap = w.heap.skip r.allocations
  sizes : w'.conn.inputBuffer.sizes =
    (w.conn.inputBuffer.sizes.read d.chunk.length).advance r.encode.length
  seen : exchanges w'.trace =
    exchanges w.trace ++ app.exchange (w.heap.next, parsedRequest w.heap q r)

/-- What a chunk is to the stream: it leaves its first request unfinished, and then the call does
not come back, or it ends it. -/
lemma Streams.cons_cases {w : World} {q : HttpRequest} {d : Delivery} {ds : List Delivery}
    {r : RequestText} {reqs : List RequestText} (h : Streams app w q (d :: ds) (r :: reqs))
    (fuel : ℕ) :
    w.pending.length + d.chunk.length < r.encode.length ∧
      (∀ w', deliver fuel w d ≠ .returned w') ∨
    r.encode.length ≤ w.pending.length + d.chunk.length ∧
      (∀ w', deliver fuel w d = .returned w' → Progress app w q d ds r reqs w') ∧
      ((∃ w', deliver fuel w d = .returned w') ↔
        r.headers.length + 3 ≤ fuel ∧ Serves app w.heap q w.conn.inputBuffer.sizes d r ∧
        ∃ closes, httpRequestCloseConnection d.message.byteDiff (parsedRequest w.heap q r) =
          .returned closes) := by
  have hr := h.wellFormed r List.mem_cons_self
  have hbytes := h.bytes
  rw [List.flatMap_cons, List.flatMap_cons, ← List.append_assoc] at hbytes
  rcases append_cases hbytes with ⟨hpre, hlt⟩ | ⟨rest, hfront, hrest⟩
  · left
    refine ⟨?_, fun w' => deliver_ne_returned_of_lt h.ready hr hpre hlt⟩
    rw [← List.length_append]
    exact hlt
  · right
    have hlen := congrArg List.length hfront
    simp only [List.length_append] at hlen
    obtain ⟨input, hinput, hiff⟩ := deliver_returned_iff fuel h.ready hr hfront
    refine ⟨by omega, fun w' hreturned => ?_, ?_⟩
    · obtain ⟨-, hserves, closes, -, rfl⟩ := (hiff w').1 hreturned
      obtain ⟨happ, hsizes⟩ := hinput hserves.fits
      obtain ⟨hready, hpending⟩ := served_ready closes h.ready hr happ hsizes hserves.fits hfront
      refine ⟨⟨hready, fun r' hr' => h.wellFormed r' (List.mem_cons_of_mem r hr'), ?_⟩, ?_,
        served_heap _ _, ?_, served_exchanges _ _⟩
      · rw [hpending]
        exact hrest
      · rw [hpending]
        omega
      · rw [served_sizes, hsizes]
    · constructor
      · rintro ⟨w', hreturned⟩
        obtain ⟨hfuel, hserves, closes, hcloses, -⟩ := (hiff w').1 hreturned
        exact ⟨hfuel, hserves, closes, hcloses⟩
      · rintro ⟨hfuel, hserves, closes, hcloses⟩
        exact ⟨_, (hiff _).2 ⟨hfuel, hserves, closes, hcloses, rfl⟩⟩

/-- Whatever the chunks are, what is seen of the connection is a list of answered requests. -/
lemma run_seen {ds : List Delivery} : ∀ {w w' : World} {q : HttpRequest}
    {reqs : List RequestText}, Streams app w q ds reqs →
      Outcome.run (deliver fuel) w ds = .returned w' →
      ∃ served : List (ℕ × HttpRequest),
        exchanges w'.trace = exchanges w.trace ++ served.flatMap app.exchange := by
  induction ds with
  | nil =>
    intro w w' q reqs _ hrun
    cases hrun
    exact ⟨[], by simp⟩
  | cons d ds ih =>
    intro w w' q reqs h hrun
    obtain ⟨r, reqs, rfl⟩ := List.exists_cons_of_ne_nil h.ne_nil
    obtain ⟨w₁, hstep, hrest⟩ := Outcome.run_cons_eq_returned.1 hrun
    rcases h.cons_cases fuel with ⟨-, hnever⟩ | ⟨-, hprogress, -⟩
    · exact absurd hstep (hnever w₁)
    · have hone := hprogress w₁ hstep
      obtain ⟨served, hserved⟩ := ih hone.streams hrest
      refine ⟨(w.heap.next, parsedRequest w.heap q r) :: served, ?_⟩
      rw [hserved, hone.seen, List.flatMap_cons, List.append_assoc]

/-- The exchange that comes first belongs to the request that was served first. -/
lemma exchange_cancel {p : ℕ × HttpRequest} {served served' : List (ℕ × HttpRequest)}
    (h : served.flatMap app.exchange = app.exchange p ++ served'.flatMap app.exchange) :
    ∃ tail, served = p :: tail ∧ tail.flatMap app.exchange = served'.flatMap app.exchange := by
  cases served with
  | nil => simp [Application.exchange] at h
  | cons p' tail =>
    simp only [List.flatMap_cons, Application.exchange, List.cons_append, List.nil_append,
      List.cons.injEq, Event.request.injEq] at h
    obtain ⟨⟨hfst, hsnd⟩, -, htail⟩ := h
    exact ⟨tail, by rw [Prod.ext hfst hsnd], htail⟩

/-- Once its first request has been served, a stream is answered as it should be if that request
is and the rest of the stream is. -/
lemma Progress.answered_iff {w w₁ : World} {q : HttpRequest} {d : Delivery} {ds : List Delivery}
    {r : RequestText} {reqs : List RequestText} (h : Progress app w q d ds r reqs w₁)
    (hstep : deliver fuel w d = .returned w₁) :
    (∃ w', Outcome.run (deliver fuel) w (d :: ds) = .returned w' ∧
      ∃ served, exchanges w'.trace = exchanges w.trace ++ served.flatMap app.exchange ∧
        List.Forall₂ (Faithful w.heap) served (r :: reqs)) ↔
      Faithful w.heap (w.heap.next, parsedRequest w.heap q r) r ∧
      ∃ w', Outcome.run (deliver fuel) w₁ ds = .returned w' ∧
        ∃ served, exchanges w'.trace = exchanges w₁.trace ++ served.flatMap app.exchange ∧
          List.Forall₂ (Faithful w.heap) served reqs := by
  rw [Outcome.run_cons_returned hstep]
  constructor
  · rintro ⟨w', hrun, served, hseen, hall⟩
    obtain ⟨later, hlater⟩ := run_seen h.streams hrun
    -- the request handed over first is the one that was parsed from the first text
    have hcancel : served.flatMap app.exchange =
        app.exchange (w.heap.next, parsedRequest w.heap q r) ++ later.flatMap app.exchange := by
      rw [hlater, h.seen, List.append_assoc] at hseen
      exact (List.append_cancel_left hseen).symm
    obtain ⟨tail, rfl, htail⟩ := exchange_cancel hcancel
    obtain ⟨hfaithful, hfaithfuls⟩ := List.forall₂_cons.1 hall
    exact ⟨hfaithful, w', hrun, tail, by rw [hlater, htail], hfaithfuls⟩
  · rintro ⟨hfaithful, w', hrun, served, hseen, hall⟩
    refine ⟨w', hrun, (w.heap.next, parsedRequest w.heap q r) :: served, ?_, .cons hfaithful hall⟩
    rw [hseen, h.seen, List.flatMap_cons, List.append_assoc]

/-- `Framed` for the rest of a stream and one budget. -/
lemma run_framed_iff (fuel : ℕ) (ds : List Delivery) : ∀ {w : World} {q : HttpRequest}
    {reqs : List RequestText}, Streams app w q ds reqs →
      ((∃ w', Outcome.run (deliver fuel) w ds = .returned w' ∧
        ∃ served, exchanges w'.trace = exchanges w.trace ++ served.flatMap app.exchange ∧
          List.Forall₂ (Faithful w.heap) served reqs) ↔
      FramesFrom app w.heap q w.conn.inputBuffer.sizes w.pending.length ds reqs ∧
        ∀ r ∈ reqs, r.headers.length + 3 ≤ fuel) := by
  induction ds with
  | nil =>
    intro w q reqs h
    rw [framesFrom_nil]
    constructor
    · rintro ⟨w', hrun, served, hseen, hall⟩
      cases hrun
      have hnone : served = [] := by
        cases served with
        | nil => rfl
        | cons p served => simp [Application.exchange] at hseen
      subst hnone
      cases hall
      exact ⟨rfl, by simp⟩
    · rintro ⟨rfl, -⟩
      exact ⟨w, rfl, [], by simp, .nil⟩
  | cons d ds ih =>
    intro w q reqs h
    obtain ⟨r, reqs, rfl⟩ := List.exists_cons_of_ne_nil h.ne_nil
    have hr := h.wellFormed r List.mem_cons_self
    have hq := h.ready.blank
    rcases h.cons_cases fuel with ⟨hlt, hnever⟩ | ⟨hle, hprogress, hreturns⟩
    · apply iff_of_false
      · rintro ⟨w', hrun, -⟩
        obtain ⟨w₁, hstep, -⟩ := Outcome.run_cons_eq_returned.1 hrun
        exact hnever w₁ hstep
      · rintro ⟨hframes, -⟩
        have hone := hframes.whole 1
        simp only [List.take_succ_cons, List.take_zero, List.flatMap_cons, List.flatMap_nil,
          List.append_nil] at hone
        omega
    rw [framesFrom_cons hle, List.forall_mem_cons]
    have hrest : ∀ w₁, Progress app w q d ds r reqs w₁ →
        ((∃ w', Outcome.run (deliver fuel) w₁ ds = .returned w' ∧
          ∃ served, exchanges w'.trace = exchanges w₁.trace ++ served.flatMap app.exchange ∧
            List.Forall₂ (Faithful w.heap) served reqs) ↔
        FramesFrom app (w.heap.skip r.allocations) (httpRequestReset (parsedRequest w.heap q r))
          ((w.conn.inputBuffer.sizes.read d.chunk.length).advance r.encode.length)
          (w.pending.length + d.chunk.length - r.encode.length) ds reqs ∧
          ∀ r ∈ reqs, r.headers.length + 3 ≤ fuel) := by
      intro w₁ hone
      rw [← hone.heap, ← hone.sizes, ← hone.pending, ← ih hone.streams, hone.heap]
      exact Iff.rfl
    constructor
    · rintro ⟨w', hrun, hanswered⟩
      obtain ⟨w₁, hstep, -⟩ := Outcome.run_cons_eq_returned.1 hrun
      have hone := hprogress w₁ hstep
      obtain ⟨hfuel, hserves, hcloses⟩ := hreturns.1 ⟨w₁, hstep⟩
      obtain ⟨hfaithful, hlater⟩ := (hone.answered_iff hstep).1 ⟨w', hrun, hanswered⟩
      have hterm := (represents_iff hr hq hserves.slots).1 hfaithful.1
      obtain ⟨hframes, hfuels⟩ := (hrest w₁ hone).1 hlater
      exact ⟨⟨⟨hserves, hterm, (closes_iff hr hq hserves.slots hterm _).1 hcloses⟩, hframes⟩,
        hfuel, hfuels⟩
    · rintro ⟨⟨⟨hserves, hterm, hname⟩, hframes⟩, hfuel, hfuels⟩
      have hcloses := (closes_iff hr hq hserves.slots hterm d.message.byteDiff).2 hname
      obtain ⟨w₁, hstep⟩ := hreturns.2 ⟨hfuel, hserves, hcloses⟩
      have hone := hprogress w₁ hstep
      have hfaithful : Faithful w.heap (w.heap.next, parsedRequest w.heap q r) r :=
        ⟨(represents_iff hr hq hserves.slots).2 hterm,
          parsedRequest_alone hr hq hserves.copies hserves.slots⟩
      exact (hone.answered_iff hstep).2 ⟨hfaithful, (hrest w₁ hone).2 ⟨hframes, hfuels⟩⟩

end Stream

/-- A stream of well-formed requests that is cut into chunks is framed exactly when there are
as many chunks as requests, the first `k` chunks hold the first `k` requests for every `k`, there
is room for each chunk in the input buffer, the copies of the request lines can be terminated and
the bytes behind them are zero, no request has more headers than there are slots, every request of
version 1.0 has a header for the connection, and the socket takes each response whole. -/
theorem framing_iff (connectedFd : ℤ) (eventLoop self : ℕ) (fresh₁ fresh₂ : ℕ → UInt8)
    (heap : Heap) (app : Application) (ds : List Delivery) (reqs : List RequestText)
    (hreqs : ∀ r ∈ reqs, r.WellFormed)
    (hbytes : ds.flatMap Delivery.chunk = reqs.flatMap RequestText.encode) :
    Framed app (httpConnection connectedFd eventLoop self fresh₁ fresh₂ heap app.server) ds
        reqs ↔
      FramesFrom app heap httpRequestNew ⟨0, initBufferSize, initBufferSize⟩ 0 ds reqs := by
  set w := httpConnection connectedFd eventLoop self fresh₁ fresh₂ heap app.server with hw
  have hempty : w.pending = [] := bufferNew_content fresh₁
  have hstreams : Streams app w httpRequestNew ds reqs :=
    ⟨httpConnection_ready connectedFd eventLoop self fresh₁ fresh₂ heap app, hreqs,
      by rw [hempty, List.nil_append, hbytes]⟩
  have hiff := fun fuel => run_framed_iff fuel ds hstreams
  rw [hempty] at hiff
  constructor
  · rintro ⟨fuel, hframed⟩
    exact ((hiff fuel).1 hframed).1
  · intro hframes
    refine ⟨(reqs.map fun r => r.headers.length + 3).sum, (hiff _).2 ⟨hframes, fun r hr => ?_⟩⟩
    exact List.le_sum_of_mem (List.mem_map_of_mem hr)

/-! ## Requests that are cut in other places than between them -/

/-- A chunk with a kernel that takes what it is given. -/
def arrival (chunk : List UInt8) (h : chunk ≠ []) (hlt : chunk.length < 2 ^ 31) : Delivery where
  chunk := chunk
  chunk_ne_nil := h
  chunk_lt := hlt
  readRealloc := (idleAnswers 65536).realloc
  read_served := idleAnswers_served 65536
  message := idleMessage 0 65536

lemma greeter_takesResponse {chunk : List UInt8} {h : chunk ≠ []} {hlt : chunk.length < 2 ^ 31}
    (q : HttpRequest) : TakesResponse greeter (arrival chunk h hlt) q := by
  refine ⟨65536, rfl, ?_⟩
  show (responseBytes greeting).length ≤ 65536
  decide

def threeRequests : List RequestText :=
  [⟨ascii "GET", ascii "/", ascii "HTTP/1.1", [(ascii "Host", ascii "x")]⟩,
    ⟨ascii "GET", ascii "/a", ascii "HTTP/1.0", [(ascii "Connection", ascii "Keep-Alive")]⟩,
    ⟨ascii "HEAD", [], ascii "HTTP/1.1", [(ascii "Host", ascii "y"), (ascii "Via", [])]⟩]

/-- The first chunk ends inside the second request line, and the second inside a header of the
third request. -/
def threeChunks : List Delivery :=
  [arrival (ascii "GET / HTTP/1.1\r\nHost: x\r\n\r\nGET /a H") (by decide) (by decide),
    arrival (ascii "TTP/1.0\r\nConnection: Keep-Alive\r\n\r\nHEAD  HTTP/1.1\r\nHost:")
      (by decide) (by decide),
    arrival (ascii " y\r\nVia: \r\n\r\n") (by decide) (by decide)]

lemma threeRequests_wellFormed : ∀ r ∈ threeRequests, r.WellFormed := by
  have hall : ∀ r ∈ threeRequests, ((32 : UInt8) ∉ r.method ∧ (32 : UInt8) ∉ r.url ∧
      ¬ crlf <:+: r.line ∧ (0 : UInt8) ∉ r.line) ∧ (∀ t ∈ r.headers, ¬ colonSpace <:+: t.1) ∧
      (∀ t ∈ r.headers, ¬ crlf <:+: headerText t) ∧
      ∀ t ∈ r.headers, (0 : UInt8) ∉ headerText t := by decide +kernel
  intro r hr
  obtain ⟨⟨hmethod, hurl, hline, hzero⟩, hkey, hheader, hheaderZero⟩ := hall r hr
  exact ⟨hmethod, hurl, hline, hzero, hkey, hheader, hheaderZero⟩

theorem framing_iff_threeRequests :
    Framed greeter (httpConnection 5 0 0 (fun _ => 0) (fun _ => 0) zeroHeap greeter.server)
      threeChunks threeRequests := by
  refine (framing_iff 5 0 0 (fun _ => 0) (fun _ => 0) zeroHeap greeter threeChunks threeRequests
    threeRequests_wellFormed (by decide +kernel)).2 ?_
  have hspare : ∀ n, 0 < zeroHeap.spare n := fun _ => Nat.succ_pos 7
  refine ⟨rfl, fun k => ?_, by decide +kernel, fun p _ => ⟨hspare _, hspare _, hspare _⟩,
    fun p _ => ⟨rfl, rfl, rfl⟩, by decide +kernel, by decide +kernel, ?_⟩
  · match k with
    | 0 => decide
    | 1 => decide +kernel
    | 2 => decide +kernel
    | k + 3 =>
      have hreqs : threeRequests.take (k + 3) = threeRequests :=
        List.take_of_length_le (Nat.le_add_left 3 k)
      have hchunks : threeChunks.take (k + 3) = threeChunks :=
        List.take_of_length_le (Nat.le_add_left 3 k)
      rw [hreqs, hchunks]
      decide +kernel
  · exact .cons (greeter_takesResponse _) (.cons (greeter_takesResponse _)
      (.cons (greeter_takesResponse _) .nil))

def getRoot : RequestText where
  method := ascii "GET"
  url := ascii "/"
  version := ascii "HTTP/1.1"
  headers := []

lemma getRoot_wellFormed : getRoot.WellFormed where
  method := by decide
  url := by decide
  line := by decide
  line_ne_zero := by decide
  key := by simp [getRoot]
  header := by simp [getRoot]
  header_ne_zero := by simp [getRoot]

/-- A request cut between the two bytes of its first line end. -/
def cutInLineEnd : List Delivery :=
  [arrival (ascii "GET / HTTP/1.1\r") (by decide) (by decide),
    arrival (ascii "\n\r\n") (by decide) (by decide)]

/-- A stream that is cut inside a line is not framed: the first call does not come back. -/
theorem not_framed_cutInLineEnd :
    ¬ ∀ (connectedFd : ℤ) (eventLoop self : ℕ) (fresh₁ fresh₂ : ℕ → UInt8) (heap : Heap)
      (app : Application) (ds : List Delivery) (reqs : List RequestText),
      (∀ r ∈ reqs, r.WellFormed) →
      ds.flatMap Delivery.chunk = reqs.flatMap RequestText.encode →
      Framed app (httpConnection connectedFd eventLoop self fresh₁ fresh₂ heap app.server) ds
        reqs := by
  intro h
  have hreqs : ∀ r ∈ [getRoot], r.WellFormed := by simpa using getRoot_wellFormed
  obtain ⟨fuel, w', hrun, -⟩ := h 5 0 0 (fun _ => 0) (fun _ => 0) zeroHeap greeter cutInLineEnd
    [getRoot] hreqs (by decide)
  obtain ⟨w₁, hstep, -⟩ := Outcome.run_cons_eq_returned.1 hrun
  have hready := httpConnection_ready 5 0 0 (fun _ => 0) (fun _ => 0) zeroHeap greeter
  have hpending : (httpConnection 5 0 0 (fun _ => 0) (fun _ => 0) zeroHeap
      greeter.server).pending = [] := bufferNew_content _
  exact deliver_ne_returned_of_lt hready getRoot_wellFormed (by rw [hpending]; decide)
    (by rw [hpending]; decide) hstep

end Yolanda
