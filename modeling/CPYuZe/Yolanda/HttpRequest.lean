import CPYuZe.Library.Heap
import CPYuZe.Yolanda.Common

/-!
# Parsed requests

`struct http_request` and the functions of `http_request.c`.  The strings of a request are
blocks of their own.  The header array is a list of slots, `none` where nothing has been
stored, of which the first `requestHeadersNumber` belong to the request: resetting a request
sets the number to zero and leaves the slots as they are.

The array is allocated as `INIT_REQUEST_HEADER_SIZE` times the size of a *request*, three times
the size of a header on a machine with 64-bit pointers, so it has more slots than the
constant's name says.  A header stored past the last slot is stored outside the array.
-/

namespace Yolanda

inductive HttpRequestState
  | requestStatus
  | requestHeaders
  | requestBody
  | requestDone
  deriving DecidableEq, Repr

structure RequestHeader where
  key : Block
  value : Block
  deriving DecidableEq, Repr

structure HttpRequest where
  version : Option Block
  method : Option Block
  url : Option Block
  currentState : HttpRequestState
  requestHeaders : List (Option RequestHeader)
  requestHeadersNumber : ℕ
  deriving DecidableEq, Repr

def initRequestHeaderSize : ℕ := 128

/-- The slots of the header array: `sizeof(struct http_request)` is 48 and
`sizeof(struct request_header)` is 16. -/
def requestHeadersCapacity : ℕ := 48 * initRequestHeaderSize / 16

def httpRequestNew : HttpRequest where
  version := none
  method := none
  url := none
  currentState := .requestStatus
  requestHeaders := List.replicate requestHeadersCapacity none
  requestHeadersNumber := 0

def httpRequestReset (req : HttpRequest) : HttpRequest :=
  { req with
    method := none
    currentState := .requestStatus
    version := none
    url := none
    requestHeadersNumber := 0 }

def httpRequestAddHeader (req : HttpRequest) (key value : Block) : Call HttpRequest :=
  let n := req.requestHeadersNumber
  if n < req.requestHeaders.length then
    .returned
      { req with
        requestHeaders := req.requestHeaders.set n (some ⟨key, value⟩)
        requestHeadersNumber := n + 1 }
  else .faulted .outOfBounds

/-- `strncmp` of a string in memory with a literal, at most the length of the literal. -/
def compareFront (d : ByteDiff) (b : Block) (s : List UInt8) : Call ℤ :=
  match strncmp d s.length b.bytes s with
  | some c => .returned c
  | none => .faulted .outOfBounds

/-- The loop over the headers from slot `i` on, `n` of them to go. -/
def findHeader (d : ByteDiff) (req : HttpRequest) (key : List UInt8) (i : ℕ) :
    ℕ → Call (Option Block)
  | 0 => .returned none
  | n + 1 =>
    match req.requestHeaders[i]? with
    | some (some header) => do
      let c ← compareFront d header.key key
      if c = 0 then pure (some header.value) else findHeader d req key (i + 1) n
    | some none => .faulted .nullPointer
    | none => .faulted .outOfBounds

def httpRequestGetHeader (d : ByteDiff) (req : HttpRequest) (key : List UInt8) :
    Call (Option Block) :=
  findHeader d req key 0 req.requestHeadersNumber

def http10 : List UInt8 := ascii "HTTP/1.0"
def keepAlive : List UInt8 := ascii "Keep-Alive"
def close : List UInt8 := ascii "close"

/-- Whether `http_request_close_connection` returns 1. -/
def httpRequestCloseConnection (d : ByteDiff) (req : HttpRequest) : Call Bool := do
  let connection ← httpRequestGetHeader d req (ascii "Connection")
  let closes ←
    match connection with
    | none => pure false
    | some value => do
      let c ← compareFront d value close
      pure (decide (c = 0))
  if closes then pure true
  else
    match req.version with
    | none => pure false
    | some version => do
      let c ← compareFront d version http10
      if c = 0 then
        match connection with
        | none => .faulted .nullPointer
        | some value => do
          let c ← compareFront d value keepAlive
          pure (decide (c = 1))
      else pure false

/-- The headers that belong to the request. -/
def HttpRequest.headers (req : HttpRequest) : List (Option RequestHeader) :=
  req.requestHeaders.take req.requestHeadersNumber

/-- The slots that are left. -/
def HttpRequest.free (req : HttpRequest) : ℕ :=
  req.requestHeaders.length - req.requestHeadersNumber

/-! ## Adding a header -/

/-- The request with one header more. -/
def HttpRequest.withHeader (req : HttpRequest) (key value : Block) : HttpRequest :=
  { req with
    requestHeaders := req.requestHeaders.set req.requestHeadersNumber (some ⟨key, value⟩)
    requestHeadersNumber := req.requestHeadersNumber + 1 }

section AddHeader

variable {req : HttpRequest} (key value : Block)

lemma addHeader_of_lt (h : req.requestHeadersNumber < req.requestHeaders.length) :
    httpRequestAddHeader req key value = .returned (req.withHeader key value) :=
  if_pos h

lemma addHeader_of_le (h : req.requestHeaders.length ≤ req.requestHeadersNumber) :
    httpRequestAddHeader req key value = .faulted .outOfBounds :=
  if_neg (Nat.not_lt.2 h)

@[simp] lemma withHeader_length :
    (req.withHeader key value).requestHeaders.length = req.requestHeaders.length :=
  List.length_set

@[simp] lemma withHeader_number :
    (req.withHeader key value).requestHeadersNumber = req.requestHeadersNumber + 1 := rfl

@[simp] lemma withHeader_state :
    (req.withHeader key value).currentState = req.currentState := rfl

@[simp] lemma withHeader_version : (req.withHeader key value).version = req.version := rfl

/-- A header takes a slot. -/
lemma withHeader_free (h : req.requestHeadersNumber < req.requestHeaders.length) :
    (req.withHeader key value).free + 1 = req.free := by
  simp only [HttpRequest.free, withHeader_length, withHeader_number]
  omega

/-- A header is added behind the others. -/
lemma withHeader_headers (h : req.requestHeadersNumber < req.requestHeaders.length) :
    (req.withHeader key value).headers = req.headers ++ [some ⟨key, value⟩] := by
  have hin : req.requestHeadersNumber <
      (req.requestHeaders.set req.requestHeadersNumber (some ⟨key, value⟩)).length := by
    rw [List.length_set]
    exact h
  simp only [HttpRequest.withHeader, HttpRequest.headers]
  rw [List.take_succ_eq_append_getElem hin, List.take_set_of_le le_rfl, List.getElem_set_self]

end AddHeader

/-! ## Looking a header up -/

/-- The strings of a header, as the C library sees them. -/
def RequestHeader.name (h : RequestHeader) : List UInt8 := cstr h.key.bytes

def RequestHeader.text (h : RequestHeader) : List UInt8 := cstr h.value.bytes

/-- `h` is the first header of which `p` holds. -/
def FirstWith (p : RequestHeader → Prop) (hs : List RequestHeader) (h : RequestHeader) : Prop :=
  ∃ before after, hs = before ++ h :: after ∧ p h ∧ ∀ h' ∈ before, ¬ p h'

lemma firstWith_iff_find {p : RequestHeader → Prop} [DecidablePred p] {hs : List RequestHeader}
    {h : RequestHeader} : FirstWith p hs h ↔ hs.find? (fun h => decide (p h)) = some h := by
  rw [List.find?_eq_some_iff_append, FirstWith]
  simp only [decide_eq_true_eq, Bool.not_eq_eq_eq_not, Bool.not_true, decide_eq_false_iff_not]
  constructor
  · rintro ⟨before, after, heq, hp, hbefore⟩
    exact ⟨hp, before, after, heq, hbefore⟩
  · rintro ⟨hp, before, after, heq, hbefore⟩
    exact ⟨before, after, heq, hp, hbefore⟩

section Lookup

variable {d : ByteDiff} {req : HttpRequest} {key : List UInt8}

lemma compareFront_terminated {b : Block} {t : List UInt8} (hb : 0 ∈ b.bytes) (ht : 0 ∉ t) :
    ∃ c, compareFront d b t = .returned c ∧ (c = 0 ↔ t <+: cstr b.bytes) := by
  obtain ⟨c, hc, hiff⟩ := strncmp_of_zero_mem d hb ht
  exact ⟨c, by simp [compareFront, hc], hiff⟩

/-- The value of the first header whose name begins with `key`. -/
def begun (hs : List RequestHeader) (key : List UInt8) : Option Block :=
  (hs.find? fun h => decide (key <+: h.name)).map RequestHeader.value

lemma begun_eq_some_iff {hs : List RequestHeader} {value : Block} :
    begun hs key = some value ↔
      ∃ h, FirstWith (fun h => key <+: h.name) hs h ∧ h.value = value := by
  simp only [begun, Option.map_eq_some_iff, firstWith_iff_find]

lemma begun_eq_none_iff {hs : List RequestHeader} :
    begun hs key = none ↔ ∀ h ∈ hs, ¬ key <+: h.name := by
  rw [begun, Option.map_eq_none_iff, List.find?_eq_none]
  simp only [decide_eq_true_eq]

/-- The search goes over the slots in order and stops at the first key with `key` at its
front. -/
lemma findHeader_slots (hkey : 0 ∉ key) {more : List (Option RequestHeader)} :
    ∀ {hs : List RequestHeader} {i : ℕ}, (∀ h ∈ hs, 0 ∈ h.key.bytes) →
      req.requestHeaders.drop i = hs.map some ++ more →
      findHeader d req key i hs.length = .returned (begun hs key) := by
  intro hs
  induction hs with
  | nil => exact fun _ _ => rfl
  | cons h hs ih =>
    intro i hterm hslots
    have hslot : req.requestHeaders[i]? = some (some h) := by
      have hhead := congrArg List.head? hslots
      rwa [List.head?_drop] at hhead
    have hrest : req.requestHeaders.drop (i + 1) = hs.map some ++ more := by
      rw [← List.drop_drop, hslots]
      rfl
    obtain ⟨c, hc, hiff⟩ := compareFront_terminated (d := d) (hterm h List.mem_cons_self) hkey
    have hih := ih (i := i + 1) (fun h' hmem => hterm h' (List.mem_cons_of_mem h hmem)) hrest
    simp only [List.length_cons, findHeader, hslot, hc, Outcome.returned_bind, begun]
    by_cases hfound : key <+: h.name
    · simp [hiff.2 hfound, hfound]
    · have hne : c ≠ 0 := fun hzero => hfound (hiff.1 hzero)
      simp [hne, hih, hfound, begun]

end Lookup

/-! ## Whether to close -/

def connectionKey : List UInt8 := ascii "Connection"

/-- The headers of a request stand in its slots with terminated strings, and its version has been
copied: `last` is the byte behind the copy, and a zero follows. -/
structure Stored (req : HttpRequest) (version : List UInt8) (last : UInt8)
    (hs : List RequestHeader) : Prop where
  version : ∃ rest, req.version = some ⟨version ++ last :: 0 :: rest⟩
  headers : req.headers = hs.map some
  number : req.requestHeadersNumber = hs.length
  key : ∀ h ∈ hs, 0 ∈ h.key.bytes
  value : ∀ h ∈ hs, 0 ∈ h.value.bytes

/-- The request is taken for one of version 1.0. -/
def LooksLikeHttp10 (version : List UInt8) (last : UInt8) : Prop := http10 <+: version ++ [last]

instance (version : List UInt8) (last : UInt8) : Decidable (LooksLikeHttp10 version last) :=
  inferInstanceAs (Decidable (_ <+: _))

section Close

variable {d : ByteDiff} {req : HttpRequest} {version : List UInt8} {last : UInt8}
  {hs : List RequestHeader}

lemma Stored.getHeader (h : Stored req version last hs) {key : List UInt8} (hkey : 0 ∉ key) :
    httpRequestGetHeader d req key = .returned (begun hs key) := by
  have hslots : req.requestHeaders.drop 0 =
      hs.map some ++ req.requestHeaders.drop req.requestHeadersNumber := by
    rw [← h.headers]
    exact (List.take_append_drop _ _).symm
  rw [httpRequestGetHeader, h.number]
  exact findHeader_slots hkey h.key hslots

/-- The first half of the decision, by the first header whose name begins with `Connection`. -/
lemma compareFront_value {header : RequestHeader} (hvalue : 0 ∈ header.value.bytes) :
    ∃ c, compareFront d header.value close = .returned c ∧ (c = 0 ↔ close <+: header.text) :=
  compareFront_terminated hvalue (by decide)

/-- The second half of the decision, by what stands at the front of the version. -/
lemma compareFront_version (version : List UInt8) (last : UInt8) (rest : List UInt8) :
    ∃ c, compareFront d ⟨version ++ last :: 0 :: rest⟩ http10 = .returned c ∧
      (c = 0 ↔ LooksLikeHttp10 version last) := by
  obtain ⟨c, hc, hiff⟩ := compareFront_terminated (d := d)
    (b := ⟨version ++ last :: 0 :: rest⟩) (t := http10) (by simp) (by decide)
  refine ⟨c, hc, hiff.trans ?_⟩
  have hzero : (0 : UInt8) ∉ http10 := by decide
  have hcons : version ++ last :: 0 :: rest = (version ++ [last]) ++ 0 :: rest := by simp
  rw [prefix_cstr_iff, and_iff_left hzero, hcons, prefix_append_zero_iff hzero]
  rfl

/-- The answer for a request that is taken for one of version 1.0. -/
lemma compareFront_keepAlive {header : RequestHeader} (hvalue : 0 ∈ header.value.bytes) :
    ∃ c, compareFront d header.value keepAlive = .returned c ∧
      (c = 1 ↔ DiffersBy d 1 header.value.bytes keepAlive) := by
  obtain ⟨c, hc, -⟩ := strncmp_of_zero_mem d hvalue (show 0 ∉ keepAlive by decide)
  refine ⟨c, by simp [compareFront, hc], ?_⟩
  rw [← strncmp_eq_some_iff d (show 0 ∉ keepAlive by decide) one_ne_zero, hc, Option.some.injEq]

/-- Without such a header a request that is taken for one of version 1.0 follows a null pointer,
and any other is not closed. -/
lemma Stored.closeConnection_none (h : Stored req version last hs)
    (hnone : ∀ header ∈ hs, ¬ connectionKey <+: header.name) :
    httpRequestCloseConnection d req =
      if LooksLikeHttp10 version last then .faulted .nullPointer else .returned false := by
  have hget : httpRequestGetHeader d req (ascii "Connection") =
      .returned (begun hs connectionKey) := h.getHeader (by decide)
  obtain ⟨rest, hversion⟩ := h.version
  obtain ⟨c, hc, hiff⟩ := compareFront_version (d := d) version last rest
  unfold httpRequestCloseConnection
  rw [hget, begun_eq_none_iff.2 hnone]
  simp [hversion, hc, hiff]

/-- With such a header it is closed if the header says so, or if the version is taken for 1.0 and
the header compares to one. -/
lemma Stored.closeConnection_some (h : Stored req version last hs) {header : RequestHeader}
    (hfirst : FirstWith (fun h => connectionKey <+: h.name) hs header) {b : Bool} :
    httpRequestCloseConnection d req = .returned b ↔
      (b = true ↔ close <+: header.text ∨
        LooksLikeHttp10 version last ∧ DiffersBy d 1 header.value.bytes keepAlive) := by
  have hget : httpRequestGetHeader d req (ascii "Connection") =
      .returned (begun hs connectionKey) := h.getHeader (by decide)
  have hmem : header ∈ hs := by
    obtain ⟨before, after, rfl, -⟩ := hfirst
    simp
  have hvalue := h.value header hmem
  obtain ⟨rest, hversion⟩ := h.version
  obtain ⟨c₁, hc₁, hclose⟩ := compareFront_value (d := d) hvalue
  obtain ⟨c₂, hc₂, hlooks⟩ := compareFront_version (d := d) version last rest
  obtain ⟨c₃, hc₃, hdiffers⟩ := compareFront_keepAlive (d := d) hvalue
  have hbegun : begun hs connectionKey = some header.value :=
    begun_eq_some_iff.2 ⟨header, hfirst, rfl⟩
  unfold httpRequestCloseConnection
  rw [hget, hbegun]
  simp only [Outcome.returned_bind, hversion, hc₁, hc₂, hc₃, Outcome.pure_eq, ← hclose, ← hlooks,
    ← hdiffers]
  by_cases h₁ : c₁ = 0
  · cases b <;> simp [h₁]
  · by_cases h₂ : c₂ = 0
    · cases b <;> simp [h₁, h₂]
    · cases b <;> simp [h₁, h₂]

/-- Whether to close is decided without fault exactly when a request that is taken for one of
version 1.0 has a header whose name begins with `Connection`. -/
lemma Stored.closeConnection_returns_iff (h : Stored req version last hs) :
    (∃ closes, httpRequestCloseConnection d req = .returned closes) ↔
      (LooksLikeHttp10 version last → ∃ header ∈ hs, connectionKey <+: header.name) := by
  cases hfound : hs.find? (fun h => decide (connectionKey <+: h.name)) with
  | none =>
    have hnone : ∀ header ∈ hs, ¬ connectionKey <+: header.name := by
      simpa using List.find?_eq_none.1 hfound
    rw [h.closeConnection_none hnone]
    have hnot : ¬ ∃ header ∈ hs, connectionKey <+: header.name := by simpa using hnone
    by_cases hlooks : LooksLikeHttp10 version last
    · simp [hlooks, hnot]
    · simp [hlooks]
  | some header =>
    have hfirst := firstWith_iff_find.2 hfound
    have hmem := List.mem_of_find?_eq_some hfound
    classical
    refine iff_of_true ⟨decide _, (h.closeConnection_some hfirst).2 decide_eq_true_iff⟩ fun _ => ?_
    exact ⟨header, hmem, by simpa using List.find?_some hfound⟩

end Close

/-! ## Requests made from texts -/

/-- The headers of terminated strings, in the allocations to come. -/
def storedHeaders (h : Heap) : List (List UInt8 × List UInt8) → List RequestHeader
  | [] => []
  | t :: ts => ⟨h.terminated t.1, (h.skip 1).terminated t.2⟩ :: storedHeaders (h.skip 2) ts

section StoredHeaders

variable {ts : List (List UInt8 × List UInt8)}

@[simp] lemma length_storedHeaders (ts : List (List UInt8 × List UInt8)) :
    ∀ h : Heap, (storedHeaders h ts).length = ts.length := by
  induction ts with
  | nil => exact fun _ => rfl
  | cons t ts ih => exact fun h => congrArg Nat.succ (ih _)

lemma storedHeaders_zero_mem (ts : List (List UInt8 × List UInt8)) :
    ∀ h : Heap, ∀ header ∈ storedHeaders h ts, 0 ∈ header.key.bytes ∧ 0 ∈ header.value.bytes := by
  induction ts with
  | nil => exact fun _ _ hmem => absurd hmem List.not_mem_nil
  | cons t ts ih =>
    intro h
    refine List.forall_mem_cons.2 ⟨⟨?_, ?_⟩, ih _⟩
    · exact Heap.zero_mem_terminated _ _
    · exact Heap.zero_mem_terminated _ _

/-- The strings of the headers are those of the texts. -/
lemma storedHeaders_texts (hts : ∀ t ∈ ts, 0 ∉ t.1 ∧ 0 ∉ t.2) :
    ∀ h : Heap, (storedHeaders h ts).map (fun h => (h.name, h.text)) = ts := by
  induction ts with
  | nil => exact fun _ => rfl
  | cons t ts ih =>
    intro h
    obtain ⟨hkey, hvalue⟩ := hts t List.mem_cons_self
    rw [storedHeaders, List.map_cons, ih fun t' ht' => hts t' (List.mem_cons_of_mem t ht')]
    simp only [RequestHeader.name, RequestHeader.text, Heap.cstr_terminated _ hkey,
      Heap.cstr_terminated _ hvalue]

/-- A header with such a name stands for a text with such a key. -/
lemma exists_storedHeaders_iff (hts : ∀ t ∈ ts, 0 ∉ t.1 ∧ 0 ∉ t.2) (h : Heap)
    (p : List UInt8 → Prop) :
    (∃ header ∈ storedHeaders h ts, p header.name) ↔ ∃ t ∈ ts, p t.1 := by
  have hmap := storedHeaders_texts hts h
  constructor
  · rintro ⟨header, hmem, hp⟩
    refine ⟨(header.name, header.text), ?_, hp⟩
    rw [← hmap]
    exact List.mem_map_of_mem hmem
  · rintro ⟨t, ht, hp⟩
    rw [← hmap] at ht
    obtain ⟨header, hmem, rfl⟩ := List.mem_map.1 ht
    exact ⟨header, hmem, hp⟩

end StoredHeaders

end Yolanda
