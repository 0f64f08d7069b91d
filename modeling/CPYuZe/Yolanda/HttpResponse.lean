import CPYuZe.Yolanda.Buffer

/-!
# Responses and their encoding

`struct http_response` and `http_response.c`.  A string of a response is `NULL` or the memory
its pointer leads to.  `httpResponseEncodeBuffer` follows the source call by call.  When nothing
it reads is missing (`Encodable`) it appends the strings of `responseStrings` one after the other
(`encodeBuffer_eq_run`), and otherwise it goes wrong (`encodable_of_returned`).

Each string is appended with its length as an `int`, which for a very long one is negative or that
of its front only (`cutBytes`).  With an allocator that never fails the encoding returns exactly
when no length is negative and the sizes fit (`StringsFit`).
-/

namespace Yolanda

/-- `enum HttpStatusCode`.  A variable of this type can hold any `int`; the enumerators name five
of them. -/
structure HttpStatusCode where
  value : BitVec 32
  deriving DecidableEq, Repr

namespace HttpStatusCode

def unknown : HttpStatusCode := ⟨0⟩
def ok : HttpStatusCode := ⟨200⟩
def movedPermanently : HttpStatusCode := ⟨301⟩
def badRequest : HttpStatusCode := ⟨400⟩
def notFound : HttpStatusCode := ⟨404⟩

end HttpStatusCode

structure ResponseHeader where
  key : Option (List UInt8)
  value : Option (List UInt8)
  deriving DecidableEq, Repr

/-- A slot of the header array is `none` as long as nothing is stored in it. -/
structure HttpResponse where
  statusCode : HttpStatusCode
  statusMessage : Option (List UInt8)
  body : Option (List UInt8)
  responseHeaders : Option (List (Option ResponseHeader))
  responseHeadersNumber : ℕ
  keepConnected : Bool
  deriving DecidableEq, Repr

def initResponseHeaderSize : ℕ := 128

def httpResponseNew : HttpResponse where
  statusCode := .unknown
  statusMessage := none
  body := none
  responseHeaders := some (List.replicate initResponseHeaderSize none)
  responseHeadersNumber := 0
  keepConnected := false

/-- What `snprintf` leaves in a buffer of `size` bytes, without the terminating zero. -/
def snprintf (size : ℕ) (text : List UInt8) : List UInt8 := text.take (size - 1)

def statusLine (resp : HttpResponse) : List UInt8 :=
  snprintf 32 (ascii "HTTP/1.1 " ++ decimalInt resp.statusCode.value.toInt ++ ascii " ")

def contentLength (body : List UInt8) : List UInt8 :=
  snprintf 32 (ascii "Content-Length: " ++ decimal (cstr body).length ++ ascii "\r\n")

/-- One turn of the loop over the response headers. -/
def appendHeader (r : Realloc) (slots : List (Option ResponseHeader)) (output : Buffer)
    (i : ℕ) : Call Buffer :=
  match slots[i]? with
  | some (some header) => do
    let output ← bufferAppendString r output header.key
    let output ← bufferAppendString r output (some (ascii ": "))
    let output ← bufferAppendString r output header.value
    bufferAppendString r output (some (ascii "\r\n"))
  | some none => .faulted .nullPointer
  | none => .faulted .outOfBounds

/-- The part of the encoding that announces whether the connection stays open. -/
def appendConnection (r : Realloc) (resp : HttpResponse) (output : Buffer) : Call Buffer :=
  if resp.keepConnected then
    bufferAppendString r output (some (ascii "Connection: close\r\n"))
  else
    match resp.body with
    | none => .faulted .nullPointer
    | some body => do
      let output ← bufferAppendString r output (some (contentLength body))
      bufferAppendString r output (some (ascii "Connection: Keep-Alive\r\n"))

def appendHeaders (r : Realloc) (resp : HttpResponse) (output : Buffer) : Call Buffer :=
  match resp.responseHeaders with
  | none => .returned output
  | some slots =>
    Outcome.run (appendHeader r slots) output (List.range resp.responseHeadersNumber)

def httpResponseEncodeBuffer (r : Realloc) (resp : HttpResponse) (output : Buffer) :
    Call Buffer := do
  let output ← bufferAppendString r output (some (statusLine resp))
  let output ← bufferAppendString r output resp.statusMessage
  let output ← bufferAppendString r output (some (ascii "\r\n"))
  let output ← appendConnection r resp output
  let output ← appendHeaders r resp output
  let output ← bufferAppendString r output (some (ascii "\r\n"))
  bufferAppendString r output resp.body

/-! ## What is appended -/

def stringBytes (s : Option (List UInt8)) : List UInt8 := (s.map cstr).getD []

/-- What is appended of a string when its length is put into an `int`. -/
def cutBytes (s : Option (List UInt8)) : List UInt8 :=
  (stringBytes s).take (toInt (stringBytes s).length).toNat

def connectionStrings (resp : HttpResponse) : List (Option (List UInt8)) :=
  if resp.keepConnected then [some (ascii "Connection: close\r\n")]
  else [resp.body.map contentLength, some (ascii "Connection: Keep-Alive\r\n")]

def headerStrings (slots : List (Option ResponseHeader)) (i : ℕ) : List (Option (List UInt8)) :=
  match slots[i]? with
  | some (some header) =>
    [header.key, some (ascii ": "), header.value, some (ascii "\r\n")]
  | _ => []

def headersStrings (resp : HttpResponse) : List (Option (List UInt8)) :=
  match resp.responseHeaders with
  | none => []
  | some slots => (List.range resp.responseHeadersNumber).flatMap (headerStrings slots)

/-- The strings of a response, in the order in which they are appended. -/
def responseStrings (resp : HttpResponse) : List (Option (List UInt8)) :=
  some (statusLine resp) :: resp.statusMessage :: some (ascii "\r\n") ::
    (connectionStrings resp ++
      (headersStrings resp ++ [some (ascii "\r\n"), resp.body]))

/-- The text of a response. -/
def responseBytes (resp : HttpResponse) : List UInt8 :=
  (responseStrings resp).flatMap stringBytes

/-- The lengths of its strings. -/
def responseSizes (resp : HttpResponse) : List ℕ :=
  (responseStrings resp).map fun s => (stringBytes s).length

/-- Everything the encoding reads is there: a body where its length is announced, and as many
headers as the response counts. -/
structure Encodable (resp : HttpResponse) : Prop where
  body : resp.keepConnected = true ∨ resp.body.isSome = true
  headers : ∀ slots, resp.responseHeaders = some slots →
    ∀ i < resp.responseHeadersNumber, ∃ header, slots[i]? = some (some header)

/-! ## Appending strings -/

/-- No length is negative as an `int`, and what is appended fits. -/
structure StringsFit (z : BufferSizes) (ss : List (Option (List UInt8))) : Prop where
  nonneg : ∀ s ∈ ss, 0 ≤ toInt (stringBytes s).length
  sizes : SizesFit z (ss.map fun s => (cutBytes s).length)

section Strings

variable {r : Realloc} {s : Option (List UInt8)} {ss : List (Option (List UInt8))}

lemma cutBytes_of_lt (h : (stringBytes s).length < 2 ^ 31) : cutBytes s = stringBytes s := by
  rw [cutBytes, toInt_of_lt h, Int.toNat_natCast, List.take_length]

@[simp] lemma cutBytes_none : cutBytes none = [] := List.take_nil

lemma cutBytes_isPrefix (s : Option (List UInt8)) : cutBytes s <+: stringBytes s :=
  List.take_prefix _ _

lemma length_cutBytes (s : Option (List UInt8)) :
    (cutBytes s).length = (toInt (stringBytes s).length).toNat := by
  rw [cutBytes, List.length_take]
  exact min_eq_left (toInt_toNat_le _)

lemma length_cutBytes_lt (s : Option (List UInt8)) : (cutBytes s).length < 2 ^ 31 := by
  rw [length_cutBytes]
  have := toInt_lt (stringBytes s).length
  omega

/-- Strings of sizes that fit are appended whole. -/
lemma stringsFit_of_sizesFit {z : BufferSizes} (hfree : z.front + z.room ≤ z.total)
    (htotal : z.total < 2 ^ 31)
    (h : SizesFit z (ss.map fun s => (stringBytes s).length)) :
    StringsFit z ss ∧ ss.flatMap cutBytes = ss.flatMap stringBytes := by
  have hlt : ∀ s ∈ ss, (stringBytes s).length < 2 ^ 31 := fun s hs =>
    h.lt (hfree.trans_lt htotal) htotal _ (List.mem_map_of_mem hs)
  have hsame : ∀ s ∈ ss, cutBytes s = stringBytes s := fun s hs => cutBytes_of_lt (hlt s hs)
  refine ⟨⟨fun s hs => ?_, ?_⟩, ?_⟩
  · rw [toInt_of_lt (hlt s hs)]
    exact Int.natCast_nonneg _
  · rwa [List.map_congr_left fun s hs => congrArg List.length (hsame s hs)]
  · rw [List.flatMap_def, List.flatMap_def, List.map_congr_left hsame]

/-- Of strings that are appended whole the sizes fit. -/
lemma StringsFit.sizesFit {z : BufferSizes} (h : StringsFit z ss)
    (hwhole : ss.flatMap cutBytes = ss.flatMap stringBytes) :
    SizesFit z (ss.map fun s => (stringBytes s).length) := by
  have hsame : ∀ s ∈ ss, (cutBytes s).length = (stringBytes s).length := by
    have hlen := congrArg List.length hwhole
    clear hwhole h
    induction ss with
    | nil => simp
    | cons s ss ih =>
      have hone := (cutBytes_isPrefix s).length_le
      have hrest : (ss.flatMap cutBytes).length ≤ (ss.flatMap stringBytes).length := by
        rw [List.length_flatMap, List.length_flatMap]
        exact List.sum_le_sum fun s _ => (cutBytes_isPrefix s).length_le
      simp only [List.flatMap_cons, List.length_append] at hlen
      exact List.forall_mem_cons.2 ⟨by omega, ih (by omega)⟩
  rw [← List.map_congr_left hsame]
  exact h.sizes

/-- A string is appended, or it goes wrong. -/
lemma appendString_cases (hr : r.Succeeds) {b : Buffer} (hb : b.Wf)
    (htotal : b.totalSize < 2 ^ 31) (s : Option (List UInt8)) :
    (0 ≤ toInt (stringBytes s).length ∧ b.sizes.Fits (cutBytes s).length ∧
      ∃ b', bufferAppendString r b s = .returned b' ∧ Appended b b' (cutBytes s) ∧
        b'.sizes = b.sizes.append (cutBytes s).length) ∨
    ¬ (0 ≤ toInt (stringBytes s).length ∧ b.sizes.Fits (cutBytes s).length) ∧
      ∃ e, bufferAppendString r b s = .faulted e := by
  cases s with
  | none =>
    have hlen : (stringBytes none).length = 0 := rfl
    have hint : 0 ≤ toInt (stringBytes none).length := by
      rw [hlen, toInt_of_lt (Nat.two_pow_pos 31)]
      exact Int.natCast_nonneg _
    left
    rw [cutBytes_none, List.length_nil, BufferSizes.append_zero]
    have hfits : b.sizes.Fits 0 := fun hneeds => absurd hneeds (Nat.not_lt_zero _)
    have happ : Appended b b [] := ⟨hb, (List.append_nil _).symm⟩
    exact ⟨hint, hfits, b, rfl, happ, rfl⟩
  | some s =>
    have hgrow := hr.canGrow_iff (b := b) htotal (length_cutBytes_lt (some s))
    rw [bufferAppendString, bufferAppendInt]
    by_cases hpos : 0 ≤ toInt (stringBytes (some s)).length
    · rw [if_pos (show 0 ≤ toInt (cstr s).length from hpos)]
      by_cases hfits : b.sizes.Fits (cutBytes (some s)).length
      · obtain ⟨b', hb', happ⟩ := bufferAppend_returns hb (hgrow.2 hfits)
        exact .inl ⟨hpos, hfits, b', hb', happ, bufferAppend_sizes hb (hgrow.2 hfits) hb'⟩
      · exact .inr ⟨fun h => hfits h.2, _, bufferAppend_faults hb fun h => hfits (hgrow.1 h)⟩
    · rw [if_neg (show ¬ 0 ≤ toInt (cstr s).length from hpos)]
      exact .inr ⟨fun h => hpos h.1, _, rfl⟩

/-- What a string has been appended to is well formed, and its size is an `int`. -/
lemma bufferAppendString_keeps {b b' : Buffer} (h : b.Wf ∧ b.totalSize < 2 ^ 31)
    (hreturned : bufferAppendString r b s = .returned b') : b'.Wf ∧ b'.totalSize < 2 ^ 31 := by
  cases s with
  | none =>
    cases hreturned
    exact h
  | some s =>
    rw [bufferAppendString, bufferAppendInt] at hreturned
    split_ifs at hreturned with hpos
    have hlen : ((cstr s).take (toInt (cstr s).length).toNat).length < 2 ^ 31 :=
      length_cutBytes_lt (some s)
    by_cases hgrow : CanGrow r b ((cstr s).take (toInt (cstr s).length).toNat).length
    · obtain ⟨b₁, hb₁, happ⟩ := bufferAppend_returns h.1 hgrow
      cases hb₁.symm.trans hreturned
      have hsizes := bufferAppend_sizes h.1 hgrow hb₁
      have htotal := (hgrow.fits h.2 hlen).append_total_lt h.2
      rw [← hsizes] at htotal
      exact ⟨happ.wf, htotal⟩
    · rw [bufferAppend_faults h.1 hgrow] at hreturned
      cases hreturned

/-- Strings that fit are appended one after the other. -/
lemma run_strings_returns (hr : r.Succeeds) : ∀ {b : Buffer}, b.Wf → b.totalSize < 2 ^ 31 →
    StringsFit b.sizes ss → ∃ b', Outcome.run (bufferAppendString r) b ss = .returned b' ∧
      Appended b b' (ss.flatMap cutBytes) ∧ b'.totalSize < 2 ^ 31 := by
  induction ss with
  | nil => exact fun {b} hb htotal _ => ⟨b, rfl, ⟨hb, (List.append_nil _).symm⟩, htotal⟩
  | cons s ss ih =>
    intro b hb htotal h
    obtain ⟨hnonneg, hnonnegs⟩ := List.forall_mem_cons.1 h.nonneg
    obtain ⟨hfits, hsizes⟩ := h.sizes
    rcases appendString_cases hr hb htotal s with ⟨-, -, b₁, hb₁, happ₁, hsizes₁⟩ | ⟨hnot, -⟩
    · have htotal₁ : b₁.sizes.total < 2 ^ 31 := by
        rw [hsizes₁]
        exact hfits.append_total_lt htotal
      obtain ⟨b₂, hb₂, happ₂, htotal₂⟩ :=
        ih happ₁.wf htotal₁ ⟨hnonnegs, by rw [hsizes₁]; exact hsizes⟩
      refine ⟨b₂, ?_, happ₁.trans happ₂, htotal₂⟩
      rw [Outcome.run_cons_returned hb₁]
      exact hb₂
    · exact absurd ⟨hnonneg, hfits⟩ hnot

lemma stringsFit_of_returned (hr : r.Succeeds) : ∀ {b b' : Buffer}, b.Wf → b.totalSize < 2 ^ 31 →
    Outcome.run (bufferAppendString r) b ss = .returned b' → StringsFit b.sizes ss := by
  induction ss with
  | nil => exact fun _ _ _ => ⟨by simp, trivial⟩
  | cons s ss ih =>
    intro b b' hb htotal h
    obtain ⟨b₁, hb₁, hrest⟩ := Outcome.run_cons_eq_returned.1 h
    rcases appendString_cases hr hb htotal s with
      ⟨hnonneg, hfits, b₂, hb₂, happ₂, hsizes₂⟩ | ⟨-, e, he⟩
    · obtain rfl : b₂ = b₁ := Outcome.returned.inj (hb₂.symm.trans hb₁)
      have htotal₂ : b₂.sizes.total < 2 ^ 31 := by
        rw [hsizes₂]
        exact hfits.append_total_lt htotal
      have hrest := ih happ₂.wf htotal₂ hrest
      rw [hsizes₂] at hrest
      exact ⟨List.forall_mem_cons.2 ⟨hnonneg, hrest.nonneg⟩, hfits, hrest.sizes⟩
    · rw [he] at hb₁
      cases hb₁

end Strings

/-! ## The encoding as one run -/

section Encoding

variable {r : Realloc} {resp : HttpResponse}

lemma appendConnection_eq_run (hbody : resp.keepConnected = true ∨ resp.body.isSome = true)
    (b : Buffer) :
    appendConnection r resp b =
      Outcome.run (bufferAppendString r) b (connectionStrings resp) := by
  unfold appendConnection connectionStrings
  split_ifs with hkeep
  · rw [Outcome.run_singleton]
  · obtain ⟨body, hsome⟩ := Option.isSome_iff_exists.1 (hbody.resolve_left hkeep)
    rw [hsome, Outcome.run_cons]
    exact congrArg (Outcome.bind _) (funext fun b₁ => (Outcome.run_singleton _).symm)

lemma appendHeader_eq_run {slots : List (Option ResponseHeader)} {i : ℕ}
    (h : ∃ header, slots[i]? = some (some header)) (b : Buffer) :
    appendHeader r slots b i = Outcome.run (bufferAppendString r) b (headerStrings slots i) := by
  obtain ⟨header, hheader⟩ := h
  simp only [appendHeader, headerStrings, hheader]
  rw [Outcome.run_cons]
  refine congrArg _ (funext fun b₁ => ?_)
  rw [Outcome.run_cons]
  refine congrArg _ (funext fun b₂ => ?_)
  rw [Outcome.run_cons]
  refine congrArg _ (funext fun b₃ => ?_)
  rw [Outcome.run_singleton]

lemma appendHeaders_eq_run (h : Encodable resp) (b : Buffer) :
    appendHeaders r resp b = Outcome.run (bufferAppendString r) b (headersStrings resp) := by
  unfold appendHeaders headersStrings
  cases hslots : resp.responseHeaders with
  | none => rfl
  | some slots =>
    have hfilled : ∀ i ∈ List.range resp.responseHeadersNumber,
        ∃ header, slots[i]? = some (some header) :=
      fun i hi => h.headers slots hslots i (List.mem_range.1 hi)
    dsimp only
    rw [Outcome.run_flatMap]
    generalize List.range resp.responseHeadersNumber = is at hfilled
    induction is generalizing b with
    | nil => rfl
    | cons i is ih =>
      rw [Outcome.run_cons, Outcome.run_cons, appendHeader_eq_run (hfilled i List.mem_cons_self)]
      exact congrArg _ (funext fun b₁ => ih b₁ fun j hj => hfilled j (List.mem_cons_of_mem i hj))

/-- The encoding of a response of which nothing is missing appends its strings. -/
lemma encodeBuffer_eq_run (h : Encodable resp) (b : Buffer) :
    httpResponseEncodeBuffer r resp b =
      Outcome.run (bufferAppendString r) b (responseStrings resp) := by
  unfold httpResponseEncodeBuffer responseStrings
  rw [Outcome.run_cons]
  refine congrArg _ (funext fun b₁ => ?_)
  rw [Outcome.run_cons]
  refine congrArg _ (funext fun b₂ => ?_)
  rw [Outcome.run_cons]
  refine congrArg _ (funext fun b₃ => ?_)
  rw [Outcome.run_append_eq, ← appendConnection_eq_run h.body]
  refine congrArg _ (funext fun b₄ => ?_)
  rw [Outcome.run_append_eq, ← appendHeaders_eq_run h]
  refine congrArg _ (funext fun b₅ => ?_)
  rw [Outcome.run_cons]
  refine congrArg _ (funext fun b₆ => ?_)
  rw [Outcome.run_singleton]

/-- The loop over the headers returns only if all of them are there. -/
lemma filled_of_returned {slots : List (Option ResponseHeader)} {is : List ℕ} :
    ∀ {b b' : Buffer}, Outcome.run (appendHeader r slots) b is = .returned b' →
      ∀ i ∈ is, ∃ header, slots[i]? = some (some header) := by
  induction is with
  | nil => simp
  | cons i is ih =>
    intro b b' h
    obtain ⟨b₁, hone, hrest⟩ := Outcome.run_cons_eq_returned.1 h
    refine List.forall_mem_cons.2 ⟨?_, ih hrest⟩
    unfold appendHeader at hone
    cases hi : slots[i]? with
    | none => simp [hi] at hone
    | some slot =>
      cases slot with
      | none => simp [hi] at hone
      | some header => exact ⟨header, rfl⟩

/-- The encoding of a response returns only if nothing is missing. -/
lemma encodable_of_returned {b b' : Buffer}
    (h : httpResponseEncodeBuffer r resp b = .returned b') : Encodable resp := by
  obtain ⟨b₁, -, h⟩ := Outcome.bind_eq_returned.1 h
  obtain ⟨b₂, -, h⟩ := Outcome.bind_eq_returned.1 h
  obtain ⟨b₃, -, h⟩ := Outcome.bind_eq_returned.1 h
  obtain ⟨b₄, hconnection, h⟩ := Outcome.bind_eq_returned.1 h
  obtain ⟨b₅, hheaders, -⟩ := Outcome.bind_eq_returned.1 h
  constructor
  · by_contra hnot
    obtain ⟨hkeep, hbody⟩ := not_or.1 hnot
    have hnull : resp.body = none := by simpa using hbody
    simp [appendConnection, hkeep, hnull] at hconnection
  · intro slots hslots i hi
    unfold appendHeaders at hheaders
    rw [hslots] at hheaders
    exact filled_of_returned hheaders i (List.mem_range.2 hi)

/-- A response is encoded into a well-formed buffer, whatever the allocator answers. -/
lemma encodeBuffer_keeps {b b' : Buffer} (h : b.Wf ∧ b.totalSize < 2 ^ 31)
    (hreturned : httpResponseEncodeBuffer r resp b = .returned b') :
    b'.Wf ∧ b'.totalSize < 2 ^ 31 := by
  rw [encodeBuffer_eq_run (encodable_of_returned hreturned)] at hreturned
  exact Outcome.run_preserves (fun b : Buffer => b.Wf ∧ b.totalSize < 2 ^ 31)
    (fun _ _ _ hb hstep => bufferAppendString_keeps hb hstep) h hreturned

/-- The encoding returns exactly when nothing is missing and the strings fit, and then it has
appended them. -/
lemma encodeBuffer_returned_iff (hr : r.Succeeds) {b : Buffer} (hb : b.Wf)
    (htotal : b.totalSize < 2 ^ 31) :
    (∃ b', httpResponseEncodeBuffer r resp b = .returned b') ↔
      Encodable resp ∧ StringsFit b.sizes (responseStrings resp) := by
  constructor
  · rintro ⟨b', hreturned⟩
    have hencodable := encodable_of_returned hreturned
    rw [encodeBuffer_eq_run hencodable] at hreturned
    exact ⟨hencodable, stringsFit_of_returned hr hb htotal hreturned⟩
  · rintro ⟨hencodable, hfit⟩
    obtain ⟨b', hreturned, -⟩ := run_strings_returns hr hb htotal hfit
    exact ⟨b', by rw [encodeBuffer_eq_run hencodable, hreturned]⟩

lemma encodeBuffer_returns (hr : r.Succeeds) {b : Buffer} (hb : b.Wf)
    (htotal : b.totalSize < 2 ^ 31) (h : Encodable resp)
    (hfit : StringsFit b.sizes (responseStrings resp)) :
    ∃ b', httpResponseEncodeBuffer r resp b = .returned b' ∧
      Appended b b' ((responseStrings resp).flatMap cutBytes) ∧ b'.totalSize < 2 ^ 31 := by
  rw [encodeBuffer_eq_run h]
  exact run_strings_returns hr hb htotal hfit

end Encoding

end Yolanda
