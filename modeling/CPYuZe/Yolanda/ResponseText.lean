import CPYuZe.Library.CScan
import CPYuZe.Yolanda.HttpResponse
import CPYuZe.Yolanda.RequestRoundTrip

/-!
# Reading a response back

What a client can tell from the text of a response: the status code and message, the headers and
the body (`ResponseText`), which `decodeResponse` reads off the bytes line by line, and the body
length that is announced (`announcedLength`).

The encoding announces the length of the body unless `keep_connected` is set, and takes the
length of a `NULL` body by following the pointer.  A new response is of this kind.  Every other
response can be read back if its strings fit into the buffer one after the other; of those that do
not, the encoding appends a part, or nothing at all (`transmitted_iff`).
-/

namespace Yolanda

/-- What a response says. -/
structure ResponseText where
  statusCode : HttpStatusCode
  statusMessage : List UInt8
  headers : List (List UInt8 × List UInt8)
  body : List UInt8
  deriving DecidableEq, Repr

/-- The strings of the header in a slot, as `f` reads them. -/
def slotText (f : Option (List UInt8) → List UInt8) (slots : List (Option ResponseHeader))
    (i : ℕ) : Option (List UInt8 × List UInt8) :=
  match slots[i]? with
  | some (some header) => some (f header.key, f header.value)
  | _ => none

namespace HttpResponse

/-- What a response says, when its strings are read by `f`. -/
def textBy (f : Option (List UInt8) → List UInt8) (resp : HttpResponse) : ResponseText where
  statusCode := resp.statusCode
  statusMessage := f resp.statusMessage
  headers :=
    match resp.responseHeaders with
    | none => []
    | some slots => (List.range resp.responseHeadersNumber).filterMap (slotText f slots)
  body := f resp.body

def text (resp : HttpResponse) : ResponseText := resp.textBy stringBytes

/-- What is sent of it. -/
def sent (resp : HttpResponse) : ResponseText := resp.textBy cutBytes

end HttpResponse

/-- No line ends in what becomes a line. -/
structure ResponseText.Clean (t : ResponseText) : Prop where
  message : Printable t.statusMessage
  headers : ∀ h ∈ t.headers, Printable h.1 ∧ ¬ colonSpace <:+: h.1 ∧ Printable h.2

/-- A response an application may fill in: as many headers as it counts, and clean strings. -/
structure HttpResponse.Clean (resp : HttpResponse) : Prop where
  filled : ∀ slots, resp.responseHeaders = some slots →
    ∀ i < resp.responseHeadersNumber, ∃ header, slots[i]? = some (some header)
  text : resp.text.Clean

/-! ## Decoding -/

/-- What stands before and behind the first `sep`. -/
def cut (sep bytes : List UInt8) : Option (List UInt8 × List UInt8) :=
  (memmem sep bytes).map fun n => (bytes.take n, bytes.drop (n + sep.length))

def decodeStatus (line : List UInt8) : Option (HttpStatusCode × List UInt8) := do
  let (code, message) ← cut space (line.drop (ascii "HTTP/1.1 ").length)
  pure (⟨BitVec.ofInt 32 (signedValue code)⟩, message)

/-- The headers up to the empty line, and what is behind it, in at most `n` lines. -/
def decodeHeaders : ℕ → List UInt8 → Option (List (List UInt8 × List UInt8) × List UInt8)
  | 0, _ => none
  | n + 1, bytes => do
    let (line, rest) ← cut crlf bytes
    if line = [] then pure ([], rest)
    else
      let header ← cut colonSpace line
      let (headers, body) ← decodeHeaders n rest
      pure (header :: headers, body)

def connectionClose : List UInt8 := ascii "Connection: close"

def connectionKeepAlive : List UInt8 := ascii "Connection: Keep-Alive"

def contentLengthKey : List UInt8 := ascii "Content-Length: "

def decodeResponse (bytes : List UInt8) : Option ResponseText := do
  let (line, rest) ← cut crlf bytes
  let (status, message) ← decodeStatus line
  let (line, rest) ← cut crlf rest
  -- behind a length there is one more line about the connection
  let rest ← if line = connectionClose then pure rest else (cut crlf rest).map Prod.snd
  let (headers, body) ← decodeHeaders rest.length rest
  pure ⟨status, message, headers, body⟩

/-- The digits of the length announced in the second line, if there is one. -/
def announcedLength (bytes : List UInt8) : Option (List UInt8) := do
  let (_, rest) ← cut crlf bytes
  let (line, _) ← cut crlf rest
  if contentLengthKey <+: line then pure (line.drop contentLengthKey.length) else none

/-- The encoding follows no null pointer and appends bytes from which the response can be read
back, and any length it announces is that of the body. -/
def Transmitted (r : Realloc) (resp : HttpResponse) (output : Buffer) : Prop :=
  ∃ output' bytes, httpResponseEncodeBuffer r resp output = .returned output' ∧
    output'.content = output.content ++ bytes ∧ decodeResponse bytes = some resp.text ∧
      ∀ digits, announcedLength bytes = some digits → digits = decimal resp.text.body.length

/-! ## Cutting -/

section Cut

variable {line rest : List UInt8}

lemma cut_of_memmem {sep front rest : List UInt8}
    (h : memmem sep (front ++ sep ++ rest) = some front.length) :
    cut sep (front ++ sep ++ rest) = some (front, rest) := by
  rw [cut, h, Option.map_some]
  congr 2
  · rw [List.append_assoc, List.take_left]
  · rw [← List.length_append, List.drop_left]

lemma cut_crlf (hline : ¬ crlf <:+: line) (rest : List UInt8) :
    cut crlf (line ++ crlf ++ rest) = some (line, rest) := by
  apply cut_of_memmem
  rw [List.append_assoc]
  exact memmem_pair_append (by decide) hline rest

lemma cut_colonSpace {key : List UInt8} (hkey : ¬ colonSpace <:+: key) (value : List UInt8) :
    cut colonSpace (headerText (key, value)) = some (key, value) := by
  apply cut_of_memmem
  rw [List.append_assoc]
  exact memmem_pair_append (by decide) hkey value

lemma cut_space {word : List UInt8} (hword : 32 ∉ word) (rest : List UInt8) :
    cut space (word ++ space ++ rest) = some (word, rest) := by
  apply cut_of_memmem
  rw [List.append_assoc]
  exact memmem_singleton_append hword rest

/-- The headers are read back line by line. -/
lemma decodeHeaders_encode {ts : List (List UInt8 × List UInt8)}
    (hts : ∀ t ∈ ts, Printable t.1 ∧ ¬ colonSpace <:+: t.1 ∧ Printable t.2) (body : List UInt8) :
    ∀ {n : ℕ}, ts.length < n → decodeHeaders n (encodeHeaders ts ++ body) = some (ts, body) := by
  induction ts with
  | nil =>
    intro n hn
    obtain ⟨n, rfl⟩ : ∃ k, n = k + 1 := ⟨n - 1, by simp at hn; omega⟩
    have hcut : cut crlf (encodeHeaders [] ++ body) = some ([], body) :=
      cut_crlf (show ¬ crlf <:+: [] by decide) body
    simp [decodeHeaders, hcut]
  | cons t ts ih =>
    intro n hn
    obtain ⟨n, rfl⟩ : ∃ k, n = k + 1 := ⟨n - 1, by simp at hn; omega⟩
    obtain ⟨hkey, hcolon, hvalue⟩ := hts t List.mem_cons_self
    have hline : Printable (headerText t) :=
      printable_append.2 ⟨printable_append.2 ⟨hkey, by decide⟩, hvalue⟩
    have hcut : cut crlf (encodeHeaders (t :: ts) ++ body) =
        some (headerText t, encodeHeaders ts ++ body) := by
      rw [encodeHeaders_cons, List.append_assoc]
      exact cut_crlf hline.no_crlf _
    have hne : headerText t ≠ [] := by simp [headerText, colonSpace]
    have hih := ih (fun t' h' => hts t' (List.mem_cons_of_mem t h')) (n := n)
      (by simp only [List.length_cons] at hn; omega)
    have hheader : cut colonSpace (headerText t) = some t := cut_colonSpace hcolon t.2
    simp [decodeHeaders, hcut, hne, hheader, hih]

end Cut

/-! ## The text -/

/-- The line with the status, without its end. -/
def statusText (code : HttpStatusCode) (message : List UInt8) : List UInt8 :=
  ascii "HTTP/1.1 " ++ (decimalInt code.value.toInt ++ space ++ message)

/-- A text with these lines about the connection. -/
def ResponseText.encode (t : ResponseText) (connection : List UInt8) : List UInt8 :=
  statusText t.statusCode t.statusMessage ++ crlf ++
    (connection ++ (encodeHeaders t.headers ++ t.body))

def connectionBytes (resp : HttpResponse) : List UInt8 :=
  (connectionStrings resp).flatMap stringBytes

section Status

variable {code : HttpStatusCode} {message : List UInt8}

lemma printable_of_digits {digits : List UInt8} (h : ∀ b ∈ digits, 48 ≤ b ∧ b ≤ 57) :
    Printable digits := by
  intro b hb
  obtain ⟨hlow, -⟩ := h b hb
  refine ⟨?_, ?_, ?_⟩
  · rintro rfl
    exact absurd hlow (by decide)
  · rintro rfl
    exact absurd hlow (by decide)
  · rintro rfl
    exact absurd hlow (by decide)

lemma printable_decimal (n : ℕ) : Printable (decimal n) :=
  printable_of_digits fun _ => decimal_digit

lemma printable_decimalInt (n : ℤ) : Printable (decimalInt n) := by
  unfold decimalInt
  split_ifs
  · exact List.forall_mem_cons.2 ⟨by decide, printable_decimal _⟩
  · exact printable_decimal _

lemma space_notMem_decimalInt (n : ℤ) : (32 : UInt8) ∉ decimalInt n := by
  have hdigits : (32 : UInt8) ∉ decimal n.natAbs :=
    fun h => absurd (decimal_digit h) (by decide)
  unfold decimalInt
  split_ifs
  · simpa using hdigits
  · exact hdigits

lemma decodeStatus_statusText : decodeStatus (statusText code message) = some (code, message) := by
  have hdrop : (statusText code message).drop (ascii "HTTP/1.1 ").length =
      decimalInt code.value.toInt ++ space ++ message := List.drop_left
  unfold decodeStatus
  rw [hdrop, cut_space (space_notMem_decimalInt _)]
  simp [signedValue_decimalInt]

lemma printable_statusText (h : Printable message) : Printable (statusText code message) := by
  have hfront : Printable (ascii "HTTP/1.1 ") := by decide
  have hspace : Printable space := by decide
  exact printable_append.2 ⟨hfront, printable_append.2
    ⟨printable_append.2 ⟨printable_decimalInt _, hspace⟩, h⟩⟩

/-- The line with the status has room in the scratch buffer. -/
lemma statusLine_eq (resp : HttpResponse) :
    statusLine resp =
      ascii "HTTP/1.1 " ++ (decimalInt resp.statusCode.value.toInt ++ space) := by
  have hfront : (ascii "HTTP/1.1 ").length = 9 := by decide
  have hspace : ascii " " = space := by decide
  have hdigits : (decimalInt resp.statusCode.value.toInt).length ≤ 10 + 1 := by
    have hlow := BitVec.le_two_mul_toInt (x := resp.statusCode.value)
    have hhigh := BitVec.two_mul_toInt_lt (x := resp.statusCode.value)
    rw [length_decimalInt_le_iff (by norm_num)]
    omega
  unfold statusLine snprintf
  rw [hspace, List.append_assoc]
  apply List.take_of_length_le
  simp only [List.length_append, hfront, space, List.length_cons, List.length_nil]
  omega

lemma stringBytes_statusLine (resp : HttpResponse) :
    stringBytes (some (statusLine resp)) =
      ascii "HTTP/1.1 " ++ (decimalInt resp.statusCode.value.toInt ++ space) := by
  have hfront : Printable (ascii "HTTP/1.1 ") := by decide
  have hspace : Printable space := by decide
  have hline : Printable (ascii "HTTP/1.1 " ++ (decimalInt resp.statusCode.value.toInt ++ space)) :=
    printable_append.2 ⟨hfront, printable_append.2 ⟨printable_decimalInt _, hspace⟩⟩
  rw [statusLine_eq]
  exact cstr_eq_self hline.zero_notMem

end Status

section Text

variable {resp : HttpResponse} {f : Option (List UInt8) → List UInt8}

lemma length_snprintf_lt {size : ℕ} (hsize : size < 2 ^ 31) (t : List UInt8) :
    (stringBytes (some (snprintf size t))).length < 2 ^ 31 := by
  have hcstr : (cstr (t.take (size - 1))).length ≤ (t.take (size - 1)).length :=
    (cstr_prefix_self _).length_le
  rw [List.length_take] at hcstr
  show (cstr (t.take (size - 1))).length < 2 ^ 31
  omega

/-- The loop over the headers writes them line by line. -/
lemma flatMap_headerStrings (hf : ∀ s, (stringBytes s).length < 2 ^ 31 → f s = stringBytes s)
    (slots : List (Option ResponseHeader)) (is : List ℕ) :
    (is.flatMap (headerStrings slots)).flatMap f =
      (is.filterMap (slotText f slots)).flatMap fun t => headerText t ++ crlf := by
  have hcolon : f (some (ascii ": ")) = colonSpace := hf _ (by decide)
  have hend : f (some (ascii "\r\n")) = crlf := hf _ (by decide)
  induction is with
  | nil => rfl
  | cons i is ih =>
    have hslot : (headerStrings slots i).flatMap f =
        (slotText f slots i).elim [] fun t => headerText t ++ crlf := by
      unfold headerStrings slotText headerText
      cases slots[i]? with
      | none => rfl
      | some slot =>
        cases slot with
        | none => rfl
        | some header => simp [hcolon, hend]
    rw [List.flatMap_cons, List.flatMap_append, List.filterMap_cons, ih, hslot]
    cases slotText f slots i with
    | none => rfl
    | some t => rfl

/-- The strings of a response make up its text, line by line. -/
lemma flatMap_responseStrings (hf : ∀ s, (stringBytes s).length < 2 ^ 31 → f s = stringBytes s)
    (resp : HttpResponse) :
    (responseStrings resp).flatMap f = (resp.textBy f).encode (connectionBytes resp) := by
  have hend : f (some (ascii "\r\n")) = crlf := hf _ (by decide)
  have hstatus : f (some (statusLine resp)) = stringBytes (some (statusLine resp)) :=
    hf _ (length_snprintf_lt (by norm_num) _)
  have hconnection : (connectionStrings resp).flatMap f = connectionBytes resp := by
    have hagree : ∀ s ∈ connectionStrings resp, f s = stringBytes s := by
      unfold connectionStrings
      split_ifs
      · simpa using hf _ (by decide)
      · cases resp.body with
        | none => simpa using ⟨hf _ (by decide), hf _ (by decide)⟩
        | some body =>
          simpa using ⟨hf _ (length_snprintf_lt (by norm_num) _), hf _ (by decide)⟩
    rw [connectionBytes, List.flatMap_def, List.flatMap_def, List.map_congr_left hagree]
  have hheaders : (headersStrings resp).flatMap f ++ crlf =
      encodeHeaders (resp.textBy f).headers := by
    unfold headersStrings HttpResponse.textBy encodeHeaders
    cases resp.responseHeaders with
    | none => rfl
    | some slots => exact congrArg (· ++ crlf) (flatMap_headerStrings hf slots _)
  simp only [responseStrings, List.flatMap_cons, List.flatMap_append, List.flatMap_nil,
    List.append_nil, hstatus, hend, hconnection]
  rw [← List.append_assoc (List.flatMap f (headersStrings resp)) crlf, hheaders,
    stringBytes_statusLine, ResponseText.encode, statusText]
  simp only [HttpResponse.textBy, List.append_assoc]

lemma responseBytes_eq (resp : HttpResponse) :
    responseBytes resp = resp.text.encode (connectionBytes resp) :=
  flatMap_responseStrings (fun _ _ => rfl) resp

/-- What is sent of a response is a text as well. -/
lemma sentBytes_eq (resp : HttpResponse) :
    (responseStrings resp).flatMap cutBytes = resp.sent.encode (connectionBytes resp) :=
  flatMap_responseStrings (fun _ h => cutBytes_of_lt h) resp

/-- The line with the length has room in the scratch buffer. -/
lemma contentLength_eq {body : List UInt8} (h : (cstr body).length < 10 ^ 13) :
    contentLength body = contentLengthKey ++ (decimal (cstr body).length ++ crlf) := by
  have hdigits : (decimal (cstr body).length).length ≤ 13 :=
    (length_decimal_le_iff (by norm_num)).2 h
  have hkey : contentLengthKey.length = 16 := by decide
  have hend : ascii "\r\n" = crlf := by decide
  unfold contentLength snprintf
  rw [hend, List.append_assoc]
  apply List.take_of_length_le
  simp only [List.length_append, crlf, List.length_cons, List.length_nil]
  rw [show (ascii "Content-Length: ").length = 16 from hkey]
  omega

/-- A longer one is cut inside its digits or behind the carriage return. -/
lemma contentLength_cut {body : List UInt8} (h : 10 ^ 13 ≤ (cstr body).length) :
    contentLength body = contentLengthKey ++ (decimal (cstr body).length ++ [13]).take 15 := by
  have hdigits : 13 < (decimal (cstr body).length).length := by
    by_contra hle
    exact absurd ((length_decimal_le_iff (by norm_num)).1 (Nat.not_lt.1 hle)) (Nat.not_lt.2 h)
  have hkey : (ascii "Content-Length: ").length = 16 := by decide
  have hend : ascii "\r\n" = [13] ++ [10] := by decide
  unfold contentLength snprintf
  rw [hend, List.append_assoc, ← List.append_assoc (decimal _), List.take_append, hkey,
    List.take_of_length_le (by omega), List.take_append_of_le_length]
  · rfl
  · simp only [List.length_append, List.length_singleton]
    omega

lemma connectionBytes_keep (hkeep : resp.keepConnected = true) :
    connectionBytes resp = connectionClose ++ crlf := by
  rw [connectionBytes, connectionStrings, if_pos hkeep]
  decide

lemma connectionBytes_announces {body : List UInt8} (hkeep : ¬ resp.keepConnected = true)
    (hbody : resp.body = some body) :
    connectionBytes resp = cstr (contentLength body) ++ (connectionKeepAlive ++ crlf) := by
  have hkeepAlive : stringBytes (some (ascii "Connection: Keep-Alive\r\n")) =
      connectionKeepAlive ++ crlf := by decide
  rw [connectionBytes, connectionStrings, if_neg hkeep, hbody, Option.map_some, List.flatMap_cons,
    List.flatMap_singleton, hkeepAlive]
  rfl

lemma connectionBytes_length {body : List UInt8} (hkeep : ¬ resp.keepConnected = true)
    (hbody : resp.body = some body) (h : (cstr body).length < 10 ^ 13) :
    connectionBytes resp =
      contentLengthKey ++ decimal (cstr body).length ++ crlf ++ (connectionKeepAlive ++ crlf) := by
  have hzero : (0 : UInt8) ∉ contentLengthKey ++ (decimal (cstr body).length ++ crlf) := by
    simp only [List.mem_append, not_or]
    exact ⟨by decide, zero_notMem_decimal _, by decide⟩
  rw [connectionBytes_announces hkeep hbody, contentLength_eq h, cstr_eq_self hzero]
  simp only [List.append_assoc]

/-- A line with a length that has been cut runs into the next line. -/
lemma connectionBytes_cut {body : List UInt8} (hkeep : ¬ resp.keepConnected = true)
    (hbody : resp.body = some body) (h : 10 ^ 13 ≤ (cstr body).length) :
    connectionBytes resp = contentLengthKey ++
      ((decimal (cstr body).length ++ [13]).take 15 ++ connectionKeepAlive) ++ crlf := by
  have hdigits : (0 : UInt8) ∉ decimal (cstr body).length ++ [13] := by
    simp only [List.mem_append, not_or]
    exact ⟨zero_notMem_decimal _, by decide⟩
  have hzero : (0 : UInt8) ∉ contentLengthKey ++ (decimal (cstr body).length ++ [13]).take 15 := by
    simp only [List.mem_append, not_or]
    exact ⟨by decide, fun hmem => hdigits (List.mem_of_mem_take hmem)⟩
  rw [connectionBytes_announces hkeep hbody, contentLength_cut h, cstr_eq_self hzero]
  simp only [List.append_assoc]

end Text

/-! ## Reading back -/

section Decode

variable {t : ResponseText}

/-- The first line is the one with the status. -/
lemma cut_encode (h : t.Clean) (connection : List UInt8) :
    cut crlf (t.encode connection) =
      some (statusText t.statusCode t.statusMessage,
        connection ++ (encodeHeaders t.headers ++ t.body)) :=
  cut_crlf (printable_statusText h.message).no_crlf _

lemma decodeHeaders_text (h : t.Clean) :
    decodeHeaders (encodeHeaders t.headers ++ t.body).length (encodeHeaders t.headers ++ t.body) =
      some (t.headers, t.body) := by
  apply decodeHeaders_encode h.headers
  -- every header has a line of its own, and behind them there is one more
  have hlines : ∀ ts : List (List UInt8 × List UInt8),
      ts.length < (encodeHeaders ts).length := by
    intro ts
    induction ts with
    | nil => decide
    | cons t ts ih =>
      rw [encodeHeaders_cons]
      simp only [List.length_append, List.length_cons, crlf, List.length_nil]
      omega
  have := hlines t.headers
  rw [List.length_append]
  omega

lemma decodeResponse_close (h : t.Clean) :
    decodeResponse (t.encode (connectionClose ++ crlf)) = some t ∧
      announcedLength (t.encode (connectionClose ++ crlf)) = none := by
  have hcut := cut_encode h (connectionClose ++ crlf)
  have hsecond := cut_crlf (show ¬ crlf <:+: connectionClose by decide)
    (encodeHeaders t.headers ++ t.body)
  have hno : ¬ contentLengthKey <+: connectionClose := by decide
  constructor
  · simp only [decodeResponse, hcut, Option.bind_eq_bind, Option.bind_some, hsecond,
      decodeStatus_statusText, if_true, Option.pure_def, decodeHeaders_text h]
  · simp only [announcedLength, hcut, Option.bind_eq_bind, Option.bind_some, hsecond, if_neg hno]

lemma decodeResponse_length (h : t.Clean) (n : ℕ) :
    decodeResponse (t.encode (contentLengthKey ++ decimal n ++ crlf ++
        (connectionKeepAlive ++ crlf))) = some t ∧
      announcedLength (t.encode (contentLengthKey ++ decimal n ++ crlf ++
        (connectionKeepAlive ++ crlf))) = some (decimal n) := by
  have hcut := cut_encode h (contentLengthKey ++ decimal n ++ crlf ++ (connectionKeepAlive ++ crlf))
  set later := encodeHeaders t.headers ++ t.body with hlater
  have hline : Printable (contentLengthKey ++ decimal n) :=
    printable_append.2 ⟨by decide, printable_decimal n⟩
  have hsecond := cut_crlf hline.no_crlf (connectionKeepAlive ++ crlf ++ later)
  have hthird := cut_crlf (show ¬ crlf <:+: connectionKeepAlive by decide) later
  have hheaders : decodeHeaders later.length later = some (t.headers, t.body) :=
    decodeHeaders_text h
  have hne : contentLengthKey ++ decimal n ≠ connectionClose := by
    intro heq
    have hpre : contentLengthKey <+: connectionClose := heq ▸ List.prefix_append _ _
    exact absurd hpre (by decide)
  have hyes : contentLengthKey <+: contentLengthKey ++ decimal n := List.prefix_append _ _
  rw [List.append_assoc _ (connectionKeepAlive ++ crlf)] at hcut
  constructor
  · simp only [decodeResponse, hcut, Option.bind_eq_bind, Option.bind_some, hsecond,
      decodeStatus_statusText, if_neg hne, hthird, Option.map_some, hheaders, Option.pure_def]
  · simp only [announcedLength, hcut, Option.bind_eq_bind, Option.bind_some, hsecond, if_pos hyes,
      List.drop_left, Option.pure_def]

/-- Of a length that has been cut no digits are left that are its own. -/
lemma announcedLength_cut (h : t.Clean) (n : ℕ) :
    ∃ digits, announcedLength (t.encode (contentLengthKey ++
        ((decimal n ++ [13]).take 15 ++ connectionKeepAlive) ++ crlf)) = some digits ∧
      digits ≠ decimal n := by
  set rest := (decimal n ++ [13]).take 15 ++ connectionKeepAlive with hrest
  have hcut := cut_encode h (contentLengthKey ++ rest ++ crlf)
  have hfeed : (10 : UInt8) ∉ contentLengthKey ++ rest := by
    have hdigits : (10 : UInt8) ∉ decimal n ++ [13] := by
      simp only [List.mem_append, not_or]
      exact ⟨fun hmem => absurd (decimal_digit hmem) (by decide), by decide⟩
    simp only [hrest, List.mem_append, not_or]
    exact ⟨by decide, fun hmem => hdigits (List.mem_of_mem_take hmem), by decide⟩
  have hline : ¬ crlf <:+: contentLengthKey ++ rest :=
    fun hin => hfeed (hin.subset (by simp [crlf]))
  have hsecond := cut_crlf hline (encodeHeaders t.headers ++ t.body)
  refine ⟨rest, ?_, fun heq => ?_⟩
  · simp only [announcedLength, hcut, Option.bind_eq_bind, Option.bind_some, hsecond,
      if_pos (List.prefix_append contentLengthKey rest), List.drop_left, Option.pure_def]
  · have hletter : (67 : UInt8) ∈ rest := List.mem_append_right _ (by decide)
    rw [heq] at hletter
    exact absurd (decimal_digit hletter) (by decide)

end Decode

section Sent

variable {resp : HttpResponse}

lemma mem_headers_textBy {f : Option (List UInt8) → List UInt8}
    {t : List UInt8 × List UInt8} :
    t ∈ (resp.textBy f).headers ↔
      ∃ slots, resp.responseHeaders = some slots ∧ ∃ i < resp.responseHeadersNumber,
        ∃ header, slots[i]? = some (some header) ∧ t = (f header.key, f header.value) := by
  unfold HttpResponse.textBy
  cases resp.responseHeaders with
  | none => simp
  | some slots =>
    simp only [List.mem_filterMap, List.mem_range, Option.some.injEq, exists_eq_left']
    refine exists_congr fun i => and_congr_right fun _ => ?_
    unfold slotText
    cases slots[i]? with
    | none => simp
    | some slot =>
      cases slot with
      | none => simp
      | some header => simp [eq_comm]

lemma Printable.of_isPrefix {xs ys : List UInt8} (h : Printable ys) (hpre : xs <+: ys) :
    Printable xs := fun b hb => h b (hpre.subset hb)

/-- Of clean strings every front is clean. -/
lemma HttpResponse.Clean.textBy {f : Option (List UInt8) → List UInt8} (h : resp.Clean)
    (hf : ∀ s, f s <+: stringBytes s) : (resp.textBy f).Clean := by
  refine ⟨h.text.message.of_isPrefix (hf resp.statusMessage), fun t ht => ?_⟩
  obtain ⟨slots, hslots, i, hi, header, hheader, rfl⟩ := mem_headers_textBy.1 ht
  obtain ⟨hkey, hcolon, hvalue⟩ := h.text.headers _
    (mem_headers_textBy.2 ⟨slots, hslots, i, hi, header, hheader, rfl⟩)
  exact ⟨hkey.of_isPrefix (hf header.key), fun hin => hcolon (hin.trans (hf header.key).isInfix),
    hvalue.of_isPrefix (hf header.value)⟩

lemma HttpResponse.Clean.sent (h : resp.Clean) : resp.sent.Clean := h.textBy cutBytes_isPrefix

/-- A length is announced as it is, or the line that announces it is cut. -/
lemma connection_cases (h : resp.keepConnected = true ∨ resp.body.isSome = true) :
    connectionBytes resp = connectionClose ++ crlf ∨
      ∃ n, n = resp.text.body.length ∧
        ((n < 10 ^ 13 ∧ connectionBytes resp =
            contentLengthKey ++ decimal n ++ crlf ++ (connectionKeepAlive ++ crlf)) ∨
          10 ^ 13 ≤ n ∧ connectionBytes resp = contentLengthKey ++
            ((decimal n ++ [13]).take 15 ++ connectionKeepAlive) ++ crlf) := by
  by_cases hkeep : resp.keepConnected = true
  · exact .inl (connectionBytes_keep hkeep)
  · obtain ⟨body, hbody⟩ := Option.isSome_iff_exists.1 (h.resolve_left hkeep)
    have hlen : (cstr body).length = resp.text.body.length := by
      rw [HttpResponse.text, HttpResponse.textBy, hbody]
      rfl
    refine .inr ⟨_, hlen, ?_⟩
    rcases lt_or_ge (cstr body).length (10 ^ 13) with hshort | hlong
    · exact .inl ⟨hshort, connectionBytes_length hkeep hbody hshort⟩
    · exact .inr ⟨hlong, connectionBytes_cut hkeep hbody hlong⟩

/-- If what is read back is the response, all of it has been sent. -/
lemma sent_eq_text_of_decode (h : resp.Clean)
    (hbody : resp.keepConnected = true ∨ resp.body.isSome = true)
    (hdecode : decodeResponse (resp.sent.encode (connectionBytes resp)) = some resp.text)
    (hlength : ∀ digits, announcedLength (resp.sent.encode (connectionBytes resp)) = some digits →
      digits = decimal resp.text.body.length) : resp.sent = resp.text := by
  rcases connection_cases hbody with hclose | ⟨n, rfl, ⟨-, hline⟩ | ⟨-, hline⟩⟩
  · rw [hclose, (decodeResponse_close h.sent).1] at hdecode
    exact Option.some.inj hdecode
  · rw [hline, (decodeResponse_length h.sent _).1] at hdecode
    exact Option.some.inj hdecode
  · obtain ⟨digits, hdigits, hne⟩ := announcedLength_cut h.sent resp.text.body.length
    rw [hline] at hlength
    exact absurd (hlength digits hdigits) hne

/-- A response of which all is sent can be read back. -/
lemma decode_of_lt (h : resp.Clean) (hbody : resp.keepConnected = true ∨ resp.body.isSome = true)
    (hshort : resp.text.body.length < 10 ^ 13) :
    decodeResponse (resp.text.encode (connectionBytes resp)) = some resp.text ∧
      ∀ digits, announcedLength (resp.text.encode (connectionBytes resp)) = some digits →
        digits = decimal resp.text.body.length := by
  rcases connection_cases hbody with hclose | ⟨n, rfl, ⟨-, hline⟩ | ⟨hlong, -⟩⟩
  · obtain ⟨hdecode, hnone⟩ := decodeResponse_close h.text
    rw [hclose, hnone]
    exact ⟨hdecode, fun _ hdigits => nomatch hdigits⟩
  · obtain ⟨hdecode, hsome⟩ := decodeResponse_length h.text resp.text.body.length
    rw [hline, hsome]
    exact ⟨hdecode, fun _ hdigits => (Option.some.inj hdigits).symm⟩
  · exact absurd hshort (Nat.not_lt.2 hlong)

end Sent

/-- A response of which nothing is missing but possibly the body can be read back from its
encoding exactly when `keep_connected` is set or there is a body, and its strings fit into the
buffer. -/
theorem transmitted_iff (r : Realloc) (hr : r.Succeeds) (resp : HttpResponse) (h : resp.Clean)
    (output : Buffer) (hwf : output.Wf) (htotal : output.totalSize < 2 ^ 31) :
    Transmitted r resp output ↔
      (resp.keepConnected = true ∨ resp.body.isSome = true) ∧
        SizesFit output.sizes (responseSizes resp) := by
  have hfree : output.sizes.front + output.sizes.room ≤ output.sizes.total := by
    simp only [Buffer.sizes, bufferFrontSpareSize, bufferWriteableSize]
    have := hwf.read_le
    have := hwf.write_le
    omega
  constructor
  · rintro ⟨output', bytes, hreturned, hcontent, hdecode, hlength⟩
    obtain ⟨hencodable, hfit⟩ := (encodeBuffer_returned_iff hr hwf htotal).1 ⟨_, hreturned⟩
    refine ⟨hencodable.body, hfit.sizesFit ?_⟩
    obtain ⟨output₁, hreturned₁, happ, -⟩ := encodeBuffer_returns hr hwf htotal hencodable hfit
    obtain rfl : output₁ = output' := Outcome.returned.inj (hreturned₁.symm.trans hreturned)
    rw [happ.content_eq, sentBytes_eq] at hcontent
    rw [← List.append_cancel_left hcontent] at hdecode hlength
    have hsame := sent_eq_text_of_decode h hencodable.body hdecode hlength
    rw [sentBytes_eq, hsame, ← responseBytes_eq, responseBytes]
  · rintro ⟨hbody, hsizes⟩
    obtain ⟨hfit, hwhole⟩ := stringsFit_of_sizesFit (z := output.sizes) hfree htotal hsizes
    obtain ⟨output', hreturned, happ, -⟩ :=
      encodeBuffer_returns hr hwf htotal ⟨hbody, h.filled⟩ hfit
    have hshort : resp.text.body.length < 2 ^ 31 :=
      hsizes.lt (hfree.trans_lt htotal) htotal _
        (List.mem_map_of_mem (show resp.body ∈ responseStrings resp by simp [responseStrings]))
    obtain ⟨hdecode, hlength⟩ := decode_of_lt h hbody (hshort.trans (by norm_num))
    refine ⟨output', _, hreturned, happ.content_eq, ?_, ?_⟩
    · rw [hwhole, ← responseBytes, responseBytes_eq]
      exact hdecode
    · rw [hwhole, ← responseBytes, responseBytes_eq]
      exact hlength

lemma greeting_clean : greeting.Clean where
  filled _ h := by cases h
  text := ⟨by decide, by decide⟩

theorem transmitted_iff_greeting :
    Transmitted (idleAnswers 0).realloc greeting (bufferNew fun _ => 0) :=
  (transmitted_iff (idleAnswers 0).realloc (idleAnswers_served 0) greeting greeting_clean
    (bufferNew fun _ => 0) (bufferNew_wf _) (bufferNew_total_lt _)).2
    ⟨.inl rfl, by rw [bufferNew_sizes]; decide⟩

lemma httpResponseNew_clean : httpResponseNew.Clean where
  filled _ _ i hi := absurd hi (Nat.not_lt_zero i)
  text := ⟨by decide, by decide⟩

/-- A new response, which is what is sent without a `requestCallback`, has no body to take the
length of. -/
theorem not_transmitted_new :
    ¬ ∀ r : Realloc, r.Succeeds → ∀ resp : HttpResponse, resp.Clean → ∀ output : Buffer,
      output.Wf → output.totalSize < 2 ^ 31 → Transmitted r resp output := by
  intro h
  obtain ⟨output', bytes, hreturned, -⟩ := h _ (idleAnswers_served 0) httpResponseNew
    httpResponseNew_clean _ (bufferNew_wf fun _ => 0) (bufferNew_total_lt fun _ => 0)
  exact absurd (encodable_of_returned hreturned).body (by decide)

end Yolanda
