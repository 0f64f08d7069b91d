import CPYuZe.Library.CString
import CPYuZe.Yolanda.Buffer

/-!
# Names of connections and of threads

A connection and an event loop thread have a name that is only logged: `sprintf` writes it into
16 bytes of its own, a fixed text and a number behind it.  The text and the zero behind it have
to fit (`sprintf_holds_iff`), so what can be written depends on how many characters the number
takes, and with it on how large a descriptor or the number of a thread becomes (`names_fit_iff`).

As in the copies of a request line, a store outside the allocation is a fault.  An allocation for a
name is taken for no larger than the 16 bytes it was asked for (`spare` of a `Heap` is zero).

Threads are numbered by `thread_pool_start`, which names one after the other; descriptors are
what `accept` answers.
-/

namespace Yolanda

/-- `sprintf(buf, …)` for a format that renders as `text`.  It stops at the first zero of the
format, so the one the source writes at its end adds nothing to the one behind every string. -/
def sprintf (buf text : List UInt8) : Call (List UInt8) := memcpy buf 0 (text ++ [0])

/-- What is allocated for a name. -/
def nameSize : ℕ := 16

def connectionText (connectedFd : ℤ) : List UInt8 := ascii "connection-" ++ decimalInt connectedFd

/-- `name` of a new connection; `fresh` is what the allocation holds. -/
def connectionName (fresh : ℕ → UInt8) (connectedFd : ℤ) : Call (List UInt8) :=
  sprintf ((List.range nameSize).map fresh) (connectionText connectedFd)

def threadText (i : ℤ) : List UInt8 := ascii "Thread-" ++ decimalInt (i + 1)

/-- `thread_name` of a new event loop thread. -/
def threadName (fresh : ℕ → UInt8) (i : ℤ) : Call (List UInt8) :=
  sprintf ((List.range nameSize).map fresh) (threadText i)

/-- The names that `thread_pool_start` gives to its threads, one turn of its loop a thread. -/
def threadNames (fresh : ℕ → ℕ → UInt8) : ℕ → Call (List (List UInt8))
  | 0 => .returned []
  | i + 1 => do
    let names ← threadNames fresh i
    let name ← threadName (fresh i) i
    pure (names ++ [name])

/-! ## What fits -/

/-- The call returns an allocation that holds the text as a C string. -/
def Holds (call : Call (List UInt8)) (text : List UInt8) : Prop :=
  ∃ name, call = .returned name ∧ name.length = nameSize ∧ cstr name = text

section Sprintf

variable {buf text : List UInt8}

lemma sprintf_of_lt (h : text.length < buf.length) :
    sprintf buf text = .returned (text ++ 0 :: buf.drop (text.length + 1)) := by
  have hfits : 0 + (text ++ [0]).length ≤ buf.length := by simp; omega
  rw [sprintf, memcpy, if_pos hfits]
  simp

lemma sprintf_of_le (h : buf.length ≤ text.length) : sprintf buf text = .faulted .outOfBounds := by
  apply if_neg
  simp
  omega

/-- There has to be a byte more than the text is long. -/
lemma sprintf_holds_iff (hbuf : buf.length = nameSize) (htext : 0 ∉ text) :
    Holds (sprintf buf text) text ↔ text.length < nameSize := by
  constructor
  · rintro ⟨name, hreturned, -⟩
    by_contra hle
    rw [sprintf_of_le (by omega)] at hreturned
    cases hreturned
  · intro hlt
    have hin : text.length < buf.length := by omega
    refine ⟨text ++ 0 :: buf.drop (text.length + 1), sprintf_of_lt hin, ?_,
      cstr_append_zero htext _⟩
    simp
    omega

lemma sprintf_faults (hbuf : buf.length = nameSize) (htext : 0 ∉ text)
    (h : ¬ Holds (sprintf buf text) text) : sprintf buf text = .faulted .outOfBounds := by
  rw [sprintf_holds_iff hbuf htext] at h
  apply sprintf_of_le
  omega

end Sprintf

section Numbers

variable (fresh : ℕ → UInt8)

lemma zero_notMem_connectionText (connectedFd : ℤ) : 0 ∉ connectionText connectedFd := by
  have hfixed : (0 : UInt8) ∉ ascii "connection-" := by decide
  rw [connectionText, List.mem_append, not_or]
  exact ⟨hfixed, zero_notMem_decimalInt connectedFd⟩

lemma zero_notMem_threadText (i : ℤ) : 0 ∉ threadText i := by
  have hfixed : (0 : UInt8) ∉ ascii "Thread-" := by decide
  rw [threadText, List.mem_append, not_or]
  exact ⟨hfixed, zero_notMem_decimalInt (i + 1)⟩

/-- Four characters are left for a descriptor. -/
lemma connectionName_holds_iff (connectedFd : ℤ) :
    Holds (connectionName fresh connectedFd) (connectionText connectedFd) ↔
      -1000 < connectedFd ∧ connectedFd < 10000 := by
  have hfour : (decimalInt connectedFd).length ≤ 3 + 1 ↔
      -10 ^ 3 < connectedFd ∧ connectedFd < 10 ^ (3 + 1) := length_decimalInt_le_iff (by norm_num)
  have hfixed : (ascii "connection-").length = 11 := rfl
  rw [connectionName, sprintf_holds_iff (by simp) (zero_notMem_connectionText connectedFd),
    connectionText, List.length_append, hfixed, nameSize]
  omega

/-- Eight characters are left for the number of a thread. -/
lemma threadName_holds_iff (i : ℤ) :
    Holds (threadName fresh i) (threadText i) ↔ -10000000 < i + 1 ∧ i + 1 < 100000000 := by
  have height : (decimalInt (i + 1)).length ≤ 7 + 1 ↔
      -10 ^ 7 < i + 1 ∧ i + 1 < 10 ^ (7 + 1) := length_decimalInt_le_iff (by norm_num)
  have hfixed : (ascii "Thread-").length = 7 := rfl
  rw [threadName, sprintf_holds_iff (by simp) (zero_notMem_threadText i), threadText,
    List.length_append, hfixed, nameSize]
  omega

/-- A name that does not fit is written past its allocation. -/
lemma connectionName_faults {connectedFd : ℤ} (h : 10000 ≤ connectedFd) :
    connectionName fresh connectedFd = .faulted .outOfBounds := by
  apply sprintf_faults (by simp) (zero_notMem_connectionText connectedFd)
  intro hholds
  have hbound := ((connectionName_holds_iff fresh connectedFd).1 hholds).2
  omega

/-- The name of a connection fits for descriptors of up to four digits, and the name of a thread
for numbers of up to eight. -/
theorem names_fit_iff (connectedFd i : ℤ) :
    (Holds (connectionName fresh connectedFd) (connectionText connectedFd) ↔
      -1000 < connectedFd ∧ connectedFd < 10000) ∧
    (Holds (threadName fresh i) (threadText i) ↔ -10000000 < i + 1 ∧ i + 1 < 100000000) :=
  ⟨connectionName_holds_iff fresh connectedFd, threadName_holds_iff fresh i⟩

/-- The descriptor 10000 has a digit too many. -/
theorem connectionName_not_holds :
    connectionName (fun _ => 0) 10000 = .faulted .outOfBounds ∧
      ¬ Holds (connectionName (fun _ => 0) 10000) (connectionText 10000) := by
  constructor
  · exact connectionName_faults _ le_rfl
  · rw [connectionName_holds_iff]
    norm_num

end Numbers

/-! ## A whole server -/

/-- The names of all connections fit as long as descriptors are below 10000. -/
lemma connectionNames_hold_iff (limit : ℤ) (hlimit : 0 < limit) :
    (∀ fresh connectedFd, 0 ≤ connectedFd → connectedFd < limit →
      Holds (connectionName fresh connectedFd) (connectionText connectedFd)) ↔ limit ≤ 10000 := by
  simp only [connectionName_holds_iff]
  constructor
  · intro h
    have hlast := (h (fun _ => 0) (limit - 1) (by omega) (by omega)).2
    omega
  · intro h _ connectedFd hzero hlt
    omega

/-- The threads of a pool all get their names exactly if there are not too many of them. -/
lemma threadNames_returned_iff (fresh : ℕ → ℕ → UInt8) (n : ℕ) :
    (∃ names, threadNames fresh n = .returned names ∧
      names.map cstr = (List.range n).map fun i : ℕ => threadText i) ↔ n < 100000000 := by
  induction n with
  | zero => simp [threadNames]
  | succ i ih =>
    have hname := threadName_holds_iff (fresh i) i
    constructor
    · rintro ⟨names, hnames, htexts⟩
      obtain ⟨names, hfirst, hlast⟩ := Outcome.bind_eq_returned.1 hnames
      obtain ⟨name, hlast, heq⟩ := Outcome.bind_eq_returned.1 hlast
      by_contra hle
      have hfaults : threadName (fresh i) i = .faulted .outOfBounds := by
        apply sprintf_faults (by simp) (zero_notMem_threadText i)
        intro hholds
        have hbound := (hname.1 hholds).2
        omega
      rw [hfaults] at hlast
      cases hlast
    · intro hlt
      obtain ⟨names, hfirst, htexts⟩ := ih.2 (by omega)
      obtain ⟨name, hreturned, -, htext⟩ := hname.2 (by omega)
      refine ⟨names ++ [name], ?_, ?_⟩
      · rw [threadNames, hfirst, Outcome.returned_bind, hreturned]
        rfl
      · rw [List.map_append, htexts, List.range_succ, List.map_append, List.map_singleton,
          List.map_singleton, htext]

end Yolanda
