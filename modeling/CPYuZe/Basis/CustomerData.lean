import CPYuZe.Library.Outcome

/-!
# Customer data under copy-on-write

`CustomerData` keeps a map behind a `shared_ptr`.  `Query` copies the pointer under the lock and
looks up the customer and the stock without it; the copy is meant to keep the map it was made from
as it is, since `Update` copies the map first if its pointer is not the only one.

A step of `Op` is a whole `Update`, or a part of a `Query`: it copies the pointer, it reads `_data`
to call `find` on the map behind it, it reads `_data` once more to call `end`, it compares the two
iterators and comes back.  The map objects are numbered in the order in which they are made, and a
`Query` that has not come back is in `queries`, with the pointer it has copied and what the map was
then.

`snapshot_retained` is about the copies: no `Update` changes a map that a `Query` holds on to.  The
search, however, goes to the map behind `_data` and not to that behind the copy, and so does the
end it is compared with.  `keepsSnapshots_iff` says when they are all the same: as long as no
`Update` comes in before `_data` has been read for the second time.
-/

namespace CustomerData

abbrev Entry := String × ℤ

abbrev EntryList := List Entry

abbrev Map := String → Option EntryList

/-- `FindEntry`. -/
def findEntry (entries : EntryList) (stock : String) : ℤ :=
  match entries.find? fun src => src.1 = stock with
  | none => -1
  | some dst => dst.2

/-- What `Query` makes of a map. -/
def lookup (map : Map) (customer stock : String) : ℤ :=
  match map customer with
  | none => -1
  | some entries => findEntry entries stock

/-- How far a `Query` has come. -/
inductive Stage
  /-- It has copied the pointer. -/
  | copied
  /-- It has read `_data` and searches this map. -/
  | searching (object : ℕ)
  /-- It has an iterator of `object`, which is at the customer if `present` holds and at the end
  otherwise, and has read `_data` again for the end of the map `other`. -/
  | found (object : ℕ) (present : Bool) (other : ℕ)

/-- The map that is searched. -/
def Stage.object : Stage → Option ℕ
  | .copied => none
  | .searching object | .found object _ _ => some object

/-- A `Query` that has copied the pointer and has not come back. -/
structure Query where
  thread : ℕ
  customer : String
  stock : String
  /-- Its copy of the pointer. -/
  data : ℕ
  /-- The map behind the pointer when it was copied. -/
  version : Map
  /-- Whether there has been an `Update` since. -/
  updated : Bool
  stage : Stage

/-- What the language does not define. -/
inductive Fault
  /-- A map is searched that nobody holds on to any more. -/
  | useAfterFree
  /-- Iterators of two maps are compared. -/
  | foreignIterator

structure State where
  /-- The map objects. -/
  maps : ℕ → Map
  /-- The number of map objects that have been made. -/
  made : ℕ
  /-- `_data`. -/
  data : ℕ
  queries : List Query
  /-- What the queries that have come back have returned. -/
  returned : List ℤ

namespace State

/-- The constructor. -/
def init : State where
  maps _ _ := none
  made := 1
  data := 0
  queries := []
  returned := []

/-- `use_count()` of the pointers to a map object. -/
def useCount (s : State) (object : ℕ) : ℕ :=
  (if s.data = object then 1 else 0) + s.queries.countP fun query => query.data = object

/-- The `Query` that a thread is in. -/
def queryOf (s : State) (thread : ℕ) : Option Query :=
  s.queries.find? fun query => query.thread = thread

def setStage (s : State) (thread : ℕ) (stage : Query → Stage) : State :=
  { s with
    queries := s.queries.map fun query =>
      if query.thread = thread then { query with stage := stage query } else query }

/-- `MapPtr data = GetData()`. -/
def getData (s : State) (thread : ℕ) (customer stock : String) : State :=
  { s with
    queries := ⟨thread, customer, stock, s.data, s.maps s.data, false, .copied⟩ :: s.queries }

/-- `Query` reads `_data` to call `find` on the map behind it. -/
def readData (s : State) (thread : ℕ) : State :=
  s.setStage thread fun _ => .searching s.data

/-- The search has come to an end, and `Query` reads `_data` to call `end`. -/
def readEnd (s : State) (thread : ℕ) : Outcome Fault State :=
  match s.queryOf thread with
  | some ⟨_, _, _, _, _, _, .searching object⟩ =>
    if s.useCount object = 0 then .faulted .useAfterFree
    else .returned (s.setStage thread fun query =>
      .found object (s.maps object query.customer).isSome s.data)
  | some ⟨_, _, _, _, _, _, .copied⟩ | some ⟨_, _, _, _, _, _, .found _ _ _⟩ | none => .returned s

/-- A `Query` returns and its copy of the pointer ends. -/
def leave (s : State) (thread : ℕ) (result : ℤ) : State :=
  { s with
    queries := s.queries.filter fun query => query.thread ≠ thread
    returned := s.returned ++ [result] }

/-- The comparison of the iterators and what `Query` returns. -/
def finish (s : State) (thread : ℕ) : Outcome Fault State :=
  match s.queryOf thread with
  | some ⟨_, customer, stock, _, _, _, .found object present other⟩ =>
    if object ≠ other then .faulted .foreignIterator
    else if present = false then .returned (s.leave thread (-1))
    else if s.useCount object = 0 then .faulted .useAfterFree
    else .returned (s.leave thread (lookup (s.maps object) customer stock))
  | some ⟨_, _, _, _, _, _, .copied⟩ | some ⟨_, _, _, _, _, _, .searching _⟩ | none => .returned s

/-- `Update` up to the assignment: the map is copied if its pointer is not the only one. -/
def unshare (s : State) : State :=
  if s.useCount s.data = 1 then s
  else
    { s with
      maps := Function.update s.maps s.made (s.maps s.data)
      made := s.made + 1
      data := s.made }

/-- `(*_data)[customer] = entries`. -/
def assign (s : State) (customer : String) (entries : EntryList) : State :=
  { s with
    maps := Function.update s.maps s.data (Function.update (s.maps s.data) customer entries) }

def update (s : State) (customer : String) (entries : EntryList) : State :=
  { s.unshare.assign customer entries with
    queries := s.queries.map fun query => { query with updated := true } }

end State

inductive Op
  | getData (thread : ℕ) (customer stock : String)
  | readData (thread : ℕ)
  | readEnd (thread : ℕ)
  | finish (thread : ℕ)
  | update (customer : String) (entries : EntryList)

def step (s : State) : Op → Outcome Fault State
  | .getData thread customer stock => .returned (s.getData thread customer stock)
  | .readData thread => .returned (s.readData thread)
  | .readEnd thread => s.readEnd thread
  | .finish thread => s.finish thread
  | .update customer entries => .returned (s.update customer entries)

/-- The steps that can be next; a thread is in one `Query` at a time. -/
def Possible (s : State) : Op → Prop
  | .getData thread _ _ => ∀ query ∈ s.queries, query.thread ≠ thread
  | .readData thread => ∃ query, s.queryOf thread = some query ∧ query.stage = .copied
  | .readEnd thread =>
    ∃ query object, s.queryOf thread = some query ∧ query.stage = .searching object
  | .finish thread => ∃ query object present other,
      s.queryOf thread = some query ∧ query.stage = .found object present other
  | .update _ _ => True

variable {s s' : State} {ops : List Op}

namespace State

lemma mem_of_queryOf {thread : ℕ} {query : Query} (h : s.queryOf thread = some query) :
    query ∈ s.queries ∧ query.thread = thread :=
  ⟨List.mem_of_find?_eq_some h, by simpa using List.find?_some h⟩

lemma mem_setStage {thread : ℕ} {stage : Query → Stage} {query : Query}
    (h : query ∈ (s.setStage thread stage).queries) :
    query ∈ s.queries ∧ query.thread ≠ thread ∨
      ∃ old ∈ s.queries, old.thread = thread ∧ query = { old with stage := stage old } := by
  obtain ⟨old, hold, rfl⟩ := List.mem_map.1 h
  by_cases hthread : old.thread = thread
  · rw [if_pos hthread]
    exact .inr ⟨old, hold, hthread, rfl⟩
  · rw [if_neg hthread]
    exact .inl ⟨hold, hthread⟩

/-- A step that comes back has seen to the stage of a `Query`, or there was nothing to do. -/
lemma readEnd_cases {thread : ℕ} (h : s.readEnd thread = .returned s') :
    s' = s ∨ ∃ query object, s.queryOf thread = some query ∧ query.stage = .searching object ∧
      s' = s.setStage thread fun query =>
        .found object (s.maps object query.customer).isSome s.data := by
  unfold readEnd at h
  split at h
  · next hquery =>
    split at h
    · cases h
    · cases h
      exact .inr ⟨_, _, hquery, rfl, rfl⟩
  all_goals
    cases h
    exact .inl rfl

/-- A step that comes back has ended the `Query`, or there was none. -/
lemma finish_cases {thread : ℕ} (h : s.finish thread = .returned s') :
    s' = s ∨ ∃ result, s' = s.leave thread result := by
  unfold finish at h
  split at h
  · split_ifs at h
    · cases h
      exact .inr ⟨_, rfl⟩
    · cases h
      exact .inr ⟨_, rfl⟩
  all_goals
    cases h
    exact .inl rfl

/-- A map that a `Query` holds on to is in use. -/
lemma useCount_ne_zero {query : Query} (hquery : query ∈ s.queries) :
    s.useCount query.data ≠ 0 := by
  have hpos : 0 < s.queries.countP fun other => other.data = query.data :=
    List.countP_pos_iff.2 ⟨query, hquery, decide_eq_true rfl⟩
  unfold useCount
  omega

end State

/-! ## The maps that are held on to -/

/-- Every map that a `Query` holds on to is what it was when the pointer was copied. -/
structure Retained (s : State) : Prop where
  made : s.data < s.made
  queries : ∀ query ∈ s.queries, query.data < s.made ∧ s.maps query.data = query.version

namespace Retained

lemma init : Retained State.init where
  made := Nat.zero_lt_one
  queries _ h := absurd h List.not_mem_nil

/-- The pointer is the only one, or the map is copied to a new object. -/
lemma unshare (h : Retained s) :
    Retained s.unshare ∧ ∀ query ∈ s.queries, query.data ≠ s.unshare.data := by
  unfold State.unshare
  split
  · next hcount =>
    refine ⟨h, fun query hquery heq => ?_⟩
    have hpos : 0 < s.queries.countP fun query => query.data = s.data :=
      List.countP_pos_iff.2 ⟨query, hquery, decide_eq_true heq⟩
    rw [State.useCount, if_pos rfl] at hcount
    omega
  · next =>
    refine ⟨⟨Nat.lt_succ_self _, fun query hquery => ?_⟩, fun query hquery => ?_⟩
    · obtain ⟨hlt, hversion⟩ := h.queries query hquery
      exact ⟨hlt.trans (Nat.lt_succ_self _), (Function.update_of_ne hlt.ne _ _).trans hversion⟩
    · exact (h.queries query hquery).1.ne

lemma unshare_queries (s : State) : s.unshare.queries = s.queries := by
  unfold State.unshare
  split <;> rfl

/-- What is changed in place, nobody else holds on to. -/
lemma update (h : Retained s) (customer : String) (entries : EntryList) :
    Retained (s.update customer entries) := by
  obtain ⟨hunshare, halone⟩ := h.unshare
  refine ⟨hunshare.made, fun query hquery => ?_⟩
  obtain ⟨old, hold, rfl⟩ := List.mem_map.1 hquery
  obtain ⟨hlt, hversion⟩ := hunshare.queries old (unshare_queries s ▸ hold)
  exact ⟨hlt, (Function.update_of_ne (halone old hold) _ _).trans hversion⟩

/-- The stages of the queries are of no account. -/
lemma setStage (h : Retained s) (thread : ℕ) (stage : Query → Stage) :
    Retained (s.setStage thread stage) := by
  refine ⟨h.made, fun query hquery => ?_⟩
  rcases State.mem_setStage hquery with ⟨hold, -⟩ | ⟨old, hold, -, rfl⟩
  · exact h.queries query hold
  · exact h.queries old hold

lemma step (h : Retained s) {op : Op} (hstep : step s op = .returned s') : Retained s' := by
  cases op with
  | getData thread customer stock =>
    cases hstep
    exact ⟨h.made, List.forall_mem_cons.2 ⟨⟨h.made, rfl⟩, h.queries⟩⟩
  | readData thread =>
    cases hstep
    exact h.setStage _ _
  | readEnd thread =>
    rcases State.readEnd_cases hstep with rfl | ⟨query, object, -, -, rfl⟩
    · exact h
    · exact h.setStage _ _
  | finish thread =>
    rcases State.finish_cases hstep with rfl | ⟨result, rfl⟩
    · exact h
    · exact ⟨h.made, fun query hquery => h.queries query (List.mem_of_mem_filter hquery)⟩
  | update customer entries =>
    cases hstep
    exact h.update customer entries

end Retained

/-- In every run, the map behind the pointer that a `Query` has copied stays as it was. -/
theorem snapshot_retained (hrun : Outcome.run step State.init ops = .returned s) :
    ∀ query ∈ s.queries, s.maps query.data = query.version := by
  have h : Retained s := Outcome.run_preserves Retained (fun _ _ _ hs hstep => hs.step hstep)
    Retained.init hrun
  exact fun query hquery => (h.queries query hquery).2

/-! ## What the queries see -/

/-- Both times a `Query` reads `_data` it is the pointer it has copied, what it returns is the
lookup in the map as it was then, and no `Update` changes a map in place that is searched. -/
def KeepsSnapshots (s : State) : Op → Prop
  | .getData _ _ _ => True
  | .readData thread => ∀ query ∈ s.queries, query.thread = thread → s.data = query.data
  | .readEnd thread =>
    (∀ query ∈ s.queries, query.thread = thread → s.data = query.data) ∧
      ∃ s', s.readEnd thread = .returned s'
  | .finish thread => ∀ query object present other, s.queryOf thread = some query →
      query.stage = .found object present other →
        s.finish thread =
          .returned (s.leave thread (lookup query.version query.customer query.stock))
  | .update _ _ => ∀ query ∈ s.queries, query.stage.object ≠ some s.unshare.data

/-- There has been no `Update` since the pointer was copied when `_data` is read. -/
def ReadsInTime (s : State) : Op → Prop
  | .readData thread | .readEnd thread =>
    ∀ query ∈ s.queries, query.thread = thread → query.updated = false
  | .getData _ _ _ | .finish _ | .update _ _ => True

/-- What a `Query` has read is the pointer it has copied, and it has found the customer if the
customer was there. -/
def Stage.Own (stage : Stage) (query : Query) : Prop :=
  match stage with
  | .copied => True
  | .searching object => object = query.data
  | .found object present other =>
    object = query.data ∧ other = query.data ∧ present = (query.version query.customer).isSome

lemma Stage.Own.object {stage : Stage} {query : Query} (h : stage.Own query) {object : ℕ}
    (hobject : stage.object = some object) : object = query.data := by
  cases stage with
  | copied => cases hobject
  | searching _ =>
    cases hobject
    exact h
  | found _ _ _ =>
    cases hobject
    exact h.1

/-- The copy is that of `_data` exactly as long as there has been no `Update`, and what is
searched is what is held on to. -/
structure Current (s : State) : Prop where
  retained : Retained s
  current : ∀ query ∈ s.queries, query.updated = false ↔ s.data = query.data
  own : ∀ query ∈ s.queries, query.stage.Own query

namespace Current

lemma init : Current State.init where
  retained := Retained.init
  current _ h := absurd h List.not_mem_nil
  own _ h := absurd h List.not_mem_nil

/-- The map that is searched is in use. -/
lemma readEnd_returns (h : Current s) (thread : ℕ) : ∃ s', s.readEnd thread = .returned s' := by
  unfold State.readEnd
  split
  · next hquery =>
    have hmem := (State.mem_of_queryOf hquery).1
    rw [show _ = _ from h.own _ hmem, if_neg (State.useCount_ne_zero hmem)]
    exact ⟨_, rfl⟩
  all_goals exact ⟨_, rfl⟩

/-- A `Query` returns what it would have found in the map when it copied the pointer. -/
lemma finish_eq (h : Current s) {thread object other : ℕ} {present : Bool} {query : Query}
    (hquery : s.queryOf thread = some query) (hstage : query.stage = .found object present other) :
    s.finish thread =
      .returned (s.leave thread (lookup query.version query.customer query.stock)) := by
  obtain ⟨hmem, -⟩ := State.mem_of_queryOf hquery
  obtain ⟨_, customer, stock, data, version, _, stage⟩ := query
  subst hstage
  obtain ⟨hobject, hother, hpresent⟩ : object = data ∧ other = data ∧
      present = (version customer).isSome := h.own _ hmem
  have hversion : s.maps data = version := (h.retained.queries _ hmem).2
  have huse : s.useCount data ≠ 0 := State.useCount_ne_zero hmem
  unfold State.finish
  rw [hquery]
  simp only [hobject, hother, hpresent, hversion, huse, ne_eq, not_true_eq_false, if_false]
  cases hcustomer : version customer with
  | none => simp [lookup, hcustomer]
  | some entries => simp

lemma keepsSnapshots (h : Current s) (op : Op) : KeepsSnapshots s op ↔ ReadsInTime s op := by
  cases op with
  | getData thread customer stock => exact Iff.rfl
  | readData thread =>
    exact forall₃_congr fun query hquery _ => (h.current query hquery).symm
  | readEnd thread =>
    refine (and_iff_left (h.readEnd_returns thread)).trans ?_
    exact forall₃_congr fun query hquery _ => (h.current query hquery).symm
  | finish thread =>
    exact iff_of_true (fun query object present other hquery hstage => h.finish_eq hquery hstage)
      trivial
  | update customer entries =>
    refine iff_of_true (fun query hquery hobject => ?_) trivial
    exact h.retained.unshare.2 query hquery ((h.own query hquery).object hobject).symm

/-- A stage that is reached by reading the pointer that was copied. -/
lemma setStage (h : Current s) {thread : ℕ} {stage : Query → Stage}
    (hown : ∀ query ∈ s.queries, query.thread = thread → (stage query).Own query) :
    Current (s.setStage thread stage) := by
  refine ⟨h.retained.setStage _ _, fun query hquery => ?_, fun query hquery => ?_⟩
  · rcases State.mem_setStage hquery with ⟨hold, -⟩ | ⟨old, hold, -, rfl⟩
    · exact h.current query hold
    · exact h.current old hold
  · rcases State.mem_setStage hquery with ⟨hold, -⟩ | ⟨old, hold, hthread, rfl⟩
    · exact h.own query hold
    · exact hown old hold hthread

lemma step (h : Current s) {op : Op} (hop : KeepsSnapshots s op)
    (hstep : step s op = .returned s') : Current s' := by
  have hretained := h.retained.step hstep
  cases op with
  | getData thread customer stock =>
    cases hstep
    exact ⟨hretained, List.forall_mem_cons.2 ⟨iff_of_true rfl rfl, h.current⟩,
      List.forall_mem_cons.2 ⟨trivial, h.own⟩⟩
  | readData thread =>
    cases hstep
    exact h.setStage hop
  | readEnd thread =>
    rcases State.readEnd_cases hstep with rfl | ⟨query, object, hquery, hstage, rfl⟩
    · exact h
    · obtain ⟨hmem, hthread⟩ := State.mem_of_queryOf hquery
      have hobject : object = s.data := by
        have hown := h.own query hmem
        rw [hstage] at hown
        exact (show object = query.data from hown).trans (hop.1 query hmem hthread).symm
      refine h.setStage fun old hold hthread' => ?_
      have hdata := hop.1 old hold hthread'
      rw [hobject, hdata, (h.retained.queries old hold).2]
      exact ⟨rfl, rfl, rfl⟩
  | finish thread =>
    rcases State.finish_cases hstep with rfl | ⟨result, rfl⟩
    · exact h
    · exact ⟨hretained, fun query hquery => h.current query (List.mem_of_mem_filter hquery),
        fun query hquery => h.own query (List.mem_of_mem_filter hquery)⟩
  | update customer entries =>
    cases hstep
    refine ⟨hretained, fun query hquery => ?_, fun query hquery => ?_⟩
    · obtain ⟨old, hold, rfl⟩ := List.mem_map.1 hquery
      exact iff_of_false Bool.false_ne_true.symm fun heq =>
        h.retained.unshare.2 old hold heq.symm
    · obtain ⟨old, hold, rfl⟩ := List.mem_map.1 hquery
      exact h.own old hold

end Current

/-- The queries of a run see their snapshots exactly if each of them has read `_data` twice before
the next `Update`. -/
theorem keepsSnapshots_iff (ops : List Op) :
    Outcome.Throughout step KeepsSnapshots State.init ops ↔
      Outcome.Throughout step ReadsInTime State.init ops :=
  Outcome.throughout_iff (fun _ op hs => hs.keepsSnapshots op)
    (fun _ _ _ hs hop hstep => hs.step hop hstep) Current.init

-- an `Update` between the two reads, and a customer who is not there
example : Outcome.run step State.init [.getData 0 "a" "x", .readData 0, .update "b" [],
    .readEnd 0, .finish 0] = .faulted .foreignIterator := rfl

/-- A thread copies the pointer, an entry comes in, and the thread searches the new map. -/
theorem not_keepsSnapshots_update : ∃ (ops : List Op) (s : State),
    Outcome.Throughout step Possible State.init ops ∧
    Outcome.run step State.init ops = .returned s ∧ s.returned = [1] ∧
    ¬ Outcome.Throughout step KeepsSnapshots State.init ops := by
  refine ⟨[.getData 0 "a" "x", .update "a" [("x", 1)], .readData 0, .readEnd 0, .finish 0], _, ?_,
    rfl, rfl, fun hkeeps => ?_⟩
  · refine (Outcome.throughout_cons_returned rfl _).2 ⟨fun _ h => absurd h List.not_mem_nil, ?_⟩
    refine (Outcome.throughout_cons_returned rfl _).2 ⟨trivial, ?_⟩
    refine (Outcome.throughout_cons_returned rfl _).2 ⟨⟨_, rfl, rfl⟩, ?_⟩
    refine (Outcome.throughout_cons_returned rfl _).2 ⟨⟨_, _, rfl, rfl⟩, ?_⟩
    exact (Outcome.throughout_cons_returned rfl _).2 ⟨⟨_, _, _, _, rfl, rfl⟩, trivial⟩
  · have hfinish := (((hkeeps.2 _ rfl).2 _ rfl).2 _ rfl).2 _ rfl
    have hlookup := hfinish.1 _ _ _ _ rfl rfl
    exact absurd (congrArg State.returned (Outcome.returned.inj hlookup)) (by decide)

end CustomerData
