import CPYuZe.Yolanda.EventLoop
import CPYuZe.Yolanda.Messages

/-!
# The growth of a channel map

`map_make_space` again, down to the memory it asks for.  It doubles the number of entries until the
slot is among them, passes the product of that number and the size of a pointer to `realloc`, and
clears what is new.  Number, product and the length to be cleared are `int`s, and the product is a
`size_t` for `realloc` and `memset`: below the slot `2 ^ 27` all of them are what they are meant to
be (`mapMakeSpace_spec`), from there on the product is not, and from `2 ^ 30` on the doubling never
ends (`mapMakeSpace_running`).

The allocation holds as many entries as were asked for, whatever `nentries` says.  `realloc` with a
size of zero gives the old allocation back; what is left of a map is then without entries.

A run is a list of add requests.  `event_loop_handle_pending_add` makes room for a descriptor and
stores the channel if none is there; the dispatcher it goes on to call does not know the map and is
left out.  Every request of a run leaves what is stored alone exactly if it is for a descriptor that
has an entry or is below `2 ^ 27` (`stores_iff`).  There the map of the event loop is what becomes
of the memory (`handlePendingAdd_refines`).
-/

namespace Yolanda

/-- `sizeof(struct channel *)`. -/
def pointerSize : ℤ := 8

/-- The `int` that a product comes to. -/
def intProduct (m n : ℤ) : ℤ := (m * n).bmod (2 ^ 32)

/-- A `struct channel_map`; `entries` are those its allocation has room for. -/
structure MapMemory where
  nentries : ℤ
  entries : List (Option ChannelPtr)

/-- What `realloc()` answers to a request for a number of bytes: `NULL`, or memory whose entries
behind the old ones are unknown. -/
abbrev ReallocEntries := ℕ → Option (ℕ → Option ChannelPtr)

/-- What `map_make_space` returns, what becomes of the map, and the size passed to `realloc`. -/
structure Space where
  value : ℤ
  map : MapMemory
  requested : Option ℕ

/-- An allocation of `size` bytes with the old entries in front. -/
def reallocated (entries : List (Option ChannelPtr)) (size : ℕ) (fresh : ℕ → Option ChannelPtr) :
    List (Option ChannelPtr) :=
  entries.take (size / 8) ++ (List.range (size / 8 - entries.length)).map fresh

/-- `memset(&tmp[i], 0, size)`. -/
def memsetEntries (tmp : List (Option ChannelPtr)) (i size : ℕ) :
    Call (List (Option ChannelPtr)) :=
  if 8 * i + size ≤ 8 * tmp.length then
    .returned (tmp.take i ++ List.replicate (size / 8) none ++ tmp.drop (i + size / 8))
  else .faulted .outOfBounds

namespace MapMemory

/-- The number of entries that is doubled. -/
def first (map : MapMemory) : ℤ := if map.nentries ≠ 0 then map.nentries else 32

def mapMakeSpace (realloc : ReallocEntries) (map : MapMemory) (slot msize : ℤ) : Call Space :=
  if map.nentries ≤ slot then do
    let nentries ← Outcome.loop (doubleTurn slot) maxDoublings map.first
    let size := toSizeT (intProduct nentries msize)
    match realloc size with
    | none => pure ⟨-1, if size = 0 then { map with entries := [] } else map, some size⟩
    | some fresh => do
      let tmp ← memsetEntries (reallocated map.entries size fresh) map.nentries.toNat
        (toSizeT (intProduct (nentries - map.nentries) msize))
      pure ⟨0, ⟨nentries, tmp⟩, some size⟩
  else .returned ⟨0, map, none⟩

def mapInit : MapMemory := ⟨0, []⟩

/-- The map as the event loop sees it. -/
def channelMap (map : MapMemory) : ChannelMap := ⟨map.entries⟩

/-- `nentries` is the length of the allocation, zero or 32 doubled a number of times. -/
structure Sized (map : MapMemory) : Prop where
  nentries_eq : map.nentries = map.entries.length
  power : map.nentries = 0 ∨ ∃ k : ℕ, map.nentries = 32 * 2 ^ k
  lt : map.nentries < 2 ^ 31

/-- The number of entries that a slot takes: the first one above it. -/
def Needs (map : MapMemory) (slot : ℤ) : ℤ → Prop :=
  IsLeast {n | slot < n ∧ ∃ j : ℕ, n = map.first * 2 ^ j}

/-- What `map_make_space` should do.  A slot that is there needs nothing; for another one memory of
the size of all entries is asked for, and either the map has grown by empty entries or it is as it
was. -/
structure MakesSpace (map : MapMemory) (slot : ℤ) (space : Space) : Prop where
  kept : slot < map.nentries → space = ⟨0, map, none⟩
  grown : map.nentries ≤ slot → ∃ n, map.Needs slot n ∧
    space.requested = some (n * pointerSize).toNat ∧
    (space.value = 0 ∧
        space.map = ⟨n, map.entries ++ List.replicate (n - map.nentries).toNat none⟩ ∨
      space.value = -1 ∧ space.map = map)

/-- `map_make_space` comes back and does what it should. -/
def HasSpace (realloc : ReallocEntries) (map : MapMemory) (slot : ℤ) : Prop :=
  ∃ space, mapMakeSpace realloc map slot pointerSize = .returned space ∧ MakesSpace map slot space

end MapMemory

/-- A request to add a channel for a descriptor, with what `realloc` answers when it is handled. -/
structure AddRequest where
  fd : ℤ
  channel : ChannelPtr
  realloc : ReallocEntries

namespace MapMemory

/-- `if (entries[fd] == NULL) entries[fd] = channel`. -/
def enter (map : MapMemory) (fd : ℤ) (channel : ChannelPtr) : Call MapMemory :=
  match map.entries[fd.toNat]? with
  | none => .faulted .outOfBounds
  | some none => .returned { map with entries := map.entries.set fd.toNat (some channel) }
  | some (some _) => .returned map

def handlePendingAdd (map : MapMemory) (a : AddRequest) : Call MapMemory :=
  if a.fd < 0 then .returned map
  else if a.fd ≥ map.nentries then do
    let space ← mapMakeSpace a.realloc map a.fd pointerSize
    if space.value = -1 then pure space.map else enter space.map a.fd a.channel
  else enter map a.fd a.channel

/-- What is stored stays, and at most the empty entry of the descriptor gets the channel. -/
def Undisturbed (map map' : MapMemory) (fd : ℤ) (channel : ChannelPtr) : Prop :=
  ∀ fd', map'.channelMap.entry fd' = map.channelMap.entry fd' ∨
    fd' = fd ∧ map.channelMap.entry fd' = none ∧ map'.channelMap.entry fd' = some channel

/-- Room is made for the descriptor where there is none, and other entries are left alone. -/
structure Stores (map : MapMemory) (a : AddRequest) : Prop where
  hasSpace : map.nentries ≤ a.fd → map.HasSpace a.realloc a.fd
  undisturbed : ∃ map', handlePendingAdd map a = .returned map' ∧
    map.Undisturbed map' a.fd a.channel

/-- The descriptor has an entry, or it is small. -/
def Within (map : MapMemory) (a : AddRequest) : Prop := a.fd < map.nentries ∨ a.fd < 2 ^ 27

end MapMemory

/-! ## One growth -/

namespace MapMemory

section Growth

variable {map : MapMemory} {slot n : ℤ}

lemma Sized.channelMap_nentries (h : map.Sized) : map.channelMap.nentries = map.nentries :=
  h.nentries_eq.symm

lemma Sized.nonneg (h : map.Sized) : 0 ≤ map.nentries := by
  rw [h.nentries_eq]
  omega

/-- The doubling starts from a power of two, and that is 32 or the number of entries. -/
lemma Sized.first_eq (h : map.Sized) :
    ∃ k, map.first = 2 ^ k ∧ k ≤ 30 ∧ (map.first = 32 ∨ map.first = map.nentries) := by
  rcases h.power with hzero | ⟨k, hk⟩
  · have hfirst : map.first = 32 := if_neg (not_not.2 hzero)
    exact ⟨5, hfirst, by omega, .inl hfirst⟩
  · have hpos : (0 : ℤ) < 2 ^ k := by positivity
    have hfirst : map.first = map.nentries := if_pos (by omega)
    have hpow : map.first = 2 ^ (k + 5) := by
      rw [hfirst, hk, pow_add]
      ring
    refine ⟨k + 5, hpow, ?_, .inr hfirst⟩
    have hlt := h.lt
    rw [← hfirst, hpow] at hlt
    have hk := (pow_lt_pow_iff_right₀ (by norm_num)).1 hlt
    omega

/-- The first power of two above the slot is what it needs. -/
lemma needs_two_pow {k q : ℕ} (hfirst : map.first = 2 ^ k) (hlt : slot < 2 ^ q) (hkq : k ≤ q)
    (hleast : k < q → 2 ^ (q - 1) ≤ slot) : map.Needs slot (2 ^ q) := by
  refine ⟨⟨hlt, q - k, ?_⟩, ?_⟩
  · rw [hfirst, ← pow_add]
    congr 1
    omega
  · rintro n ⟨hn, j, rfl⟩
    rw [hfirst, ← pow_add] at hn ⊢
    apply pow_le_pow_right₀ (by norm_num)
    by_contra hgt
    have hle : (2 : ℤ) ^ (k + j) ≤ 2 ^ (q - 1) := pow_le_pow_right₀ (by norm_num) (by omega)
    have hslot := hleast (by omega)
    omega

/-- What is needed for a slot outside the map is at most twice the slot. -/
lemma Needs.le (hneeds : map.Needs slot n) (hpos : 0 < map.first) (hfirst : map.first ≤ slot) :
    n ≤ 2 * slot := by
  obtain ⟨⟨hlt, j, rfl⟩, hleast⟩ := hneeds
  cases j with
  | zero => omega
  | succ j =>
    have hdouble : map.first * 2 ^ (j + 1) = 2 * (map.first * 2 ^ j) := by
      rw [pow_succ]
      ring
    by_contra hgt
    have hhalf : slot < map.first * 2 ^ j := by omega
    have hle := hleast ⟨hhalf, j, rfl⟩
    omega

/-- Within the range of `int` nothing is lost. -/
lemma intProduct_of_lt {m n : ℤ} (hm : 0 ≤ m) (hn : 0 ≤ n) (h : m * n < 2 ^ 31) :
    toSizeT (intProduct m n) = (m * n).toNat := by
  have hpos := mul_nonneg hm hn
  rw [intProduct, Int.bmod_eq_of_le (by omega) (by omega), toSizeT]
  omega

/-- What is passed to `realloc` is near zero or near the end of memory. -/
lemma toSizeT_intProduct (m n : ℤ) : toSizeT (intProduct m n) < 2 ^ 31 ∨
    2 ^ 64 - 2 ^ 31 ≤ toSizeT (intProduct m n) := by
  have hlow := Int.le_bmod (x := m * n) (m := 2 ^ 32) (by norm_num)
  have hhigh := Int.bmod_lt (x := m * n) (m := 2 ^ 32) (by norm_num)
  unfold toSizeT intProduct
  omega

/-- Memory of the right size for more entries, with what is new cleared, is the old entries and
empty ones behind them. -/
lemma memsetEntries_reallocated {entries : List (Option ChannelPtr)} {m : ℕ}
    (hm : entries.length ≤ m) (fresh : ℕ → Option ChannelPtr) :
    memsetEntries (reallocated entries (8 * m) fresh) entries.length (8 * (m - entries.length)) =
      .returned (entries ++ List.replicate (m - entries.length) none) := by
  have hsize : 8 * m / 8 = m := by omega
  have hclear : 8 * (m - entries.length) / 8 = m - entries.length := by omega
  have htmp : reallocated entries (8 * m) fresh =
      entries ++ (List.range (m - entries.length)).map fresh := by
    rw [reallocated, hsize, List.take_of_length_le hm]
  have hlength : (entries ++ (List.range (m - entries.length)).map fresh).length = m := by
    simp
    omega
  have hin : 8 * entries.length + 8 * (m - entries.length) ≤
      8 * (entries ++ (List.range (m - entries.length)).map fresh).length := by
    rw [hlength]
    omega
  rw [htmp, memsetEntries, if_pos hin, hclear, List.take_left, List.drop_of_length_le,
    List.append_nil]
  rw [hlength]
  omega

/-- A slot below `2 ^ 27` is made room for, or `realloc` has no memory and nothing changes. -/
lemma mapMakeSpace_spec (h : map.Sized) (hle : map.nentries ≤ slot) (hslot : slot < 2 ^ 27)
    (realloc : ReallocEntries) :
    ∃ n, map.Needs slot n ∧ slot < n ∧ n ≤ 2 ^ 27 ∧
      Outcome.loop (doubleTurn slot) maxDoublings map.first = .returned n ∧
      mapMakeSpace realloc map slot pointerSize = .returned
        (if (realloc (n * pointerSize).toNat).isSome then
          ⟨0, ⟨n, map.entries ++ List.replicate (n - map.nentries).toNat none⟩,
            some (n * pointerSize).toNat⟩
        else ⟨-1, map, some (n * pointerSize).toNat⟩) := by
  obtain ⟨k, hfirst, hk, hwhich⟩ := h.first_eq
  obtain ⟨q, hq, hlt, hkq, hleast⟩ := doubleTurn_returns (hslot.trans (by norm_num))
    (show k + (30 - k) = 30 by omega)
  have hloop : Outcome.loop (doubleTurn slot) maxDoublings map.first = .returned (2 ^ q) := by
    rw [hfirst]
    exact Outcome.loop_of_le (by unfold maxDoublings; omega) hq
  have hbound : (2 : ℤ) ^ q ≤ 2 ^ 27 := by
    rcases Nat.lt_or_ge k q with hgt | hge
    · have hhalf := (pow_lt_pow_iff_right₀ (by norm_num)).1 ((hleast hgt).trans_lt hslot)
      exact pow_le_pow_right₀ (by norm_num) (by omega)
    · obtain rfl : q = k := by omega
      rw [← hfirst] at hlt ⊢
      rcases hwhich with hfirst | hfirst
      · rw [hfirst]
        norm_num
      · omega
  have hpos : (0 : ℤ) < 2 ^ q := by positivity
  have hnonneg := h.nonneg
  have hnentries := h.nentries_eq
  have hsize : toSizeT (intProduct (2 ^ q) pointerSize) = (2 ^ q * pointerSize).toNat :=
    intProduct_of_lt hpos.le (by decide) (by unfold pointerSize; omega)
  have hclear : toSizeT (intProduct (2 ^ q - map.nentries) pointerSize) =
      ((2 ^ q - map.nentries) * pointerSize).toNat :=
    intProduct_of_lt (by omega) (by decide) (by unfold pointerSize; omega)
  refine ⟨2 ^ q, needs_two_pow hfirst hlt hkq hleast, hlt, hbound, hloop, ?_⟩
  rw [mapMakeSpace, if_pos hle, hloop, Outcome.returned_bind]
  dsimp only
  rw [hsize, hclear]
  cases hrealloc : realloc (2 ^ q * pointerSize).toNat with
  | none =>
    have hne : (2 ^ q * pointerSize).toNat ≠ 0 := by
      unfold pointerSize
      omega
    simp [hne]
  | some fresh =>
    have hbytes : (2 ^ q * pointerSize).toNat = 8 * (2 ^ q : ℤ).toNat := by
      unfold pointerSize
      omega
    have hnew : ((2 ^ q - map.nentries) * pointerSize).toNat =
        8 * ((2 ^ q : ℤ).toNat - map.entries.length) := by
      unfold pointerSize
      omega
    have hold : map.nentries.toNat = map.entries.length := by omega
    have hcount : (2 ^ q - map.nentries).toNat = (2 ^ q : ℤ).toNat - map.entries.length := by omega
    dsimp only
    rw [hold, hnew, hbytes, memsetEntries_reallocated (by omega) fresh, Outcome.returned_bind,
      hcount]
    rfl

/-- From `2 ^ 30` on the doubling does not end. -/
lemma mapMakeSpace_running (h : map.Sized) (hle : map.nentries ≤ slot) (hslot : 2 ^ 30 ≤ slot)
    (realloc : ReallocEntries) (msize : ℤ) :
    Outcome.Diverges (doubleTurn slot) map.first ∧
      mapMakeSpace realloc map slot msize = .running := by
  obtain ⟨k, hfirst, hk, -⟩ := h.first_eq
  have hdiverges : Outcome.Diverges (doubleTurn slot) map.first := by
    rw [hfirst]
    exact doubleTurn_diverges hslot (show k + (30 - k) = 30 by omega)
  refine ⟨hdiverges, ?_⟩
  rw [mapMakeSpace, if_pos hle, hdiverges maxDoublings]
  rfl

lemma requested_of_returned {realloc : ReallocEntries} {msize : ℤ} {space : Space}
    (hle : map.nentries ≤ slot) (h : mapMakeSpace realloc map slot msize = .returned space) :
    ∃ m, space.requested = some (toSizeT (intProduct m msize)) := by
  rw [mapMakeSpace, if_pos hle] at h
  obtain ⟨m, -, hrest⟩ := Outcome.bind_eq_returned.1 h
  refine ⟨m, ?_⟩
  cases hrealloc : realloc (toSizeT (intProduct m msize)) with
  | none =>
    simp only [hrealloc] at hrest
    cases hrest
    rfl
  | some fresh =>
    simp only [hrealloc] at hrest
    obtain ⟨tmp, -, hdone⟩ := Outcome.bind_eq_returned.1 hrest
    cases hdone
    rfl

/-- The size of all entries is asked for up to the slot `2 ^ 27` only. -/
lemma hasSpace_iff (h : map.Sized) (realloc : ReallocEntries) (slot : ℤ) :
    map.HasSpace realloc slot ↔ slot < map.nentries ∨ slot < 2 ^ 27 := by
  constructor
  · rintro ⟨space, hreturned, hmakes⟩
    by_contra hout
    obtain ⟨hle, hslot⟩ : map.nentries ≤ slot ∧ 2 ^ 27 ≤ slot := by
      rw [not_or] at hout
      omega
    have hlt : slot < 2 ^ 30 := by
      by_contra hge
      rw [(mapMakeSpace_running h hle (not_lt.1 hge) realloc pointerSize).2] at hreturned
      cases hreturned
    obtain ⟨n, hneeds, hsize, -⟩ := hmakes.grown hle
    obtain ⟨m, hasked⟩ := requested_of_returned hle hreturned
    have hbytes : (n * pointerSize).toNat = toSizeT (intProduct m pointerSize) :=
      Option.some.inj (hsize.symm.trans hasked)
    obtain ⟨k, hfirst, -, hwhich⟩ := h.first_eq
    have hpos : (0 : ℤ) < 2 ^ k := by positivity
    have hbelow : map.first ≤ slot := by omega
    have hupper := hneeds.le (hfirst ▸ hpos) hbelow
    have hlower : 2 ^ 28 ≤ n := by
      obtain ⟨⟨hn, j, rfl⟩, -⟩ := hneeds
      rw [hfirst, ← pow_add] at hn ⊢
      have hk := (pow_lt_pow_iff_right₀ (by norm_num)).1 (hslot.trans_lt hn)
      exact pow_le_pow_right₀ (by norm_num) (by omega)
    have hends := toSizeT_intProduct m pointerSize
    unfold pointerSize at hbytes hends
    omega
  · intro hslot
    by_cases hle : map.nentries ≤ slot
    · obtain ⟨n, hneeds, -, -, -, hreturned⟩ := mapMakeSpace_spec h hle (by omega) realloc
      refine ⟨_, hreturned, fun hlt => by omega, fun _ => ⟨n, hneeds, ?_⟩⟩
      split_ifs
      · exact ⟨rfl, .inl ⟨rfl, rfl⟩⟩
      · exact ⟨rfl, .inr ⟨rfl, rfl⟩⟩
    · exact ⟨_, if_neg hle, fun _ => rfl, fun hge => absurd hge hle⟩

/-- Up to there the map of the event loop is what becomes of the memory. -/
lemma mapMakeSpace_refines (h : map.Sized) (hslot : slot < map.nentries ∨ slot < 2 ^ 27)
    (realloc : ReallocEntries) :
    ∃ space, mapMakeSpace realloc map slot pointerSize = .returned space ∧
      Yolanda.mapMakeSpace (fun n => (realloc (n * pointerSize).toNat).isSome) map.channelMap slot =
        .returned (if space.value = -1 then none else some space.map.channelMap) := by
  have hnentries := h.channelMap_nentries
  by_cases hle : map.nentries ≤ slot
  · obtain ⟨n, -, -, -, hloop, hreturned⟩ := mapMakeSpace_spec h hle (by omega) realloc
    refine ⟨_, hreturned, ?_⟩
    rw [Yolanda.mapMakeSpace, hnentries, if_pos hle]
    show (Outcome.loop (doubleTurn slot) maxDoublings map.first >>= _) = _
    rw [hloop, Outcome.returned_bind]
    by_cases hserved : (realloc (n * pointerSize).toNat).isSome
    · rw [if_pos hserved, if_pos hserved]
      rfl
    · rw [if_neg hserved, if_neg hserved]
      rfl
  · refine ⟨_, if_neg hle, ?_⟩
    rw [Yolanda.mapMakeSpace, hnentries, if_neg hle]
    rfl

end Growth

/-! ## Add requests -/

section Requests

variable {map map' : MapMemory} {a : AddRequest}

lemma mapInit_sized : mapInit.Sized := ⟨rfl, .inl rfl, by decide⟩

/-- A map that has grown is sized. -/
lemma Sized.grow (h : map.Sized) {slot n : ℤ} (hneeds : map.Needs slot n)
    (hle : map.nentries ≤ slot) (hn : n ≤ 2 ^ 27) :
    (⟨n, map.entries ++ List.replicate (n - map.nentries).toNat none⟩ : MapMemory).Sized := by
  have hnonneg := h.nonneg
  have hnentries := h.nentries_eq
  obtain ⟨⟨hlt, j, hj⟩, -⟩ := hneeds
  refine ⟨?_, .inr ?_, ?_⟩
  · simp only [List.length_append, List.length_replicate]
    push_cast
    omega
  · show ∃ k : ℕ, n = 32 * 2 ^ k
    rcases h.power with hzero | ⟨k, hk⟩
    · have hfirst : map.first = 32 := if_neg (not_not.2 hzero)
      exact ⟨j, by rw [hj, hfirst]⟩
    · have hpos : (0 : ℤ) < 2 ^ k := by positivity
      have hfirst : map.first = map.nentries := if_pos (by omega)
      refine ⟨k + j, ?_⟩
      rw [hj, hfirst, hk, pow_add]
      ring
  · show n < 2 ^ 31
    omega

/-- The map with the channel, if the entry of the descriptor is empty. -/
def entered (map : ChannelMap) (fd : ℤ) (channel : ChannelPtr) : ChannelMap :=
  if map.entry fd = none then map.set fd (some channel) else map

/-- The channel is stored for a descriptor whose entry is empty. -/
lemma enter_spec (h : map.Sized) {fd : ℤ} (hzero : 0 ≤ fd) (hlt : fd < map.nentries)
    (channel : ChannelPtr) :
    ∃ map', map.enter fd channel = .returned map' ∧ map'.Sized ∧
      map'.channelMap = entered map.channelMap fd channel := by
  have hlength := h.nentries_eq
  have hin : fd.toNat < map.entries.length := by omega
  have hentry : map.channelMap.entry fd = map.entries[fd.toNat] := by
    rw [ChannelMap.entry, if_neg (by omega)]
    show (map.entries[fd.toNat]?).join = _
    rw [List.getElem?_eq_getElem hin]
    rfl
  unfold enter entered
  rw [List.getElem?_eq_getElem hin, hentry]
  cases map.entries[fd.toNat] with
  | some c => exact ⟨map, rfl, h, (if_neg (by simp)).symm⟩
  | none =>
    refine ⟨_, rfl, ⟨?_, h.power, h.lt⟩, (if_pos rfl).symm⟩
    rw [List.length_set]
    exact hlength

lemma Sized.undisturbed (h : map.Sized) {fd : ℤ} {channel : ChannelPtr} (hzero : 0 ≤ fd)
    (hlt : fd < map.nentries) (hmap : map'.channelMap = entered map.channelMap fd channel) :
    map.Undisturbed map' fd channel := by
  intro fd'
  rw [← h.channelMap_nentries] at hlt
  rw [hmap, entered]
  split_ifs with hnone
  · rw [ChannelMap.entry_set hzero hlt]
    by_cases hfd : fd' = fd
    · subst hfd
      exact .inr ⟨rfl, hnone, Function.update_self _ _ _⟩
    · exact .inl (Function.update_of_ne hfd _ _)
  · exact .inl rfl

/-- A request within the bounds leaves a sized map, with what was stored. -/
lemma handlePendingAdd_spec (h : map.Sized) (hwithin : map.Within a) :
    ∃ map', map.handlePendingAdd a = .returned map' ∧ map'.Sized ∧
      map.Undisturbed map' a.fd a.channel := by
  unfold handlePendingAdd
  by_cases hneg : a.fd < 0
  · rw [if_pos hneg]
    exact ⟨map, rfl, h, fun _ => .inl rfl⟩
  rw [if_neg hneg]
  by_cases hge : a.fd ≥ map.nentries
  · rw [if_pos hge]
    have hsmall : a.fd < 2 ^ 27 := hwithin.resolve_left (not_lt.2 hge)
    obtain ⟨n, hneeds, hlt, hbound, -, hreturned⟩ := mapMakeSpace_spec h hge hsmall a.realloc
    rw [hreturned, Outcome.returned_bind]
    by_cases hserved : (a.realloc (n * pointerSize).toNat).isSome
    · rw [if_pos hserved]
      have hsized := h.grow hneeds hge hbound
      have hgrown := map.channelMap.entry_append_replicate (n - map.nentries).toNat
      obtain ⟨map', henter, hsized', hmap'⟩ := enter_spec hsized (not_lt.1 hneg) hlt a.channel
      refine ⟨map', henter, hsized', fun fd' => ?_⟩
      have hfd' := hsized.undisturbed (not_lt.1 hneg) hlt hmap' fd'
      unfold channelMap at hfd' hgrown ⊢
      rw [hgrown] at hfd'
      exact hfd'
    · rw [if_neg hserved]
      exact ⟨map, rfl, h, fun _ => .inl rfl⟩
  · rw [if_neg hge]
    obtain ⟨map', henter, hsized', hmap'⟩ :=
      enter_spec h (not_lt.1 hneg) (not_le.1 hge) a.channel
    exact ⟨map', henter, hsized', h.undisturbed (not_lt.1 hneg) (not_le.1 hge) hmap'⟩

/-- The second half of `event_loop_handle_pending_add`, for the map with room. -/
lemma channelMap_of_added {m : ChannelMap} {fd : ℤ} {channel : ChannelPtr}
    {loop loop' : EventLoop} {added : Call Dispatcher}
    (h : (if m.entry fd = none then do
        let dispatcher ← added
        pure { loop with
          channelMap := m.set fd (some channel)
          eventDispatcher := dispatcher }
      else pure { loop with channelMap := m }) = Outcome.returned loop') :
    loop'.channelMap = entered m fd channel := by
  unfold entered
  split_ifs at h ⊢ with hnone
  · obtain ⟨dispatcher, -, hdone⟩ := Outcome.bind_eq_returned.1 h
    obtain rfl := Outcome.returned.inj hdone
    rfl
  · obtain rfl := Outcome.returned.inj h
    rfl

/-- What an event loop does with its map is what becomes of the memory. -/
theorem handlePendingAdd_refines (h : map.Sized) {env : Surroundings} {loop loop' : EventLoop}
    (hmap : loop.channelMap = map.channelMap)
    (hserved : env.served = fun n => (a.realloc (n * pointerSize).toNat).isSome)
    (hfd : (env.channels a.channel).fd = a.fd) (hwithin : map.Within a)
    (hloop : Yolanda.handlePendingAdd env loop a.channel = .returned loop') :
    ∃ map', map.handlePendingAdd a = .returned map' ∧ loop'.channelMap = map'.channelMap := by
  simp only [Yolanda.handlePendingAdd, hfd, hmap] at hloop
  unfold handlePendingAdd
  by_cases hneg : a.fd < 0
  · rw [if_pos hneg] at hloop ⊢
    obtain rfl := Outcome.returned.inj hloop
    exact ⟨map, rfl, hmap⟩
  rw [if_neg hneg] at hloop ⊢
  by_cases hge : a.fd ≥ map.nentries
  · have hsmall : a.fd < 2 ^ 27 := hwithin.resolve_left (not_lt.2 hge)
    obtain ⟨n, hneeds, hlt, hbound, -, hreturned⟩ := mapMakeSpace_spec h hge hsmall a.realloc
    obtain ⟨space, hspace, hrefines⟩ := mapMakeSpace_refines h hwithin a.realloc
    obtain rfl := Outcome.returned.inj (hspace.symm.trans hreturned)
    rw [mapFor, h.channelMap_nentries, if_pos hge, hserved, hrefines, Outcome.returned_bind]
      at hloop
    rw [if_pos hge, hreturned, Outcome.returned_bind]
    by_cases hroom : (a.realloc (n * pointerSize).toNat).isSome
    · rw [if_pos hroom] at hloop ⊢
      obtain ⟨map', henter, -, hmap'⟩ :=
        enter_spec (h.grow hneeds hge hbound) (not_lt.1 hneg) hlt a.channel
      exact ⟨map', henter, (channelMap_of_added hloop).trans hmap'.symm⟩
    · rw [if_neg hroom] at hloop ⊢
      obtain rfl := Outcome.returned.inj hloop
      exact ⟨map, rfl, hmap⟩
  · rw [mapFor, h.channelMap_nentries, if_neg hge, Outcome.returned_bind] at hloop
    rw [if_neg hge]
    obtain ⟨map', henter, -, hmap'⟩ :=
      enter_spec h (not_lt.1 hneg) (not_le.1 hge) a.channel
    exact ⟨map', henter, (channelMap_of_added hloop).trans hmap'.symm⟩

lemma stores_iff_within (h : map.Sized) : map.Stores a ↔ map.Within a := by
  constructor
  · rintro ⟨hspace, -⟩
    by_cases hle : map.nentries ≤ a.fd
    · exact (hasSpace_iff h a.realloc a.fd).1 (hspace hle)
    · exact .inl (not_le.1 hle)
  · intro hwithin
    obtain ⟨map', hreturned, -, hkept⟩ := handlePendingAdd_spec h hwithin
    exact ⟨fun _ => (hasSpace_iff h a.realloc a.fd).2 hwithin, map', hreturned, hkept⟩

/-- Room for a slot is made, and requests leave alone what is stored, exactly if there is an entry
already or the slot is below `2 ^ 27`. -/
theorem stores_iff (h : map.Sized) :
    (∀ realloc slot, map.HasSpace realloc slot ↔ slot < map.nentries ∨ slot < 2 ^ 27) ∧
    ∀ requests, Outcome.Throughout handlePendingAdd Stores map requests ↔
      Outcome.Throughout handlePendingAdd Within map requests := by
  refine ⟨hasSpace_iff h, fun requests => ?_⟩
  refine Outcome.throughout_iff (fun _ _ hs => stores_iff_within hs) ?_ h
  intro s a s' hs hstores hstep
  obtain ⟨map', hreturned, hsized, -⟩ := handlePendingAdd_spec hs ((stores_iff_within hs).1 hstores)
  obtain rfl : map' = s' := Outcome.returned.inj (hreturned.symm.trans hstep)
  exact hsized

/-- A new map. -/
theorem stores_iff_mapInit : mapInit.Sized ∧
    (∀ realloc slot, mapInit.HasSpace realloc slot ↔ slot < mapInit.nentries ∨ slot < 2 ^ 27) ∧
    ∀ requests, Outcome.Throughout handlePendingAdd Stores mapInit requests ↔
      Outcome.Throughout handlePendingAdd Within mapInit requests :=
  ⟨mapInit_sized, stores_iff mapInit_sized⟩

/-- For the slot `2 ^ 27` the size of all entries is not a positive `int` any more. -/
theorem not_hasSpace_large :
    (∃ space, mapMakeSpace (fun _ => none) mapInit (2 ^ 27) pointerSize = .returned space ∧
      space.requested = some (2 ^ 64 - 2 ^ 31)) ∧
    ¬ mapInit.HasSpace (fun _ => none) (2 ^ 27) := by
  constructor
  · have hloop : Outcome.loop (doubleTurn (2 ^ 27)) maxDoublings mapInit.first =
        .returned 268435456 := by decide
    have hsize : toSizeT (intProduct 268435456 pointerSize) = 2 ^ 64 - 2 ^ 31 := by decide
    refine ⟨⟨-1, mapInit, some (2 ^ 64 - 2 ^ 31)⟩, ?_, rfl⟩
    rw [mapMakeSpace, if_pos (by decide), hloop, Outcome.returned_bind, hsize]
    rfl
  · rw [hasSpace_iff mapInit_sized]
    show ¬ ((2 : ℤ) ^ 27 < 0 ∨ (2 : ℤ) ^ 27 < 2 ^ 27)
    norm_num

end Requests

end MapMemory

end Yolanda
