import Mathlib.Data.List.Nodup
import Mathlib.Data.List.Basic
import Mathlib.Algebra.Group.Int
import Mathlib.Algebra.Order.Ring.Nat
import Mathlib.Data.String.Basic

/-!
# Basic types of the chat server

The C++ source works with `int` client ids, `std::string` byte strings, steady-clock time
points and the standard containers `std::unordered_map` and `std::unordered_set`.

* A `std::string` is a Lean `String` read one character per byte, so `String.length` is
  `std::string::size()`.
* A steady-clock reading is an `Int` count of nanoseconds (`std::chrono::steady_clock` on the
  target).
* `UnorderedMap K V` is the list of entries in iteration order with distinct keys;
  `UnorderedSet K` the list of elements in iteration order without duplicates. The standard
  leaves the iteration order unspecified; the model fixes one, and no result depends on it
  unless it says so.
-/

namespace ChatServer

/-- `std::chrono::seconds(n)` as a duration in nanoseconds. -/
def seconds (n : Int) : Int := n * 1000000000

/-- `std::chrono::minutes(n)`. -/
def minutes (n : Int) : Int := seconds (60 * n)

/-- `std::chrono::steady_clock::time_point::max()`, the sentinel of a permanent mute. -/
def timePointMax : Int := 2 ^ 63 - 1

/-- `MAX_LEN`, the size of the buffer of one overlapped operation. -/
def maxLen : Nat := 2048

/-- The conversion `(size_t)x` of an `int`: negative values wrap modulo `2^64`. -/
def sizeT (x : Int) : Nat := if x < 0 then (x + 2 ^ 64).toNat else x.toNat

theorem sizeT_of_nonneg {x : Int} (h : 0 ≤ x) : sizeT x = x.toNat := by
  simp [sizeT, not_lt.2 h]

/-- A negative `int` (at least `INT_MIN`) becomes a `size_t` of at least `2^63`. -/
theorem sizeT_of_neg {x : Int} (h : x < 0) (hx : -2 ^ 31 ≤ x) : 2 ^ 63 ≤ sizeT x := by
  simp only [sizeT, h, if_true]
  omega

/-! ## `std::unordered_map` -/

/-- `std::unordered_map<K, V>`: its entries in iteration order, keys distinct. -/
structure UnorderedMap (K V : Type) where
  entries : List (K × V)
  nodup : (entries.map Prod.fst).Nodup

namespace UnorderedMap

variable {K V : Type} [DecidableEq K]

/-- The empty map. -/
def empty : UnorderedMap K V := ⟨[], List.nodup_nil⟩

/-- `find`: the value stored under `k`. -/
def find? (m : UnorderedMap K V) (k : K) : Option V := m.entries.lookup k

/-- Mutate the value stored under `k` in place; nothing happens when `k` is absent. -/
def modify (m : UnorderedMap K V) (k : K) (f : V → V) : UnorderedMap K V :=
  ⟨m.entries.map (fun p => if p.1 = k then (p.1, f p.2) else p), by
    have : (m.entries.map (fun p => if p.1 = k then (p.1, f p.2) else p)).map Prod.fst =
        m.entries.map Prod.fst := by
      rw [List.map_map]; congr 1; funext p; by_cases h : p.1 = k <;> simp [h]
    rw [this]; exact m.nodup⟩

/-- `m[k] = v`: overwrite in place when `k` is present, add an entry otherwise. -/
def set (m : UnorderedMap K V) (k : K) (v : V) : UnorderedMap K V :=
  if h : k ∈ m.entries.map Prod.fst then m.modify k (fun _ => v)
  else ⟨m.entries ++ [(k, v)], by
    rw [List.map_append, List.nodup_append]
    exact ⟨m.nodup, List.nodup_singleton _, by simpa using h⟩⟩

/-- `m[k]` followed by a mutation: `operator[]` default-constructs a missing value. -/
def alter (m : UnorderedMap K V) (k : K) (d : V) (f : V → V) : UnorderedMap K V :=
  m.set k (f ((m.find? k).getD d))

/-- `erase(k)`. -/
def erase (m : UnorderedMap K V) (k : K) : UnorderedMap K V :=
  ⟨m.entries.filter (fun p => p.1 ≠ k), by
    have := m.nodup.filter (fun a => a ≠ k)
    rwa [List.filter_map] at this⟩

theorem lookup_cons_ite (a k : K) (b : V) (l : List (K × V)) :
    ((k, b) :: l).lookup a = if a = k then some b else l.lookup a := by
  by_cases h : a = k
  · subst h; simp
  · simp [List.lookup_cons, beq_false_of_ne h, h]

theorem lookup_map_modify (l : List (K × V)) (k k' : K) (f : V → V) :
    (l.map (fun p => if p.1 = k then (p.1, f p.2) else p)).lookup k' =
      if k' = k then (l.lookup k').map f else l.lookup k' := by
  induction l with
  | nil => split <;> rfl
  | cons p l ih =>
    obtain ⟨a, b⟩ := p
    by_cases ha : a = k
    · subst ha; by_cases hk : k' = a <;> simp [lookup_cons_ite, hk, ih]
    · have : k ≠ a := Ne.symm ha
      by_cases hk : k' = a
      · subst hk; simp [lookup_cons_ite, ha]
      · simp [lookup_cons_ite, ha, hk, ih]

@[simp] theorem find?_empty (k : K) : (empty : UnorderedMap K V).find? k = none := rfl

@[simp] theorem find?_modify (m : UnorderedMap K V) (k k' : K) (f : V → V) :
    (m.modify k f).find? k' = if k' = k then (m.find? k).map f else m.find? k' := by
  simp only [modify, find?, lookup_map_modify]
  split <;> simp_all

theorem lookup_of_mem {l : List (K × V)} (hl : (l.map Prod.fst).Nodup) {k : K} {v : V}
    (h : (k, v) ∈ l) : l.lookup k = some v := by
  induction l with
  | nil => simp at h
  | cons p l ih =>
    obtain ⟨a, b⟩ := p
    simp only [List.map_cons, List.nodup_cons] at hl
    rw [lookup_cons_ite]
    rcases List.mem_cons.1 h with he | hm
    · cases he; simp
    · have : k ≠ a := by rintro rfl; exact hl.1 (List.mem_map_of_mem Prod.fst hm)
      simp [this, ih hl.2 hm]

/-- An entry met while iterating over the map is what `find` gives for its key. -/
theorem find?_of_mem (m : UnorderedMap K V) {k : K} {v : V} (h : (k, v) ∈ m.entries) :
    m.find? k = some v :=
  lookup_of_mem m.nodup h

theorem mem_of_lookup {l : List (K × V)} {k : K} {v : V} (h : l.lookup k = some v) :
    (k, v) ∈ l := by
  induction l with
  | nil => cases h
  | cons p l ih =>
    obtain ⟨a, b⟩ := p
    rw [lookup_cons_ite] at h
    split at h
    · cases h; subst ‹k = a›; exact List.mem_cons_self _ _
    · exact List.mem_cons_of_mem _ (ih h)

/-- What `find` gives for a key is an entry met while iterating over the map. -/
theorem mem_of_find? {m : UnorderedMap K V} {k : K} {v : V} (h : m.find? k = some v) :
    (k, v) ∈ m.entries :=
  mem_of_lookup h

theorem mem_keys_iff (m : UnorderedMap K V) (k : K) :
    k ∈ m.entries.map Prod.fst ↔ (m.find? k).isSome := by
  simp [find?, List.lookup_isSome_iff]

@[simp] theorem find?_set (m : UnorderedMap K V) (k k' : K) (v : V) :
    (m.set k v).find? k' = if k' = k then some v else m.find? k' := by
  unfold set
  split
  · rename_i h
    rw [find?_modify]
    split
    · subst k'
      obtain ⟨w, hw⟩ := Option.isSome_iff_exists.1 ((mem_keys_iff m k).1 h)
      simp [hw]
    · rfl
  · rename_i h
    have hn : m.find? k = none := Option.not_isSome_iff_eq_none.1 (by rwa [← mem_keys_iff])
    simp only [find?, List.lookup_append] at hn ⊢
    by_cases hk : k' = k
    · subst hk; simp [hn, lookup_cons_ite]
    · cases m.entries.lookup k' <;> simp [lookup_cons_ite, hk]

@[simp] theorem find?_alter (m : UnorderedMap K V) (k k' : K) (d : V) (f : V → V) :
    (m.alter k d f).find? k' = if k' = k then some (f ((m.find? k).getD d)) else m.find? k' :=
  find?_set _ _ _ _

@[simp] theorem find?_erase (m : UnorderedMap K V) (k k' : K) :
    (m.erase k).find? k' = if k' = k then none else m.find? k' := by
  simp only [erase, find?, ne_eq, decide_not]
  induction m.entries with
  | nil => split <;> rfl
  | cons p l ih =>
    obtain ⟨a, b⟩ := p
    by_cases ha : a = k
    · subst ha
      by_cases hk : k' = a
      · subst hk; simpa [List.filter_cons] using ih
      · simp [List.filter_cons, lookup_cons_ite, hk, ih]
    · by_cases hk : k' = a
      · subst hk; simp [List.filter_cons, lookup_cons_ite, ha]
      · simp [List.filter_cons, lookup_cons_ite, ha, hk, ih]

end UnorderedMap

/-! ## `std::unordered_set` -/

/-- `std::unordered_set<K>`: its elements in iteration order, without duplicates. -/
structure UnorderedSet (K : Type) where
  elems : List K
  nodup : elems.Nodup

namespace UnorderedSet

variable {K : Type}

instance : Membership K (UnorderedSet K) := ⟨fun s k => k ∈ s.elems⟩

/-- The empty set. -/
def empty : UnorderedSet K := ⟨[], List.nodup_nil⟩

/-- `size()`. -/
def size (s : UnorderedSet K) : Nat := s.elems.length

theorem mem_def (s : UnorderedSet K) (k : K) : k ∈ s ↔ k ∈ s.elems := Iff.rfl

@[simp] theorem not_mem_empty (k : K) : k ∉ (empty : UnorderedSet K) := List.not_mem_nil k

variable [DecidableEq K]

instance (k : K) (s : UnorderedSet K) : Decidable (k ∈ s) :=
  inferInstanceAs (Decidable (k ∈ s.elems))

/-- `insert(k)`: no effect when `k` is already present. -/
def insert (s : UnorderedSet K) (k : K) : UnorderedSet K :=
  if h : k ∈ s.elems then s
  else ⟨s.elems ++ [k], List.nodup_append.2 ⟨s.nodup, List.nodup_singleton _, by simpa using h⟩⟩

/-- `erase(k)`. -/
def erase (s : UnorderedSet K) (k : K) : UnorderedSet K := ⟨s.elems.erase k, s.nodup.erase k⟩

@[simp] theorem mem_insert (s : UnorderedSet K) (k k' : K) : k' ∈ s.insert k ↔ k' = k ∨ k' ∈ s := by
  unfold insert
  split
  · rename_i h
    constructor
    · exact Or.inr
    · rintro (rfl | h') <;> assumption
  · simp [mem_def, or_comm]

@[simp] theorem mem_erase (s : UnorderedSet K) (k k' : K) : k' ∈ s.erase k ↔ k' ≠ k ∧ k' ∈ s :=
  s.nodup.mem_erase_iff

end UnorderedSet

end ChatServer
