import Mathlib.Logic.Function.Basic

/-! # Keyed storage with defaults

A map from keys to present values. Presence is observable on its own; a read
of an absent key yields the default of the value type. Every operation is
specified by what `find` returns afterwards, which is also the simp normal
form: presence and defaulted reads unfold to `find`.
-/

namespace AbcDemo.Foundation

structure StorageMap (K V : Type) where
  find : K → Option V

namespace StorageMap

variable {K V : Type}

/-- The default of a stored list. -/
@[simp] theorem default_list : (default : List V) = [] := rfl

@[ext] theorem ext {m m' : StorageMap K V} (h : ∀ k, m.find k = m'.find k) : m = m' := by
  cases m
  cases m'
  congr
  exact funext h

def empty : StorageMap K V := ⟨fun _ => none⟩

def contains (m : StorageMap K V) (k : K) : Bool := (m.find k).isSome

def get [Inhabited V] (m : StorageMap K V) (k : K) : V := (m.find k).getD default

variable [DecidableEq K]

def insert (m : StorageMap K V) (k : K) (v : V) : StorageMap K V :=
  ⟨fun k' => if k' = k then some v else m.find k'⟩

def remove (m : StorageMap K V) (k : K) : StorageMap K V :=
  ⟨fun k' => if k' = k then none else m.find k'⟩

/-- Replace the value under `k`, starting from the default when it is absent. -/
def mutate [Inhabited V] (m : StorageMap K V) (k : K) (f : V → V) : StorageMap K V :=
  m.insert k (f (m.get k))

/-- Replace the value under `k` only where one is present. -/
def alter (m : StorageMap K V) (k : K) (f : V → V) : StorageMap K V :=
  ⟨fun k' => if k' = k then (m.find k).map f else m.find k'⟩

omit [DecidableEq K] in
@[simp] theorem find_empty (k : K) : (empty : StorageMap K V).find k = none := rfl

omit [DecidableEq K] in
@[simp] theorem contains_eq (m : StorageMap K V) (k : K) :
    m.contains k = (m.find k).isSome := rfl

omit [DecidableEq K] in
@[simp] theorem get_eq [Inhabited V] (m : StorageMap K V) (k : K) :
    m.get k = (m.find k).getD default := rfl

@[simp] theorem find_insert (m : StorageMap K V) (k k' : K) (v : V) :
    (m.insert k v).find k' = if k' = k then some v else m.find k' := rfl

@[simp] theorem find_remove (m : StorageMap K V) (k k' : K) :
    (m.remove k).find k' = if k' = k then none else m.find k' := rfl

@[simp] theorem mutate_eq [Inhabited V] (m : StorageMap K V) (k : K) (f : V → V) :
    m.mutate k f = m.insert k (f (m.get k)) := rfl

@[simp] theorem find_alter (m : StorageMap K V) (k k' : K) (f : V → V) :
    (m.alter k f).find k' = if k' = k then (m.find k).map f else m.find k' := rfl

/-- Taking a value out and putting another back is one insertion. -/
@[simp] theorem insert_remove (m : StorageMap K V) (k : K) (v : V) :
    (m.remove k).insert k v = m.insert k v := by
  ext k'
  by_cases h : k' = k <;> simp [h]

@[simp] theorem remove_insert (m : StorageMap K V) (k : K) (v : V) :
    (m.insert k v).remove k = m.remove k := by
  ext k'
  by_cases h : k' = k <;> simp [h]

theorem insert_comm (m : StorageMap K V) {k k' : K} (hne : k ≠ k') (v v' : V) :
    (m.insert k v).insert k' v' = (m.insert k' v').insert k v := by
  ext l
  by_cases hl : l = k
  · simp [hl, hne]
  · simp [hl]

theorem alter_comm (m : StorageMap K V) {k k' : K} (hne : k ≠ k') (f f' : V → V) :
    (m.alter k f).alter k' f' = (m.alter k' f').alter k f := by
  ext l
  by_cases hl : l = k
  · simp [hl, hne]
  · by_cases hl' : l = k' <;> simp [hl, hl', hne.symm]

theorem find_remove_eq_iff (m : StorageMap K V) (k k' : K) :
    (m.remove k).find k' = m.find k' ↔ (k = k' → m.find k' = none) := by
  by_cases h : k' = k
  · simp [h, eq_comm]
  · simp [h, Ne.symm h]

/-- Removal is visible exactly where a value was present. -/
theorem remove_eq_self_iff (m : StorageMap K V) (k : K) :
    m.remove k = m ↔ m.find k = none := by
  constructor
  · intro h
    rw [← h]
    simp
  · intro h
    ext k'
    by_cases hk : k' = k <;> simp [hk, h]

/-! ## Growing maps -/

section Grows

variable {r : V → V → Prop}

/-- Every present value is still present or replaced by one it is related to. -/
def Grows (r : V → V → Prop) (m m' : StorageMap K V) : Prop :=
  ∀ k v, m.find k = some v → ∃ v', m'.find k = some v' ∧ r v v'

omit [DecidableEq K] in
theorem Grows.refl (hr : ∀ v, r v v) (m : StorageMap K V) : Grows r m m :=
  fun _ v hv => ⟨v, hv, hr v⟩

omit [DecidableEq K] in
theorem Grows.trans (hr : ∀ {v v' v''}, r v v' → r v' v'' → r v v'') {m m' m'' : StorageMap K V}
    (h : Grows r m m') (h' : Grows r m' m'') : Grows r m m'' := by
  intro k v hv
  obtain ⟨v', hv', hle⟩ := h k v hv
  obtain ⟨v'', hv'', hle'⟩ := h' k v' hv'
  exact ⟨v'', hv'', hr hle hle'⟩

/-- A map that differs under one key only grows when it does so there. -/
theorem grows_iff_of_agree_off (hr : ∀ v, r v v) {m m' : StorageMap K V} {k : K}
    (off : ∀ k', k' ≠ k → m'.find k' = m.find k') :
    Grows r m m' ↔ ∀ v, m.find k = some v → ∃ v', m'.find k = some v' ∧ r v v' := by
  constructor
  · exact fun h v hv => h k v hv
  · intro h k' v hv
    by_cases hk : k' = k
    · subst hk
      exact h v hv
    · exact ⟨v, by rw [off k' hk, hv], hr v⟩

theorem grows_insert_iff (hr : ∀ v, r v v) (m : StorageMap K V) (k : K) (w : V) :
    Grows r m (m.insert k w) ↔ ∀ v, m.find k = some v → r v w := by
  rw [grows_iff_of_agree_off hr (k := k) fun k' hk => by simp [hk]]
  simp

theorem grows_alter_iff (hr : ∀ v, r v v) (m : StorageMap K V) (k : K) (f : V → V) :
    Grows r m (m.alter k f) ↔ ∀ v, m.find k = some v → r v (f v) := by
  rw [grows_iff_of_agree_off hr (k := k) fun k' hk => by simp [hk]]
  constructor
  · intro h v hv
    obtain ⟨v', hv', hrel⟩ := h v hv
    obtain rfl : f v = v' := by simpa [hv] using hv'
    exact hrel
  · exact fun h v hv => ⟨f v, by simp [hv], h v hv⟩

end Grows

end StorageMap

end AbcDemo.Foundation
