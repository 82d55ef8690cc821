import Mathlib.Data.List.AList
import Mathlib.Algebra.BigOperators.Group.List.Basic
import Mathlib.Algebra.GroupWithZero.Nat

/-! # Finite tables with a length and an unspecified iteration order

A program's hash map: keys are unique, `len` counts them, and a loop over the table visits every
key once in an order the language does not fix. The representation is Mathlib's `AList`; what is
added here is the length, bulk erasure, in-place update, and the iteration order as a parameter.

* `Table.len` and its behaviour under `insert` and `erase`.
* `Table.eraseAll`: erase a list of keys.
* `Table.adjust`: apply a function to the value at one key, if there is one.
* `Table.len_eq_sum_fibres`: a table whose entries are partitioned by value is as long as the
  parts together.
* `RangeOrder`: the order a loop visits the keys in, an arbitrary permutation of them.
-/

namespace SturmRelay
set_option autoImplicit false

/-- A finite map from `K` to `V`. -/
abbrev Table (K V : Type) := AList fun _ : K => V

namespace Table
variable {K V : Type}

/-- The number of keys. -/
def len (m : Table K V) : ℕ := m.keys.length

@[simp] theorem len_empty : len (∅ : Table K V) = 0 := rfl

theorem keys_eq_nil_of_len {m : Table K V} (h : len m = 0) : m.keys = [] :=
  List.length_eq_zero_iff.mp h

theorem notMem_of_len_zero {m : Table K V} (h : len m = 0) (k : K) : k ∉ m := by
  rw [AList.mem_keys, keys_eq_nil_of_len h]
  exact List.not_mem_nil

theorem len_pos_of_mem {m : Table K V} {k : K} (h : k ∈ m) : 0 < len m :=
  List.length_pos_of_mem (AList.mem_keys.mp h)

variable [DecidableEq K]

theorem mem_of_lookup {m : Table K V} {k : K} {v : V} (h : m.lookup k = some v) : k ∈ m :=
  AList.lookup_isSome.mp (by rw [h]; rfl)

theorem lookup_of_mem {m : Table K V} {k : K} (h : k ∈ m) : ∃ v, m.lookup k = some v :=
  Option.isSome_iff_exists.mp (AList.lookup_isSome.mpr h)

theorem mem_iff_lookup {m : Table K V} {k : K} : k ∈ m ↔ ∃ v, m.lookup k = some v :=
  ⟨lookup_of_mem, fun ⟨_, h⟩ => mem_of_lookup h⟩

theorem len_insert_of_notMem {m : Table K V} {k : K} (h : k ∉ m) (v : V) :
    len (m.insert k v) = len m + 1 := by
  rw [len, AList.keys_insert, List.length_cons, List.erase_of_not_mem (fun hk => h (AList.mem_keys.mpr hk))]
  rfl

theorem len_insert_of_mem {m : Table K V} {k : K} (h : k ∈ m) (v : V) : len (m.insert k v) = len m := by
  have hpos := len_pos_of_mem h
  rw [len, AList.keys_insert, List.length_cons, List.length_erase_of_mem (AList.mem_keys.mp h)]
  unfold len at *
  omega

theorem len_erase_of_mem {m : Table K V} {k : K} (h : k ∈ m) : len (m.erase k) + 1 = len m := by
  have hpos := len_pos_of_mem h
  rw [len, AList.keys_erase, List.length_erase_of_mem (AList.mem_keys.mp h)]
  unfold len at *
  omega

theorem len_erase_of_notMem {m : Table K V} {k : K} (h : k ∉ m) : len (m.erase k) = len m := by
  rw [len, AList.keys_erase, List.erase_of_not_mem (fun hk => h (AList.mem_keys.mpr hk))]
  rfl

theorem lookup_insert_eq_ite (m : Table K V) (k k' : K) (v : V) :
    (m.insert k v).lookup k' = if k' = k then some v else m.lookup k' := by
  by_cases h : k' = k
  · subst h
    rw [if_pos rfl, AList.lookup_insert]
  · rw [if_neg h, AList.lookup_insert_ne h]

theorem lookup_erase_eq_ite (m : Table K V) (k k' : K) :
    (m.erase k).lookup k' = if k' = k then none else m.lookup k' := by
  by_cases h : k' = k
  · subst h
    rw [if_pos rfl, AList.lookup_erase]
  · rw [if_neg h, AList.lookup_erase_ne h]

/-! ## Bulk erasure -/

/-- Erase every key of a list. -/
def eraseAll (m : Table K V) (ks : List K) : Table K V := ks.foldl (fun m k => m.erase k) m

@[simp] theorem eraseAll_nil (m : Table K V) : eraseAll m [] = m := rfl

@[simp] theorem eraseAll_cons (m : Table K V) (k : K) (ks : List K) :
    eraseAll m (k :: ks) = eraseAll (m.erase k) ks := rfl

theorem eraseAll_append (m : Table K V) (ks ks' : List K) :
    eraseAll m (ks ++ ks') = eraseAll (eraseAll m ks) ks' := List.foldl_append

theorem lookup_eraseAll (m : Table K V) (ks : List K) (k : K) :
    (eraseAll m ks).lookup k = if k ∈ ks then none else m.lookup k := by
  induction ks generalizing m with
  | nil => simp
  | cons k' ks ih =>
    rw [eraseAll_cons, ih, lookup_erase_eq_ite]
    by_cases h : k ∈ ks
    · simp [h]
    · by_cases hk : k = k' <;> simp [h, hk]

theorem mem_eraseAll {m : Table K V} {ks : List K} {k : K} : k ∈ eraseAll m ks ↔ k ∈ m ∧ k ∉ ks := by
  rw [← AList.lookup_isSome, ← AList.lookup_isSome, lookup_eraseAll]
  by_cases h : k ∈ ks <;> simp [h]

theorem len_eraseAll_le (m : Table K V) (ks : List K) : len (eraseAll m ks) ≤ len m := by
  induction ks generalizing m with
  | nil => exact le_refl _
  | cons k ks ih =>
    refine (ih (m.erase k)).trans ?_
    by_cases h : k ∈ m
    · have := len_erase_of_mem h
      omega
    · exact (len_erase_of_notMem h).le

/-- A list of distinct keys of the table shortens it by its length. -/
theorem len_eraseAll {m : Table K V} {ks : List K} (hnd : ks.Nodup) (hks : ∀ k ∈ ks, k ∈ m) :
    len (eraseAll m ks) + ks.length = len m := by
  induction ks generalizing m with
  | nil => rfl
  | cons k ks ih =>
    have hnd' := List.nodup_cons.mp hnd
    have htail : ∀ k' ∈ ks, k' ∈ m.erase k := fun k' hk' =>
      AList.mem_erase.mpr ⟨fun he => hnd'.1 (he ▸ hk'), hks k' (List.mem_cons_of_mem k hk')⟩
    have h1 := ih hnd'.2 htail
    have h2 := len_erase_of_mem (hks k (List.mem_cons_self ..))
    rw [eraseAll_cons, List.length_cons]
    omega

theorem len_le_len_eraseAll (m : Table K V) (ks : List K) : len m ≤ len (eraseAll m ks) + ks.length := by
  induction ks generalizing m with
  | nil => exact le_refl _
  | cons k ks ih =>
    have h1 := ih (m.erase k)
    rw [eraseAll_cons, List.length_cons]
    by_cases hk : k ∈ m
    · have := len_erase_of_mem hk
      omega
    · have := len_erase_of_notMem hk
      omega

/-- Erasing shortens a table by the length of the list only if the list is a list of distinct
keys of the table. -/
theorem nodup_of_len_eraseAll {m : Table K V} {ks : List K}
    (h : len (eraseAll m ks) + ks.length = len m) : ks.Nodup ∧ ∀ k ∈ ks, k ∈ m := by
  induction ks generalizing m with
  | nil => simp
  | cons k ks ih =>
    have hle := len_le_len_eraseAll (m.erase k) ks
    rw [eraseAll_cons, List.length_cons] at h
    have hk : k ∈ m := by
      by_contra hk
      have := len_erase_of_notMem hk
      omega
    have he := len_erase_of_mem hk
    obtain ⟨hnd, hmem⟩ := ih (m := m.erase k) (by omega)
    have hout : k ∉ ks := fun hin => (AList.mem_erase.mp (hmem k hin)).1 rfl
    refine ⟨List.nodup_cons.mpr ⟨hout, hnd⟩, ?_⟩
    intro k' hk'
    rcases List.mem_cons.mp hk' with rfl | htail
    · exact hk
    · exact (AList.mem_erase.mp (hmem k' htail)).2

/-! ## In-place update -/

/-- Apply `f` to the value at `k`; a table without `k` is left alone. -/
def adjust (m : Table K V) (k : K) (f : V → V) : Table K V :=
  match m.lookup k with
  | none => m
  | some v => m.insert k (f v)

theorem lookup_adjust (m : Table K V) (k k' : K) (f : V → V) :
    (adjust m k f).lookup k' = if k' = k then (m.lookup k).map f else m.lookup k' := by
  unfold adjust
  cases h : m.lookup k with
  | none =>
    by_cases hk : k' = k
    · subst hk
      simpa using h
    · simp [hk]
  | some v => simpa using lookup_insert_eq_ite m k k' (f v)

@[simp] theorem mem_adjust {m : Table K V} {k k' : K} {f : V → V} : k' ∈ adjust m k f ↔ k' ∈ m := by
  rw [← AList.lookup_isSome, ← AList.lookup_isSome, lookup_adjust]
  by_cases h : k' = k
  · subst h
    simp
  · simp [h]

@[simp] theorem len_adjust (m : Table K V) (k : K) (f : V → V) : len (adjust m k f) = len m := by
  unfold adjust
  cases h : m.lookup k with
  | none => rfl
  | some v => exact len_insert_of_mem (mem_of_lookup h) (f v)

/-! ## Counting by parts -/

/-- If the keys of `m` with value `v` are exactly the list `part v`, for `v` in `vs`, and no key
has another value, the parts' lengths add up to the table's. -/
theorem len_eq_sum_fibres (m : Table K V) (vs : List V) (part : V → List K) (hvs : vs.Nodup)
    (hpart : ∀ v ∈ vs, (part v).Nodup) (h : ∀ k v, m.lookup k = some v ↔ v ∈ vs ∧ k ∈ part v) :
    len m = (vs.map fun v => (part v).length).sum := by
  have hnd : (vs.flatMap part).Nodup := by
    refine List.nodup_flatMap.mpr ⟨hpart, ?_⟩
    refine List.Pairwise.imp_of_mem ?_ hvs
    intro v w hv hw hne
    refine List.disjoint_left.mpr ?_
    intro k hkv hkw
    have h1 := (h k v).mpr ⟨hv, hkv⟩
    have h2 := (h k w).mpr ⟨hw, hkw⟩
    rw [h1] at h2
    exact hne (Option.some.inj h2)
  have hperm : m.keys.Perm (vs.flatMap part) := by
    refine (List.perm_ext_iff_of_nodup m.keys_nodup hnd).mpr ?_
    intro k
    rw [← AList.mem_keys, mem_iff_lookup, List.mem_flatMap]
    exact exists_congr fun v => h k v
  rw [len, hperm.length_eq, List.length_flatMap]

end Table

/-! ## Iteration order -/

/-- The order in which a loop visits a list of keys: an arbitrary permutation of it. -/
structure RangeOrder (K : Type) where
  visit : List K → List K
  visit_perm : ∀ ks, (visit ks).Perm ks

namespace RangeOrder
variable {K : Type}

/-- The order the keys are listed in. -/
def listed : RangeOrder K := ⟨id, fun _ => List.Perm.refl _⟩

theorem mem_visit (o : RangeOrder K) {ks : List K} {k : K} : k ∈ o.visit ks ↔ k ∈ ks :=
  (o.visit_perm ks).mem_iff

theorem nodup_visit (o : RangeOrder K) {ks : List K} (h : ks.Nodup) : (o.visit ks).Nodup :=
  (o.visit_perm ks).nodup_iff.mpr h

end RangeOrder

end SturmRelay
