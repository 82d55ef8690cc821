import Mathlib.Data.List.Infix

/-! # Bracketed groups in a list

Two symbols, `o` and `c`, open and close. A list that starts with `o` is `Unclosed` while every piece
of it from the front has more of the one than of the other, and a `Group` when it has as many of
both for the first time at its end. Reading on from an unclosed list either never leaves the unclosed
lists or passes through exactly one group. -/

namespace SturmRelay
set_option autoImplicit false

section Brackets
variable {α : Type} [DecidableEq α] {o c : α}

def Unclosed (o c : α) (w : List α) : Prop :=
  w.head? = some o ∧ ∀ v, v <+: w → v ≠ [] → v.count c < v.count o

structure Group (o c : α) (w : List α) : Prop where
  opens : w.head? = some o
  balanced : w.count o = w.count c
  first : ∀ v, v <+: w → v ≠ [] → v ≠ w → v.count o ≠ v.count c

theorem Unclosed.ne_nil {w : List α} (h : Unclosed o c w) : w ≠ [] := by
  rintro rfl
  cases h.1

theorem Unclosed.lt {w : List α} (h : Unclosed o c w) : w.count c < w.count o :=
  h.2 w List.prefix_rfl h.ne_nil

theorem unclosed_singleton (hne : o ≠ c) : Unclosed o c [o] := by
  refine ⟨rfl, fun v hv hnil => ?_⟩
  rcases List.prefix_cons_iff.mp hv with rfl | ⟨t, rfl, ht⟩
  · exact absurd rfl hnil
  · rw [List.prefix_nil.mp ht]
    simp [hne]

theorem Unclosed.concat {w : List α} (h : Unclosed o c w) {b : α}
    (hlt : (w ++ [b]).count c < (w ++ [b]).count o) : Unclosed o c (w ++ [b]) := by
  refine ⟨(List.head?_append_of_ne_nil w h.ne_nil).trans h.1, fun v hv hnil => ?_⟩
  rcases List.prefix_concat_iff.mp hv with rfl | hv
  · exact hlt
  · exact h.2 v hv hnil

theorem Unclosed.group {w : List α} (h : Unclosed o c w) {b : α}
    (heq : (w ++ [b]).count o = (w ++ [b]).count c) : Group o c (w ++ [b]) := by
  refine ⟨(List.head?_append_of_ne_nil w h.ne_nil).trans h.1, heq, fun v hv hnil hne => ?_⟩
  rcases List.prefix_concat_iff.mp hv with rfl | hv
  · exact absurd rfl hne
  · exact (h.2 v hv hnil).ne'

/-- One symbol closes at most one bracket. -/
theorem Unclosed.le_concat {w : List α} (h : Unclosed o c w) (b : α) :
    (w ++ [b]).count c ≤ (w ++ [b]).count o := by
  have hlt := h.lt
  have hle : [b].count c ≤ 1 := List.count_le_length
  rw [List.count_append, List.count_append]
  omega

/-- Before its end a group is unclosed. -/
theorem Group.unclosed {w : List α} (hne : o ≠ c) (h : Group o c w) {v : List α} (hv : v <+: w)
    (hnil : v ≠ []) (hw : v ≠ w) : Unclosed o c v := by
  induction v using List.reverseRecOn with
  | nil => exact absurd rfl hnil
  | append_singleton v b ih =>
    have hle : v <+: w := (List.prefix_append v [b]).trans hv
    by_cases hv0 : v = []
    · subst hv0
      obtain ⟨t, rfl⟩ := hv
      obtain rfl : b = o := Option.some.inj h.opens
      exact unclosed_singleton hne
    · have hvw : v ≠ w := by
        rintro rfl
        exact absurd hv.length_le (by simp)
      have hopen := ih hle hv0 hvw
      have hle' := hopen.le_concat b
      have hne' := h.first (v ++ [b]) hv hnil hw
      exact hopen.concat (lt_of_le_of_ne hle' hne'.symm)

/-- Of two groups in front of the same list neither is longer. -/
theorem Group.eq_of_append {g g' r r' : List α} (h : Group o c g) (h' : Group o c g')
    (he : g ++ r = g' ++ r') : g = g' ∧ r = r' := by
  have hnil : ∀ {w}, Group o c w → w ≠ [] := by
    rintro w hw rfl
    cases hw.opens
  have hg : g = g' := by
    rcases List.prefix_or_prefix_of_prefix (List.prefix_append g r) (he ▸ List.prefix_append g' r') with
      hp | hp
    · by_contra hne
      exact h'.first g hp (hnil h) hne h.balanced
    · by_contra hne
      exact h.first g' hp (hnil h') (Ne.symm hne) h'.balanced
  subst hg
  exact ⟨rfl, List.append_cancel_left he⟩

omit [DecidableEq α] in
/-- The first place of a symbol in a list. -/
theorem eq_of_append_cons {x x' z z' : List α} (hx : o ∉ x) (hx' : o ∉ x')
    (he : x ++ o :: z = x' ++ o :: z') : x = x' ∧ z = z' := by
  induction x generalizing x' with
  | nil =>
    cases x' with
    | nil => exact ⟨rfl, (List.cons.inj he).2⟩
    | cons b x' => exact absurd (List.mem_cons.mpr (Or.inl (List.cons.inj he).1)) hx'
  | cons a x ih =>
    cases x' with
    | nil => exact absurd (List.mem_cons.mpr (Or.inl (List.cons.inj he).1.symm)) hx
    | cons b x' =>
      obtain ⟨rfl, ht⟩ := List.cons.inj he
      obtain ⟨rfl, hz⟩ := ih (fun h => hx (List.mem_cons_of_mem a h))
        (fun h => hx' (List.mem_cons_of_mem a h)) ht
      exact ⟨rfl, hz⟩

theorem unclosed_or_group {v : List α} (h : Unclosed o c v) (w : List α) :
    Unclosed o c (v ++ w) ∨ ∃ g r, v ++ w = g ++ r ∧ Group o c g := by
  induction w generalizing v with
  | nil => exact Or.inl (by rwa [List.append_nil])
  | cons b w ih =>
    rw [List.append_cons]
    rcases (h.le_concat b).lt_or_eq with hlt | heq
    · exact ih (h.concat hlt)
    · exact Or.inr ⟨v ++ [b], w, rfl, h.group heq.symm⟩

/-- A piece of an unclosed list is unclosed. -/
theorem Unclosed.of_prefix {v w : List α} (h : Unclosed o c w) (hv : v <+: w) (hnil : v ≠ []) :
    Unclosed o c v := by
  refine ⟨?_, fun u hu => h.2 u (hu.trans hv)⟩
  obtain ⟨t, rfl⟩ := hv
  rw [← h.1, List.head?_append_of_ne_nil v hnil]

end Brackets

end SturmRelay
