import Mathlib.Data.Nat.Notation
import Mathlib.Logic.Function.Basic

/-! # Objects behind pointers

A heap of objects of one type. A pointer is a number, `alloc` hands out the next one, and an
object stays readable and writable through its pointer however the tables that once named it
change: deleting a table entry does not touch the object. -/

namespace SturmRelay
set_option autoImplicit false

/-- Objects of type `α` by pointer. Pointers below `next` have been handed out. -/
structure Heap (α : Type) where
  next : ℕ
  cell : ℕ → α

namespace Heap
variable {α : Type}

/-- Put a new object on the heap. Its pointer is the old `next`. -/
def alloc (h : Heap α) (a : α) : Heap α where
  next := h.next + 1
  cell := Function.update h.cell h.next a

/-- Change the object behind `r`. -/
def modify (h : Heap α) (r : ℕ) (f : α → α) : Heap α where
  next := h.next
  cell := Function.update h.cell r (f (h.cell r))

@[simp] theorem alloc_cell_self (h : Heap α) (a : α) : (h.alloc a).cell h.next = a := by
  simp [alloc]

theorem alloc_cell_of_lt (h : Heap α) (a : α) {r : ℕ} (hr : r < h.next) :
    (h.alloc a).cell r = h.cell r := by
  simp [alloc, Function.update_of_ne (Nat.ne_of_lt hr)]

@[simp] theorem modify_cell_self (h : Heap α) (r : ℕ) (f : α → α) :
    (h.modify r f).cell r = f (h.cell r) := by
  simp [modify]

theorem modify_cell_ne (h : Heap α) {r r' : ℕ} (f : α → α) (hne : r' ≠ r) :
    (h.modify r f).cell r' = h.cell r' := by
  simp [modify, Function.update_of_ne hne]

theorem modify_congr (h : Heap α) {r : ℕ} {f g : α → α} (hfg : f (h.cell r) = g (h.cell r)) :
    h.modify r f = h.modify r g := by
  unfold modify
  rw [hfg]

theorem modify_eq_self (h : Heap α) {r : ℕ} {f : α → α} (hf : f (h.cell r) = h.cell r) :
    h.modify r f = h := by
  unfold modify
  rw [hf, Function.update_eq_self]

/-! ## Counting objects -/

/-- How many of the objects handed out satisfy `p`. -/
def count (p : α → Bool) (h : Heap α) : ℕ := (List.range h.next).countP fun r => p (h.cell r)

theorem countP_range_update (p : α → Bool) (cell : ℕ → α) (r : ℕ) (a : α) (n : ℕ) (hr : r < n) :
    (List.range n).countP (fun k => p (Function.update cell r a k)) + (p (cell r)).toNat =
      (List.range n).countP (fun k => p (cell k)) + (p a).toNat := by
  have hlast : ∀ (c : ℕ → α) (m : ℕ), (List.range (m + 1)).countP (fun k => p (c k)) =
      (List.range m).countP (fun k => p (c k)) + (p (c m)).toNat := by
    intro c m
    rw [List.range_succ, List.countP_append, List.countP_singleton]
    cases p (c m) <;> rfl
  induction n with
  | zero => omega
  | succ n ih =>
    rw [hlast (Function.update cell r a), hlast cell]
    rcases Nat.lt_succ_iff_lt_or_eq.mp hr with hlt | rfl
    · rw [Function.update_of_ne (Nat.ne_of_gt hlt)]
      have := ih hlt
      omega
    · rw [Function.update_self]
      have hbelow : (List.range r).countP (fun k => p (Function.update cell r a k)) =
          (List.range r).countP (fun k => p (cell k)) := by
        refine List.countP_congr fun k hk => ?_
        rw [Function.update_of_ne (Nat.ne_of_lt (List.mem_range.mp hk))]
      omega

theorem count_modify (p : α → Bool) (h : Heap α) {r : ℕ} (f : α → α) (hr : r < h.next) :
    (h.modify r f).count p + (p (h.cell r)).toNat = h.count p + (p (f (h.cell r))).toNat :=
  countP_range_update p h.cell r (f (h.cell r)) h.next hr

theorem count_alloc (p : α → Bool) (h : Heap α) (a : α) :
    (h.alloc a).count p = h.count p + (p a).toNat := by
  show (List.range (h.next + 1)).countP (fun k => p (Function.update h.cell h.next a k)) = _
  rw [List.range_succ, List.countP_append, List.countP_singleton, Function.update_self]
  have hbelow : (List.range h.next).countP (fun k => p (Function.update h.cell h.next a k)) =
      h.count p := by
    refine List.countP_congr fun k hk => ?_
    rw [Function.update_of_ne (Nat.ne_of_lt (List.mem_range.mp hk))]
  rw [hbelow]
  cases p a <;> rfl

end Heap

end SturmRelay
