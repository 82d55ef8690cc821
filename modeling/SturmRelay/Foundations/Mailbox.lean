import Mathlib.Data.Nat.Notation
import Mathlib.Data.List.Basic

/-! # Bounded mailboxes

A buffer of fixed capacity from which elements come out in the order they went in. An element that is
offered to a full mailbox is dropped. -/

namespace SturmRelay
set_option autoImplicit false

structure Mailbox (α : Type) (cap : ℕ) where
  items : List α
  room : items.length ≤ cap

namespace Mailbox
variable {α : Type} {cap : ℕ}

def empty : Mailbox α cap := ⟨[], Nat.zero_le cap⟩

/-- There is room for one more. -/
def Open (m : Mailbox α cap) : Prop := m.items.length < cap

instance (m : Mailbox α cap) : Decidable m.Open := inferInstanceAs (Decidable (_ < _))

def offer (a : α) (m : Mailbox α cap) : Mailbox α cap :=
  if h : m.Open then
    ⟨m.items ++ [a], by
      rw [List.length_append, List.length_singleton]
      exact h⟩
  else m

/-- What is left when the oldest element has been taken. -/
def rest (m : Mailbox α cap) : Mailbox α cap :=
  ⟨m.items.tail, by
    rw [List.length_tail]
    exact Nat.le_trans (Nat.sub_le _ _) m.room⟩

/-- What an offer adds. -/
def kept (a : α) (m : Mailbox α cap) : Option α := if m.Open then some a else none

theorem offer_items (a : α) (m : Mailbox α cap) : (m.offer a).items = m.items ++ (m.kept a).toList := by
  unfold offer kept
  by_cases h : m.Open
  · rw [dif_pos h, if_pos h, Option.toList_some]
  · rw [dif_neg h, if_neg h, Option.toList_none, List.append_nil]

theorem mem_offer {a b : α} {m : Mailbox α cap} (h : b ∈ (m.offer a).items) : b ∈ m.items ∨ b = a := by
  rw [offer_items, List.mem_append, kept] at h
  refine h.imp_right fun hb => ?_
  split at hb
  · exact List.mem_singleton.mp hb
  · exact absurd hb List.not_mem_nil

theorem head?_cons_rest {a : α} {m : Mailbox α cap} (h : m.items.head? = some a) :
    m.items = a :: m.rest.items :=
  List.eq_cons_of_mem_head? h

theorem mem_rest {a : α} {m : Mailbox α cap} (h : a ∈ m.rest.items) : a ∈ m.items :=
  List.mem_of_mem_tail h

end Mailbox

end SturmRelay
