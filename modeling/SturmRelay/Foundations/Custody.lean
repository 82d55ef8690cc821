import Mathlib.Data.Nat.Notation
import Mathlib.Logic.Function.Basic
import Mathlib.Data.Option.Basic

/-! # Resources with one holder each

Holders of type `H` hold resources of type `K`, one each at most; a resource is opened once and then
closed some number of times. `Step` lists what can happen to them. `Sound` is kept by every step.
`NoOrphan`, that a resource is open only while somebody holds it, is lost exactly when a holder lets
go of its resource without closing it. -/

namespace SturmRelay
set_option autoImplicit false

structure Custody (H K : Type) where
  held : H → Option K
  /-- How often a resource has been closed, if it was opened at all. -/
  closes : K → Option ℕ

namespace Custody
variable {H K : Type} [DecidableEq H] [DecidableEq K] {c c' : Custody H K}

inductive Step (c c' : Custody H K) : Prop
  | same (hheld : c'.held = c.held) (hcloses : c'.closes = c.closes)
  | acquire (h : H) (k : K) (hfree : c.held h = none) (hnew : c.closes k = none)
      (hheld : c'.held = Function.update c.held h (some k))
      (hcloses : c'.closes = Function.update c.closes k (some 0))
  | release (h : H) (k : K) (hholds : c.held h = some k)
      (hheld : c'.held = Function.update c.held h none)
      (hcloses : c'.closes = Function.update c.closes k ((c.closes k).map (· + 1)))
  | discard (k : K) (hnew : c.closes k = none) (hheld : c'.held = c.held)
      (hcloses : c'.closes = Function.update c.closes k (some 1))

/-- A holder lets go of its resource and leaves it open. -/
structure Abandon (c c' : Custody H K) (h : H) (k : K) : Prop where
  holds : c.held h = some k
  held : c'.held = Function.update c.held h none
  closes : c'.closes = c.closes

structure Sound (c : Custody H K) : Prop where
  unique : ∀ h h' k, c.held h = some k → c.held h' = some k → h = h'
  isOpen : ∀ h k, c.held h = some k → c.closes k = some 0
  once : ∀ k n, c.closes k = some n → n ≤ 1

def NoOrphan (c : Custody H K) : Prop := ∀ k, c.closes k = some 0 → ∃ h, c.held h = some k

omit [DecidableEq K] in
theorem update_none_eq_some {held : H → Option K} {h h' : H} {k : K} :
    Function.update held h none h' = some k ↔ h' ≠ h ∧ held h' = some k := by
  by_cases he : h' = h
  · subst he
    simp
  · simp [he]

omit [DecidableEq K] in
theorem update_some_eq_some {held : H → Option K} {h h' : H} {k k' : K} :
    Function.update held h (some k) h' = some k' ↔
      h' = h ∧ k' = k ∨ h' ≠ h ∧ held h' = some k' := by
  by_cases he : h' = h
  · subst he
    simp [eq_comm]
  · simp [he]

theorem once_update {closes : K → Option ℕ} (h : ∀ k n, closes k = some n → n ≤ 1) {k : K}
    {v : Option ℕ} (hv : ∀ n, v = some n → n ≤ 1) :
    ∀ k' n, Function.update closes k v k' = some n → n ≤ 1 := by
  intro k' n hn
  by_cases ek : k' = k
  · subst ek
    rw [Function.update_self] at hn
    exact hv n hn
  · rw [Function.update_of_ne ek] at hn
    exact h k' n hn

omit [DecidableEq H] [DecidableEq K] in
theorem Sound.ne_of_new {h : H} {k k' : K} (hs : Sound c) (hnew : c.closes k = none)
    (hk' : c.held h = some k') : k' ≠ k := by
  rintro rfl
  rw [hs.isOpen h k' hk'] at hnew
  cases hnew

theorem Sound.acquire {h : H} {k : K} (hs : Sound c) (hnew : c.closes k = none)
    (hheld : c'.held = Function.update c.held h (some k))
    (hcloses : c'.closes = Function.update c.closes k (some 0)) : Sound c' := by
  refine ⟨fun h₁ h₂ k' => ?_, fun h₁ k' => ?_, fun k' n => ?_⟩
  · rw [hheld, update_some_eq_some, update_some_eq_some]
    rintro (⟨rfl, rfl⟩ | ⟨-, hk₁⟩) (⟨rfl, hk₂⟩ | ⟨-, hk₂⟩)
    · rfl
    · exact absurd rfl (hs.ne_of_new hnew hk₂)
    · exact absurd hk₂ (hs.ne_of_new hnew hk₁)
    · exact hs.unique h₁ h₂ k' hk₁ hk₂
  · rw [hheld, hcloses, update_some_eq_some]
    rintro (⟨-, rfl⟩ | ⟨-, hk'⟩)
    · exact Function.update_self ..
    · rw [Function.update_of_ne (hs.ne_of_new hnew hk')]
      exact hs.isOpen h₁ k' hk'
  · rw [hcloses]
    exact once_update hs.once (by simp) k' n

theorem Sound.release {h : H} {k : K} (hs : Sound c) (hholds : c.held h = some k)
    (hheld : c'.held = Function.update c.held h none)
    (hcloses : c'.closes = Function.update c.closes k ((c.closes k).map (· + 1))) : Sound c' := by
  refine ⟨fun h₁ h₂ k' => ?_, fun h₁ k' => ?_, fun k' n => ?_⟩
  · rw [hheld, update_none_eq_some, update_none_eq_some]
    exact fun a b => hs.unique h₁ h₂ k' a.2 b.2
  · rw [hheld, hcloses, update_none_eq_some]
    rintro ⟨hne, hk'⟩
    have hk : k' ≠ k := by
      rintro rfl
      exact hne (hs.unique h₁ h k' hk' hholds)
    rw [Function.update_of_ne hk]
    exact hs.isOpen h₁ k' hk'
  · rw [hcloses, hs.isOpen h k hholds]
    exact once_update hs.once (by simp) k' n

omit [DecidableEq H] in
theorem Sound.discard {k : K} (hs : Sound c) (hnew : c.closes k = none) (hheld : c'.held = c.held)
    (hcloses : c'.closes = Function.update c.closes k (some 1)) : Sound c' := by
  refine ⟨?_, fun h₁ k' => ?_, fun k' n => ?_⟩
  · rw [hheld]
    exact hs.unique
  · rw [hheld, hcloses]
    intro hk'
    rw [Function.update_of_ne (hs.ne_of_new hnew hk')]
    exact hs.isOpen h₁ k' hk'
  · rw [hcloses]
    exact once_update hs.once (by simp) k' n

theorem Sound.step (hs : Sound c) (hstep : Step c c') : Sound c' := by
  cases hstep with
  | same hheld hcloses =>
    refine ⟨?_, ?_, ?_⟩
    · rw [hheld]
      exact hs.unique
    · rw [hheld, hcloses]
      exact hs.isOpen
    · rw [hcloses]
      exact hs.once
  | acquire h k hfree hnew hheld hcloses => exact hs.acquire hnew hheld hcloses
  | release h k hholds hheld hcloses => exact hs.release hholds hheld hcloses
  | discard k hnew hheld hcloses => exact hs.discard hnew hheld hcloses

omit [DecidableEq K] in
theorem Sound.abandon {h : H} {k : K} (hs : Sound c) (ha : Abandon c c' h k) : Sound c' := by
  refine ⟨fun h₁ h₂ k' => ?_, fun h₁ k' => ?_, ?_⟩
  · rw [ha.held, update_none_eq_some, update_none_eq_some]
    exact fun a b => hs.unique h₁ h₂ k' a.2 b.2
  · rw [ha.held, ha.closes, update_none_eq_some]
    exact fun a => hs.isOpen h₁ k' a.2
  · rw [ha.closes]
    exact hs.once

theorem noOrphan_acquire {h : H} {k : K} (hfree : c.held h = none) (hnew : c.closes k = none)
    (hheld : c'.held = Function.update c.held h (some k))
    (hcloses : c'.closes = Function.update c.closes k (some 0)) : NoOrphan c' ↔ NoOrphan c := by
  rw [NoOrphan, NoOrphan, hheld, hcloses]
  constructor
  · intro hno k' hopen
    have hk : k' ≠ k := by
      rintro rfl
      rw [hopen] at hnew
      cases hnew
    obtain ⟨h', hh'⟩ := hno k' (by rwa [Function.update_of_ne hk])
    rcases update_some_eq_some.mp hh' with ⟨-, hk'⟩ | ⟨-, hh'⟩
    · exact absurd hk' hk
    · exact ⟨h', hh'⟩
  · intro hno k' hopen
    by_cases ek : k' = k
    · exact ⟨h, update_some_eq_some.mpr (.inl ⟨rfl, ek⟩)⟩
    · rw [Function.update_of_ne ek] at hopen
      obtain ⟨h', hh'⟩ := hno k' hopen
      refine ⟨h', update_some_eq_some.mpr (.inr ⟨?_, hh'⟩)⟩
      rintro rfl
      rw [hfree] at hh'
      cases hh'

theorem noOrphan_release {h : H} {k : K} (hs : Sound c) (hholds : c.held h = some k)
    (hheld : c'.held = Function.update c.held h none)
    (hcloses : c'.closes = Function.update c.closes k ((c.closes k).map (· + 1))) :
    NoOrphan c' ↔ NoOrphan c := by
  unfold NoOrphan
  simp only [hheld, hcloses, update_none_eq_some]
  constructor
  · intro hno k' hopen
    by_cases ek : k' = k
    · subst ek
      exact ⟨h, hholds⟩
    · obtain ⟨h', -, hh'⟩ := hno k' (by rwa [Function.update_of_ne ek])
      exact ⟨h', hh'⟩
  · intro hno k' hopen
    by_cases ek : k' = k
    · subst ek
      rw [Function.update_self, hs.isOpen h k' hholds] at hopen
      cases hopen
    · rw [Function.update_of_ne ek] at hopen
      obtain ⟨h', hh'⟩ := hno k' hopen
      refine ⟨h', ?_, hh'⟩
      rintro rfl
      rw [hholds] at hh'
      exact ek (Option.some.inj hh').symm

theorem noOrphan_step (hs : Sound c) (hstep : Step c c') : NoOrphan c' ↔ NoOrphan c := by
  cases hstep with
  | same hheld hcloses => rw [NoOrphan, NoOrphan, hheld, hcloses]
  | acquire h k hfree hnew hheld hcloses => exact noOrphan_acquire hfree hnew hheld hcloses
  | release h k hholds hheld hcloses => exact noOrphan_release hs hholds hheld hcloses
  | discard k hnew hheld hcloses =>
    rw [NoOrphan, NoOrphan, hheld, hcloses]
    refine forall_congr' fun k' => ?_
    by_cases ek : k' = k
    · subst ek
      simp [hnew]
    · rw [Function.update_of_ne ek]

omit [DecidableEq K] in
theorem orphan_abandon {h : H} {k : K} (hs : Sound c) (ha : Abandon c c' h k) : ¬ NoOrphan c' := by
  intro hno
  obtain ⟨h', hh'⟩ := hno k (by rw [ha.closes]; exact hs.isOpen h k ha.holds)
  rw [ha.held, update_none_eq_some] at hh'
  exact hh'.1 (hs.unique h' h k hh'.2 ha.holds)

end Custody

end SturmRelay
