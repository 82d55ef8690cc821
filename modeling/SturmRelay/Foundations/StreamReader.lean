import SturmRelay.Foundations.Bytes
import Mathlib.Logic.Basic

/-! # Readers of streams

A reader takes what it needs off the front of a stream. It ends in a value and the rest of the
stream, in an error, or in a panic; readers compose in sequence.

`Accepts rd G` says that the relation `G` between what is consumed and what is returned is exactly
the language of `rd`. The rules `accepts_bind`, `accepts_wrap` and so on give the language of a
composed reader from those of its parts, and `bind_eq_panic` where its panics come from. -/

namespace SturmRelay
set_option autoImplicit false

inductive Outcome (τ ε α : Type)
  | ok (a : α) (rest : List τ)
  | err (e : ε)
  | panic (f : Fault)
  deriving DecidableEq, Repr

def StreamReader (τ ε α : Type) := List τ → Outcome τ ε α

/-- The two ends of a stream: before the first byte asked for, or in the middle. -/
inductive EOF
  | eof
  | unexpectedEOF
  deriving DecidableEq, Repr

def EOF.message : EOF → String
  | .eof => "EOF"
  | .unexpectedEOF => "unexpected EOF"

namespace StreamReader
variable {τ ε ε' α β : Type}

def fail (e : ε) : StreamReader τ ε α := fun _ => .err e

def fault (f : Fault) : StreamReader τ ε α := fun _ => .panic f

def wrap (w : ε → ε') (rd : StreamReader τ ε α) : StreamReader τ ε' α := fun s =>
  match rd s with
  | .ok a rest => .ok a rest
  | .err e => .err (w e)
  | .panic f => .panic f

protected def bind (rd : StreamReader τ ε α) (k : α → StreamReader τ ε β) : StreamReader τ ε β := fun s =>
  match rd s with
  | .ok a rest => k a rest
  | .err e => .err e
  | .panic f => .panic f

instance : Monad (StreamReader τ ε) where
  pure a := fun s => .ok a s
  bind := StreamReader.bind

/-- Exactly `n` elements. -/
def readFull (n : ℕ) : StreamReader τ EOF (List τ) := fun s =>
  if n ≤ s.length then .ok (s.take n) (s.drop n)
  else if s.length = 0 then .err .eof
  else .err .unexpectedEOF

/-! ## One step -/

theorem bind_eq_ok {rd : StreamReader τ ε α} {k : α → StreamReader τ ε β} {s rest : List τ} {b : β} :
    (rd >>= k) s = .ok b rest ↔ ∃ a mid, rd s = .ok a mid ∧ k a mid = .ok b rest := by
  change (match rd s with | .ok a rest => k a rest | .err e => .err e | .panic f => .panic f) = _ ↔ _
  cases h : rd s with
  | ok a mid =>
    constructor
    · exact fun hk => ⟨a, mid, rfl, hk⟩
    · rintro ⟨a', mid', he, hk⟩
      cases he
      exact hk
  | err e => simp
  | panic f => simp

theorem bind_eq_panic {rd : StreamReader τ ε α} {k : α → StreamReader τ ε β} {s : List τ} {f : Fault} :
    (rd >>= k) s = .panic f ↔ rd s = .panic f ∨ ∃ a mid, rd s = .ok a mid ∧ k a mid = .panic f := by
  change (match rd s with | .ok a rest => k a rest | .err e => .err e | .panic f => .panic f) = _ ↔ _
  cases h : rd s with
  | ok a mid =>
    constructor
    · exact fun hk => Or.inr ⟨a, mid, rfl, hk⟩
    · rintro (he | ⟨a', mid', he, hk⟩)
      · cases he
      · cases he
        exact hk
  | err e => simp
  | panic f' => simp

theorem wrap_eq_ok {w : ε → ε'} {rd : StreamReader τ ε α} {s rest : List τ} {a : α} :
    rd.wrap w s = .ok a rest ↔ rd s = .ok a rest := by
  unfold wrap
  cases rd s <;> simp

theorem wrap_eq_panic {w : ε → ε'} {rd : StreamReader τ ε α} {s : List τ} {f : Fault} :
    rd.wrap w s = .panic f ↔ rd s = .panic f := by
  unfold wrap
  cases rd s <;> simp

/-! ## Panics -/

def NeverPanics (rd : StreamReader τ ε α) : Prop := ∀ s f, rd s ≠ .panic f

theorem neverPanics_pure (a : α) : NeverPanics (pure a : StreamReader τ ε α) :=
  fun _ _ h => nomatch h

theorem neverPanics_fail (e : ε) : NeverPanics (fail e : StreamReader τ ε α) :=
  fun _ _ h => nomatch h

theorem neverPanics_readFull (n : ℕ) : NeverPanics (readFull n : StreamReader τ EOF (List τ)) := by
  intro s f
  unfold readFull
  split
  · exact fun h => nomatch h
  · split <;> exact fun h => nomatch h

theorem NeverPanics.wrap {rd : StreamReader τ ε α} (h : NeverPanics rd) (w : ε → ε') :
    NeverPanics (rd.wrap w) :=
  fun s f hp => h s f (wrap_eq_panic.mp hp)

theorem NeverPanics.bind {rd : StreamReader τ ε α} {k : α → StreamReader τ ε β} (h : NeverPanics rd)
    (hk : ∀ a, NeverPanics (k a)) : NeverPanics (rd >>= k) := by
  intro s f hp
  rcases bind_eq_panic.mp hp with hrd | ⟨a, mid, _, hka⟩
  · exact h s f hrd
  · exact hk a mid f hka

theorem NeverPanics.ite {c : Prop} [Decidable c] {rd rd' : StreamReader τ ε α} (h : NeverPanics rd)
    (h' : NeverPanics rd') : NeverPanics (if c then rd else rd') := by
  split
  · exact h
  · exact h'

/-! ## Languages -/

/-- `G w a`: consuming `w`, the reader returns `a`. -/
def Accepts (rd : StreamReader τ ε α) (G : List τ → α → Prop) : Prop :=
  ∀ s a rest, rd s = .ok a rest ↔ ∃ w, s = w ++ rest ∧ G w a

theorem Accepts.congr {rd : StreamReader τ ε α} {G G' : List τ → α → Prop} (h : Accepts rd G)
    (hG : ∀ w a, G w a ↔ G' w a) : Accepts rd G' := by
  intro s a rest
  rw [h s a rest]
  exact exists_congr fun w => and_congr_right fun _ => hG w a

theorem accepts_pure (a : α) :
    Accepts (pure a : StreamReader τ ε α) fun w b => w = [] ∧ b = a := by
  intro s b rest
  change Outcome.ok a s = .ok b rest ↔ _
  constructor
  · intro h
    cases h
    exact ⟨[], rfl, rfl, rfl⟩
  · rintro ⟨_, rfl, rfl, rfl⟩
    rfl

theorem accepts_fail (e : ε) : Accepts (fail e : StreamReader τ ε α) fun _ _ => False := by
  intro s b rest
  exact ⟨(fun h => nomatch h), fun ⟨_, _, h⟩ => h.elim⟩

theorem accepts_fault (f : Fault) : Accepts (fault f : StreamReader τ ε α) fun _ _ => False := by
  intro s b rest
  exact ⟨(fun h => nomatch h), fun ⟨_, _, h⟩ => h.elim⟩

theorem accepts_bind {rd : StreamReader τ ε α} {k : α → StreamReader τ ε β} {G : List τ → α → Prop}
    {H : α → List τ → β → Prop} (hrd : Accepts rd G) (hk : ∀ a, Accepts (k a) (H a)) :
    Accepts (rd >>= k) fun w b => ∃ w1 w2 a, w = w1 ++ w2 ∧ G w1 a ∧ H a w2 b := by
  intro s b rest
  rw [bind_eq_ok]
  constructor
  · rintro ⟨a, mid, h1, h2⟩
    obtain ⟨w1, rfl, hG⟩ := (hrd s a mid).mp h1
    obtain ⟨w2, rfl, hH⟩ := (hk a mid b rest).mp h2
    exact ⟨w1 ++ w2, (List.append_assoc _ _ _).symm, w1, w2, a, rfl, hG, hH⟩
  · rintro ⟨_, rfl, w1, w2, a, rfl, hG, hH⟩
    refine ⟨a, w2 ++ rest, (hrd _ _ _).mpr ⟨w1, List.append_assoc _ _ _, hG⟩, ?_⟩
    exact (hk a _ _ _).mpr ⟨w2, rfl, hH⟩

theorem accepts_wrap {rd : StreamReader τ ε α} {G : List τ → α → Prop} (h : Accepts rd G) (w : ε → ε') :
    Accepts (rd.wrap w) G := by
  intro s a rest
  rw [wrap_eq_ok]
  exact h s a rest

theorem accepts_ite {c : Prop} [Decidable c] {rd rd' : StreamReader τ ε α} {G G' : List τ → α → Prop}
    (h : c → Accepts rd G) (h' : ¬ c → Accepts rd' G') :
    Accepts (if c then rd else rd') fun w a => (c ∧ G w a) ∨ (¬ c ∧ G' w a) := by
  by_cases hc : c
  · rw [if_pos hc]
    exact (h hc).congr fun w a => by simp [hc]
  · rw [if_neg hc]
    exact (h' hc).congr fun w a => by simp [hc]

theorem accepts_readFull (n : ℕ) : Accepts (readFull n : StreamReader τ EOF (List τ)) fun w a =>
    w.length = n ∧ a = w := by
  intro s a rest
  unfold readFull
  constructor
  · intro h
    split at h
    · next hn =>
      cases h
      exact ⟨s.take n, (List.take_append_drop n s).symm, List.length_take_of_le hn, rfl⟩
    · split at h <;> cases h
  · rintro ⟨w, rfl, rfl, rfl⟩
    rw [if_pos (by rw [List.length_append]; omega), List.take_left' rfl, List.drop_left' rfl]

end StreamReader
end SturmRelay
