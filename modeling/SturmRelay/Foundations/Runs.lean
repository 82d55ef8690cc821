import Mathlib.Data.List.Induction

/-! # Runs of a deterministic step function

`step s e` is the state after event `e` together with what the step answers. `runState` is the
state a list of events leads to, `trace` lists every event with the state it was taken in and its
answer. The rules below lift what one step preserves to whole runs; `allSteps_of_invariant` is for
properties that hold only along runs whose steps meet a condition on the state before them. -/

namespace SturmRelay
set_option autoImplicit false

section Runs
variable {σ ε ω : Type} (step : σ → ε → σ × ω)

/-- The state after a list of events. -/
def runState (s : σ) : List ε → σ
  | [] => s
  | e :: es => runState (step s e).1 es

/-- Each event of a run with the state before it and the step's answer. -/
def trace (s : σ) : List ε → List (σ × ε × ω)
  | [] => []
  | e :: es => (s, e, (step s e).2) :: trace (step s e).1 es

theorem runState_append (s : σ) (es es' : List ε) :
    runState step s (es ++ es') = runState step (runState step s es) es' := by
  induction es generalizing s with
  | nil => rfl
  | cons e es ih => exact ih _

theorem trace_append (s : σ) (es es' : List ε) :
    trace step s (es ++ es') = trace step s es ++ trace step (runState step s es) es' := by
  induction es generalizing s with
  | nil => rfl
  | cons e es ih =>
    rw [List.cons_append, trace, trace, List.cons_append, ih]
    rfl

theorem mem_of_mem_trace {s : σ} {es : List ε} {x : σ × ε × ω} (h : x ∈ trace step s es) : x.2.1 ∈ es := by
  induction es generalizing s with
  | nil => exact absurd h List.not_mem_nil
  | cons e es ih =>
    rcases List.mem_cons.mp h with rfl | h
    · exact List.mem_cons_self
    · exact List.mem_cons_of_mem e (ih h)

variable {step}

theorem run_invariant {I : σ → Prop} (hstep : ∀ s e, I s → I (step s e).1) {s : σ} (hs : I s)
    (es : List ε) : I (runState step s es) := by
  induction es generalizing s with
  | nil => exact hs
  | cons e es ih => exact ih (hstep s e hs)

/-- Every step of the run from `s` satisfies `C`, a condition on the state before the step, the
event and the answer. -/
def AllSteps (step : σ → ε → σ × ω) (C : σ → ε → ω → Prop) (s : σ) (es : List ε) : Prop :=
  ∀ x ∈ trace step s es, C x.1 x.2.1 x.2.2

instance (step : σ → ε → σ × ω) (C : σ → ε → ω → Prop) [∀ s e o, Decidable (C s e o)] (s : σ)
    (es : List ε) : Decidable (AllSteps step C s es) :=
  inferInstanceAs (Decidable (∀ x ∈ trace step s es, C x.1 x.2.1 x.2.2))

theorem allSteps_cons {C : σ → ε → ω → Prop} {s : σ} {e : ε} {es : List ε} :
    AllSteps step C s (e :: es) ↔ C s e (step s e).2 ∧ AllSteps step C (step s e).1 es := by
  simp [AllSteps, trace]

theorem allSteps_concat {C : σ → ε → ω → Prop} {s : σ} {es : List ε} {e : ε} :
    AllSteps step C s (es ++ [e]) ↔ AllSteps step C s es ∧
      C (runState step s es) e (step (runState step s es) e).2 := by
  unfold AllSteps
  rw [trace_append, List.forall_mem_append]
  simp [trace]

/-- What one more step adds to what is observed of a run. -/
theorem filterMap_concat {α β : Type} (f : α → Option β) (l : List α) (a : α) :
    (l ++ [a]).filterMap f = l.filterMap f ++ (f a).toList := by
  rw [List.filterMap_append, List.filterMap_cons, List.filterMap_nil]
  cases f a <;> rfl

/-- An invariant that also sees what has happened so far, along a run whose steps meet `C`. -/
theorem allSteps_invariant_trace {I : List (σ × ε × ω) → σ → Prop} {C : σ → ε → ω → Prop} {s : σ}
    (hs : I [] s)
    (hstep : ∀ tr s e, I tr s → C s e (step s e).2 → I (tr ++ [(s, e, (step s e).2)]) (step s e).1)
    {es : List ε} (hC : AllSteps step C s es) : I (trace step s es) (runState step s es) := by
  induction es using List.reverseRecOn with
  | nil => exact hs
  | append_singleton es e ih =>
    obtain ⟨hinit, hlast⟩ := allSteps_concat.mp hC
    rw [trace_append, runState_append]
    exact hstep _ _ e (ih hinit) hlast

variable (step) in
theorem run_invariant_trace {I : List (σ × ε × ω) → σ → Prop} {s : σ} (hs : I [] s)
    (hstep : ∀ tr s e, I tr s → I (tr ++ [(s, e, (step s e).2)]) (step s e).1) (es : List ε) :
    I (trace step s es) (runState step s es) :=
  allSteps_invariant_trace (C := fun _ _ _ => True) hs (fun tr s e h _ => hstep tr s e h)
    fun _ _ => trivial

/-- A property that, in states satisfying an invariant, the next step keeps exactly when `C` holds of
it holds after a run exactly when `C` holds of all its steps. -/
theorem run_iff_allSteps_of_invariant {I P : σ → Prop} {C : σ → ε → ω → Prop}
    (hinv : ∀ s e, I s → I (step s e).1)
    (hstep : ∀ s e, I s → (P (step s e).1 ↔ P s ∧ C s e (step s e).2)) {s : σ} (hI : I s) (hs : P s)
    (es : List ε) : P (runState step s es) ↔ AllSteps step C s es := by
  induction es using List.reverseRecOn with
  | nil => exact ⟨fun _ x hx => absurd hx List.not_mem_nil, fun _ => hs⟩
  | append_singleton es e ih =>
    rw [runState_append, allSteps_concat, ← ih]
    exact hstep _ e (run_invariant hinv hI es)

/-- In every state of a run `P` holds exactly when `C` holds of every step, if that is so for one
step. -/
theorem allSteps_iff_of_invariant {I P : σ → Prop} {C : σ → ε → ω → Prop}
    (hinv : ∀ s e, I s → I (step s e).1)
    (hstep : ∀ s e, I s → P s → (P (step s e).1 ↔ C s e (step s e).2)) {s : σ} (hI : I s) (hP : P s)
    (es : List ε) :
    AllSteps step (fun s e _ => P (step s e).1) s es ↔ AllSteps step C s es := by
  induction es generalizing s with
  | nil => exact ⟨fun _ x hx => absurd hx List.not_mem_nil, fun _ x hx => absurd hx List.not_mem_nil⟩
  | cons e es ih =>
    rw [allSteps_cons, allSteps_cons, hstep s e hI hP]
    refine and_congr_right fun hC => ?_
    exact ih (hinv s e hI) ((hstep s e hI hP).mpr hC)

/-- An invariant that steps meeting `C` preserve, and that gives `P` at such a step, gives `P` at
every step of a run of them. -/
theorem allSteps_of_invariant {I : σ → Prop} {C P : σ → ε → ω → Prop}
    (hstep : ∀ s e, I s → C s e (step s e).2 → I (step s e).1)
    (hP : ∀ s e, I s → C s e (step s e).2 → P s e (step s e).2) {s : σ} (hs : I s) {es : List ε}
    (hC : AllSteps step C s es) : AllSteps step P s es := by
  induction es generalizing s with
  | nil => exact fun x hx => nomatch hx
  | cons e es ih =>
    obtain ⟨h1, h2⟩ := allSteps_cons.mp hC
    exact allSteps_cons.mpr ⟨hP s e hs h1, ih (hstep s e hs h1) h2⟩

/-- Events that leave the state alone can be deleted: the run ends in the same state, and the steps
that are left start in the same states and give the same answers. -/
theorem run_filter_of_stutter {I : σ → Prop} {keep : ε → Bool} (hinv : ∀ s e, I s → I (step s e).1)
    (hstutter : ∀ s e, I s → keep e = false → (step s e).1 = s) {s : σ} (hs : I s) (es : List ε) :
    runState step s (es.filter keep) = runState step s es ∧
      trace step s (es.filter keep) = (trace step s es).filter fun x => keep x.2.1 := by
  induction es generalizing s with
  | nil => exact ⟨rfl, rfl⟩
  | cons e es ih =>
    obtain ⟨hstate, htrace⟩ := ih (hinv s e hs)
    rw [runState, trace, List.filter_cons, List.filter_cons]
    dsimp only
    cases hk : keep e with
    | true =>
      rw [if_pos rfl, if_pos rfl, runState, trace, hstate, htrace]
      exact ⟨rfl, rfl⟩
    | false =>
      rw [if_neg Bool.false_ne_true, if_neg Bool.false_ne_true, ← hstate, ← htrace,
        hstutter s e hs hk]
      exact ⟨rfl, rfl⟩

end Runs

/-! ## Events with a history -/

section Histories
variable {ε : Type} {P : List ε → ε → Prop} {es : List ε} {e : ε}

/-- One of the events satisfies `P`, together with the events before it. -/
def Occurs (P : List ε → ε → Prop) (es : List ε) : Prop :=
  ∃ before e after, es = before ++ e :: after ∧ P before e

/-- All of them do. -/
def Throughout (P : List ε → ε → Prop) (es : List ε) : Prop :=
  ∀ before e after, es = before ++ e :: after → P before e

theorem not_occurs_nil : ¬ Occurs P [] := by
  rintro ⟨before, e, after, he, -⟩
  simp at he

theorem throughout_nil : Throughout P [] := by
  intro before e after he
  simp at he

theorem throughout_concat : Throughout P (es ++ [e]) ↔ Throughout P es ∧ P es e := by
  constructor
  · intro h
    refine ⟨fun before e' after he => ?_, h es e [] rfl⟩
    exact h before e' (after ++ [e]) (by rw [he, List.append_assoc, List.cons_append])
  · rintro ⟨h, hlast⟩ before e' after he
    rcases List.eq_nil_or_concat after with rfl | ⟨mid, x, rfl⟩
    · obtain ⟨rfl, hx⟩ := List.append_inj' he rfl
      cases hx
      exact hlast
    · have hsplit : es ++ [e] = (before ++ e' :: mid) ++ [x] := by
        rw [he]
        simp
      exact h before e' mid (List.append_inj' hsplit rfl).1

theorem occurs_concat : Occurs P (es ++ [e]) ↔ Occurs P es ∨ P es e := by
  have hnot : ∀ es, Occurs P es ↔ ¬ Throughout (fun before e => ¬ P before e) es := by
    intro es
    simp only [Occurs, Throughout, not_forall, not_not, exists_prop]
  rw [hnot, hnot, throughout_concat, not_and_or, not_not]

end Histories

/-! ## Simulation of a part of a run -/

section Simulation
variable {σ τ ε φ ω υ ρ : Type} {step : σ → ε → σ × ω} {astep : τ → φ → τ × υ}

/-- A run simulates the run of another machine on the part of its events that concerns it: events
outside that part are skipped, and what is observed of the rest is the same. -/
theorem run_simulates {R : σ → τ → Prop} {C : σ → ε → ω → Prop} {part : ε → Option φ}
    {obs : ε → ω → List ρ} {aobs : φ → υ → List ρ}
    (hskip : ∀ s t e, R s t → C s e (step s e).2 → part e = none →
      R (step s e).1 t ∧ obs e (step s e).2 = [])
    (hstep : ∀ s t e a, R s t → C s e (step s e).2 → part e = some a →
      R (step s e).1 (astep t a).1 ∧ obs e (step s e).2 = aobs a (astep t a).2)
    {s : σ} {t : τ} (h : R s t) {es : List ε} (hC : AllSteps step C s es) :
    R (runState step s es) (runState astep t (es.filterMap part)) ∧
      (trace step s es).flatMap (fun x => obs x.2.1 x.2.2) =
        (trace astep t (es.filterMap part)).flatMap fun x => aobs x.2.1 x.2.2 := by
  induction es generalizing s t with
  | nil => exact ⟨h, rfl⟩
  | cons e es ih =>
    obtain ⟨hhead, htail⟩ := allSteps_cons.mp hC
    rw [runState, trace, List.flatMap_cons]
    cases hpart : part e with
    | none =>
      obtain ⟨hR, hobs⟩ := hskip s t e h hhead hpart
      rw [List.filterMap_cons_none hpart, hobs]
      exact ih hR htail
    | some a =>
      obtain ⟨hR, hobs⟩ := hstep s t e a h hhead hpart
      obtain ⟨hend, hrest⟩ := ih hR htail
      rw [List.filterMap_cons_some hpart, runState, trace, List.flatMap_cons, hobs, hrest]
      exact ⟨hend, rfl⟩

end Simulation

end SturmRelay
