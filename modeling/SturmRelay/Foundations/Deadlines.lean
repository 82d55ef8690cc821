import SturmRelay.Foundations.Segments
import Mathlib.Data.List.ReduceOption
import Mathlib.Logic.Function.Iterate

/-! # Reading under deadlines

A tape is what a connection does while it is read: an element arrives (`some`), or the deadline of the
read expires (`none`). `onTape` runs a `ReadScript` on a tape. What a script has taken when a deadline
expires is lost, so a loop that goes on reading after that (`turn`) may stand in the middle of a value.

On the tape of a stream of encoded values the loop stays in step with the stream exactly when every
deadline expires between two values (`inStep_iff_atBoundaries`). -/

namespace SturmRelay
set_option autoImplicit false

/-- The end of a script on a tape; `waiting` at the end of the tape. -/
inductive TapeOutcome (τ ε α : Type)
  | ok (a : α) (rest : List (Option τ))
  | err (e : ε)
  | timeout (rest : List (Option τ))
  | waiting

namespace ReadScript
variable {τ ε α : Type}

/-- Fill a buffer: `got` has been read and `n` elements are missing. -/
def fillTape : ℕ → List τ → List (Option τ) → TapeOutcome τ ε (List τ)
  | 0, got, t => .ok got t
  | _ + 1, _, [] => .waiting
  | _ + 1, _, none :: t => .timeout t
  | n + 1, got, some x :: t => fillTape n (got ++ [x]) t

def onTape : ReadScript τ ε α → List (Option τ) → TapeOutcome τ ε α
  | ret a, t => .ok a t
  | fail e, _ => .err e
  | readFull n _ k, t =>
    match (fillTape n [] t : TapeOutcome τ ε (List τ)) with
    | .ok bs rest => (k bs).onTape rest
    | .err e => .err e
    | .timeout rest => .timeout rest
    | .waiting => .waiting

/-! ## Filling a buffer -/

theorem fillTape_full {n : ℕ} {bs : List τ} (h : bs.length = n) (got : List τ) (t : List (Option τ)) :
    (fillTape n got (bs.map some ++ t) : TapeOutcome τ ε (List τ)) = .ok (got ++ bs) t := by
  induction bs generalizing n got with
  | nil =>
    subst h
    rw [List.append_nil]
    rfl
  | cons b bs ih =>
    subst h
    rw [List.map_cons, List.cons_append, List.length_cons, fillTape, ih rfl, List.append_assoc]
    rfl

theorem fillTape_take {n : ℕ} {bs : List τ} (h : n ≤ bs.length) (t : List (Option τ)) :
    (fillTape n [] (bs.map some ++ t) : TapeOutcome τ ε (List τ)) =
      .ok (bs.take n) ((bs.drop n).map some ++ t) := by
  have hfull := fillTape_full (ε := ε) (List.length_take_of_le h) [] ((bs.drop n).map some ++ t)
  rw [← List.append_assoc, ← List.map_append, List.take_append_drop] at hfull
  exact hfull

theorem fillTape_short {n : ℕ} {bs : List τ} (h : bs.length < n) (got : List τ) (t : List (Option τ)) :
    (fillTape n got (bs.map some ++ none :: t) : TapeOutcome τ ε (List τ)) = .timeout t ∧
      (fillTape n got (bs.map some) : TapeOutcome τ ε (List τ)) = .waiting := by
  induction bs generalizing n got with
  | nil =>
    obtain ⟨n, rfl⟩ := Nat.exists_eq_succ_of_ne_zero (Nat.ne_of_gt h)
    exact ⟨rfl, rfl⟩
  | cons b bs ih =>
    obtain ⟨n, rfl⟩ := Nat.exists_eq_succ_of_ne_zero (Nat.ne_of_gt (Nat.zero_lt_of_lt h))
    exact ih (Nat.lt_of_succ_lt_succ h) _

/-! ## A script on the tape of what it reads -/

theorem onStream_suffix {p : ReadScript τ ε α} {s rest : List τ} {a : α}
    (h : p.onStream s = .ok a rest) : ∃ w, s = w ++ rest := by
  induction p generalizing s with
  | ret b =>
    cases h
    exact ⟨[], rfl⟩
  | fail e => cases h
  | readFull n onEOF k ih =>
    rw [onStream] at h
    cases hread : StreamReader.readFull n s with
    | ok bs mid =>
      rw [hread] at h
      obtain ⟨v, rfl, -, -⟩ := (StreamReader.accepts_readFull n s bs mid).mp hread
      obtain ⟨w, rfl⟩ := ih bs h
      exact ⟨v ++ w, (List.append_assoc v w rest).symm⟩
    | err e =>
      rw [hread] at h
      cases h
    | panic f =>
      rw [hread] at h
      cases h

/-- A script that reads `w` off the front starts with a buffer that lies in `w`. -/
theorem onStream_readFull_ok {n : ℕ} {onEOF : EOF → ε} {k : List τ → ReadScript τ ε α} {w rest : List τ}
    {a : α} (h : (readFull n onEOF k).onStream (w ++ rest) = .ok a rest) :
    n ≤ w.length ∧ (k (w.take n)).onStream (w.drop n ++ rest) = .ok a rest := by
  rw [onStream] at h
  cases hread : StreamReader.readFull n (w ++ rest) with
  | ok bs mid =>
    rw [hread] at h
    obtain ⟨v, hsplit, rfl, rfl⟩ := (StreamReader.accepts_readFull n _ bs mid).mp hread
    obtain ⟨u, rfl⟩ := onStream_suffix h
    rw [← List.append_assoc] at hsplit
    obtain rfl := List.append_cancel_right hsplit
    rw [List.take_left, List.drop_left, List.length_append]
    exact ⟨Nat.le_add_right _ _, h⟩
  | err e =>
    rw [hread] at h
    cases h
  | panic f =>
    rw [hread] at h
    cases h

theorem onTape_complete {p : ReadScript τ ε α} {w rest : List τ} {a : α}
    (h : p.onStream (w ++ rest) = .ok a rest) (t : List (Option τ)) :
    p.onTape (w.map some ++ t) = .ok a t := by
  induction p generalizing w with
  | ret b =>
    rw [onStream, Outcome.ok.injEq] at h
    obtain ⟨rfl, hw⟩ := h
    rw [List.append_left_eq_self.mp hw]
    rfl
  | fail e => cases h
  | readFull n onEOF k ih =>
    obtain ⟨hn, hk⟩ := onStream_readFull_ok h
    rw [onTape, fillTape_take hn]
    exact ih _ hk

/-- A deadline that expires inside `w` takes what has been read of it. -/
theorem onTape_cut {p : ReadScript τ ε α} {w rest : List τ} {a : α}
    (h : p.onStream (w ++ rest) = .ok a rest) {bs : List τ} (hbs : bs <+: w) (hne : bs ≠ w)
    (t : List (Option τ)) :
    p.onTape (bs.map some ++ none :: t) = .timeout t ∧ p.onTape (bs.map some) = .waiting := by
  induction p generalizing w bs with
  | ret b =>
    rw [onStream, Outcome.ok.injEq] at h
    rw [List.append_left_eq_self.mp h.2] at hbs hne
    exact absurd (List.prefix_nil.mp hbs) hne
  | fail e => cases h
  | readFull n onEOF k ih =>
    obtain ⟨hn, hk⟩ := onStream_readFull_ok h
    obtain ⟨more, rfl⟩ := hbs
    rcases Nat.lt_or_ge bs.length n with hshort | hlong
    · obtain ⟨htimeout, hwaiting⟩ := fillTape_short (ε := ε) hshort [] t
      rw [onTape, onTape, htimeout, hwaiting]
      exact ⟨rfl, rfl⟩
    · -- the first buffer is full, and the deadline expires in what follows
      have hwaiting := fillTape_take (ε := ε) hlong []
      rw [List.append_nil, List.append_nil] at hwaiting
      rw [onTape, onTape, fillTape_take hlong, hwaiting]
      rw [List.take_append_of_le_length hlong, List.drop_append_of_le_length hlong] at hk
      refine ih _ hk (List.prefix_append _ _) fun heq => hne ?_
      rw [List.self_eq_append_right.mp heq, List.append_nil]

end ReadScript

/-! ## The loop -/

/-- A loop that reads values until the script fails. -/
structure ReadLoop (τ α : Type) where
  rest : List (Option τ)
  values : List α := []
  broken : Bool := false

variable {τ ε α : Type}

/-- After a timeout the loop goes on with what comes next. -/
def ReadScript.turn (p : ReadScript τ ε α) (s : ReadLoop τ α) : ReadLoop τ α :=
  if s.broken then s
  else
    match p.onTape s.rest with
    | .ok a rest => { s with rest := rest, values := s.values ++ [a] }
    | .err _ => { s with broken := true }
    | .timeout rest => { s with rest := rest }
    | .waiting => s

/-- The loop has returned the first values of the stream, and taken no more than they are encoded as. -/
def InStep (enc : α → List τ) (values : List α) (stream : List τ) (s : ReadLoop τ α) : Prop :=
  s.broken = false ∧ ∃ j, s.values = values.take j ∧
    ((values.take j).map enc).flatten ++ s.rest.reduceOption = stream

/-- Every deadline expires when a number of whole values has arrived. -/
def AtBoundaries (enc : α → List τ) (values : List α) (tape : List (Option τ)) : Prop :=
  ∀ before after, tape = before ++ none :: after →
    ∃ j, before.reduceOption = ((values.take j).map enc).flatten

theorem reduceOption_map_some (bs : List τ) : (bs.map some).reduceOption = bs := by
  induction bs with
  | nil => rfl
  | cons b bs ih => rw [List.map_cons, List.reduceOption_cons_of_some, ih]

/-- Where a tape stands to the next value: it has the whole of it, or a deadline expires before that,
or the tape ends. -/
theorem tape_split {w more : List τ} {r : List (Option τ)} (h : r.reduceOption <+: w ++ more) :
    (∃ r', r = w.map some ++ r') ∨
      ∃ bs, bs <+: w ∧ bs ≠ w ∧ ((∃ t, r = bs.map some ++ none :: t) ∨ r = bs.map some) := by
  induction w generalizing r with
  | nil => exact Or.inl ⟨r, rfl⟩
  | cons x w ih =>
    cases r with
    | nil => exact Or.inr ⟨[], List.nil_prefix, (List.cons_ne_nil x w).symm, Or.inr rfl⟩
    | cons e r =>
      cases e with
      | none => exact Or.inr ⟨[], List.nil_prefix, (List.cons_ne_nil x w).symm, Or.inl ⟨r, rfl⟩⟩
      | some y =>
        rw [List.reduceOption_cons_of_some, List.cons_append, List.cons_prefix_cons] at h
        obtain ⟨rfl, h⟩ := h
        rcases ih h with ⟨r', rfl⟩ | ⟨bs, hbs, hne, htail⟩
        · exact Or.inl ⟨r', rfl⟩
        · refine Or.inr ⟨y :: bs, List.cons_prefix_cons.mpr ⟨rfl, hbs⟩, ?_, ?_⟩
          · exact fun heq => hne (List.cons.inj heq).2
          · rcases htail with ⟨t, rfl⟩ | rfl
            · exact Or.inl ⟨t, rfl⟩
            · exact Or.inr rfl

section Loop
variable {enc : α → List τ}

theorem atBoundaries_timeout {vs : List α} {t : List (Option τ)} :
    AtBoundaries enc vs (none :: t) ↔ AtBoundaries enc vs t := by
  constructor
  · rintro h before after rfl
    exact h (none :: before) after rfl
  · rintro h before after hsplit
    cases before with
    | nil => exact ⟨0, rfl⟩
    | cons e before =>
      obtain ⟨rfl, htail⟩ := List.cons.inj hsplit
      exact h before after htail

/-- No deadline expires while a value arrives in one piece. -/
theorem split_map_some {bs : List τ} {r before after : List (Option τ)}
    (h : bs.map some ++ r = before ++ none :: after) :
    ∃ before', before = bs.map some ++ before' ∧ r = before' ++ none :: after := by
  induction bs generalizing before with
  | nil => exact ⟨before, rfl, h⟩
  | cons b bs ih =>
    cases before with
    | nil => cases h
    | cons e before =>
      obtain ⟨rfl, htail⟩ := List.cons.inj h
      obtain ⟨before', rfl, hr⟩ := ih htail
      exact ⟨before', rfl, hr⟩

theorem atBoundaries_value {v : α} {vs : List α} {r : List (Option τ)} (hv : enc v ≠ []) :
    AtBoundaries enc (v :: vs) ((enc v).map some ++ r) ↔ AtBoundaries enc vs r := by
  constructor
  · rintro h before after rfl
    obtain ⟨j, hj⟩ := h ((enc v).map some ++ before) after (List.append_assoc _ _ _).symm
    rw [List.reduceOption_append, reduceOption_map_some] at hj
    cases j with
    | zero => exact absurd (List.append_eq_nil_iff.mp hj).1 hv
    | succ j => exact ⟨j, List.append_cancel_left hj⟩
  · intro h before after hsplit
    obtain ⟨before', rfl, hr⟩ := split_map_some hsplit
    obtain ⟨j, hj⟩ := h before' after hr
    refine ⟨j + 1, ?_⟩
    rw [List.reduceOption_append, reduceOption_map_some, hj]
    rfl

theorem atBoundaries_whole (vs : List α) (bs : List τ) : AtBoundaries enc vs (bs.map some) := by
  intro before after hsplit
  have hmem : none ∈ bs.map some := hsplit ▸ List.mem_append_right _ List.mem_cons_self
  simp at hmem

/-- A deadline that expires inside a value. -/
theorem not_atBoundaries_cut {v : α} {vs : List α} {bs : List τ} (hbs : bs <+: enc v) (hne : bs ≠ enc v)
    (hnil : bs ≠ []) (t : List (Option τ)) : ¬ AtBoundaries enc (v :: vs) (bs.map some ++ none :: t) := by
  intro h
  obtain ⟨j, hj⟩ := h (bs.map some) t rfl
  rw [reduceOption_map_some] at hj
  cases j with
  | zero => exact hnil hj
  | succ j =>
    refine hne (hbs.eq_of_length_le ?_)
    rw [hj, List.take_succ_cons, List.map_cons, List.flatten_cons, List.length_append]
    exact Nat.le_add_right _ _

theorem inStep_start (acc vs : List α) (r : List (Option τ)) :
    InStep enc (acc ++ vs) ((acc.map enc).flatten ++ r.reduceOption) ⟨r, acc, false⟩ :=
  ⟨rfl, acc.length, by rw [List.take_left], by rw [List.take_left]⟩

theorem forall_iterate {σ : Type} {f : σ → σ} {P : σ → Prop} {s : σ} (hs : P s) :
    (∀ k, P (f^[k] s)) ↔ ∀ k, P (f^[k] (f s)) := by
  constructor
  · exact fun h k => h (k + 1)
  · intro h k
    cases k with
    | zero => exact hs
    | succ k => exact h k

variable {p : ReadScript τ ε α}

theorem turn_ok {r rest : List (Option τ)} {a : α} (h : p.onTape r = .ok a rest) (acc : List α) :
    p.turn ⟨r, acc, false⟩ = ⟨rest, acc ++ [a], false⟩ := by
  unfold ReadScript.turn
  rw [if_neg Bool.false_ne_true, h]

theorem turn_timeout {r rest : List (Option τ)} (h : p.onTape r = .timeout rest) (acc : List α) :
    p.turn ⟨r, acc, false⟩ = ⟨rest, acc, false⟩ := by
  unfold ReadScript.turn
  rw [if_neg Bool.false_ne_true, h]

theorem turn_waiting {r : List (Option τ)} (h : p.onTape r = .waiting) (acc : List α) :
    p.turn ⟨r, acc, false⟩ = ⟨r, acc, false⟩ := by
  unfold ReadScript.turn
  rw [if_neg Bool.false_ne_true, h]

/-- A loop that waits stays where it is. -/
theorem inStep_waiting {r : List (Option τ)} (h : p.onTape r = .waiting) (acc vs : List α) (k : ℕ) :
    InStep enc (acc ++ vs) ((acc.map enc).flatten ++ r.reduceOption) (p.turn^[k] ⟨r, acc, false⟩) := by
  rw [Function.iterate_fixed (turn_waiting h acc)]
  exact inStep_start acc vs r

/-- After a timeout inside a value the loop is out of step. -/
theorem not_inStep_cut {acc vs : List α} {bs : List τ} (hnil : bs ≠ []) (t : List (Option τ)) :
    ¬ InStep enc (acc ++ vs) ((acc.map enc).flatten ++ (bs.map some ++ none :: t).reduceOption)
      ⟨t, acc, false⟩ := by
  rintro ⟨-, j, hacc, hstream⟩
  dsimp only at hacc hstream
  rw [← hacc, List.reduceOption_append, reduceOption_map_some, List.reduceOption_cons_of_none] at hstream
  exact hnil (List.self_eq_append_left.mp (List.append_cancel_left hstream))

/-- `acc` has been returned, `vs` is to come, and `r` is the tape that is left. -/
theorem inStep_iff_of_acc (htimeout : ∀ t, p.onTape (none :: t) = .timeout t)
    (hwaiting : p.onTape [] = .waiting) {r : List (Option τ)} {vs : List α}
    (henc : ∀ a ∈ vs, ∀ rest, p.onStream (enc a ++ rest) = .ok a rest)
    (hne : ∀ a ∈ vs, enc a ≠ []) (hr : r.reduceOption <+: (vs.map enc).flatten) (acc : List α) :
    (∀ k, InStep enc (acc ++ vs) ((acc.map enc).flatten ++ r.reduceOption) (p.turn^[k] ⟨r, acc, false⟩)) ↔
      AtBoundaries enc vs r := by
  induction hn : r.length using Nat.strong_induction_on generalizing r vs acc with
  | _ n ih =>
    -- a deadline that expires before anything is taken
    have hcut : ∀ t, r = none :: t → ((∀ k, InStep enc (acc ++ vs)
        ((acc.map enc).flatten ++ r.reduceOption) (p.turn^[k] ⟨r, acc, false⟩)) ↔
          AtBoundaries enc vs r) := by
      rintro t rfl
      rw [forall_iterate (inStep_start acc vs _), turn_timeout (htimeout t), atBoundaries_timeout]
      rw [List.reduceOption_cons_of_none] at hr ⊢
      exact ih t.length (hn ▸ Nat.lt_succ_self _) henc hne hr acc rfl
    have hidle : ∀ {b : List τ}, r = b.map some → p.onTape r = .waiting → ((∀ k, InStep enc (acc ++ vs)
        ((acc.map enc).flatten ++ r.reduceOption) (p.turn^[k] ⟨r, acc, false⟩)) ↔
          AtBoundaries enc vs r) := by
      rintro b rfl hw
      exact ⟨fun _ => atBoundaries_whole vs b, fun _ => inStep_waiting hw acc vs⟩
    cases vs with
    | nil =>
      cases r with
      | nil => exact hidle (b := []) rfl hwaiting
      | cons e r =>
        cases e with
        | none => exact hcut r rfl
        | some x => exact absurd (List.prefix_nil.mp hr) (List.cons_ne_nil _ _)
    | cons v vs =>
      have hv := henc v List.mem_cons_self
      have hvne := hne v List.mem_cons_self
      rw [List.map_cons, List.flatten_cons] at hr
      rcases tape_split hr with ⟨r', rfl⟩ | ⟨bs, hbs, hbsne, ⟨t, rfl⟩ | rfl⟩
      · -- the whole value is there
        rw [forall_iterate (inStep_start acc _ _), turn_ok (ReadScript.onTape_complete (hv []) r'),
          atBoundaries_value hvne]
        rw [List.reduceOption_append, reduceOption_map_some, List.prefix_append_right_inj] at hr
        have hlen : r'.length < n := by
          rw [← hn, List.length_append, List.length_map]
          have := List.length_pos_iff.mpr hvne
          omega
        have hrec := ih r'.length hlen (fun a ha => henc a (List.mem_cons_of_mem v ha))
          (fun a ha => hne a (List.mem_cons_of_mem v ha)) hr (acc ++ [v]) rfl
        rw [List.append_assoc, List.singleton_append, List.map_append, List.flatten_append,
          List.append_assoc] at hrec
        rw [List.reduceOption_append, reduceOption_map_some]
        simpa using hrec
      · by_cases hnil : bs = []
        · subst hnil
          exact hcut t rfl
        · have hstep := (ReadScript.onTape_cut (hv []) hbs hbsne t).1
          refine ⟨fun h => absurd (h 1) ?_, fun h => absurd h (not_atBoundaries_cut hbs hbsne hnil t)⟩
          rw [Function.iterate_one, turn_timeout hstep]
          exact not_inStep_cut hnil t
      · exact hidle rfl (ReadScript.onTape_cut (hv []) hbs hbsne []).2

/-- The loop stays in step with the stream exactly when no deadline expires inside a value. -/
theorem inStep_iff_atBoundaries (htimeout : ∀ t, p.onTape (none :: t) = .timeout t)
    (hwaiting : p.onTape [] = .waiting) {tape : List (Option τ)} {values : List α}
    (henc : ∀ a ∈ values, ∀ rest, p.onStream (enc a ++ rest) = .ok a rest)
    (hne : ∀ a ∈ values, enc a ≠ []) (htape : tape.reduceOption <+: (values.map enc).flatten) :
    (∀ k, InStep enc values tape.reduceOption (p.turn^[k] ⟨tape, [], false⟩)) ↔
      AtBoundaries enc values tape :=
  inStep_iff_of_acc htimeout hwaiting henc hne htape []

end Loop
end SturmRelay
