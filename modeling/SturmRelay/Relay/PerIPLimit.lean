import SturmRelay.Relay.ServeHTTP

/-! # Pruning in the per-IP limiter

`internal/relay/httpapi.go`, `perIPLimit.Allow`: one bucket for each address, with the second it
counts and a `uint64` count; a table of more than 10 000 buckets is rid of the old ones first.

`countAt` is what the table says about an address and a second, whether there is a bucket or not. From
the present second on it is the number of calls so far, and pruning does not change it. So the limiter
answers as one that never prunes, and a call is allowed by the number of calls made before it from the
same address in the same second. That number is known modulo `2 ^ 64` only. -/

namespace SturmRelay
namespace PerIPLimit
set_option autoImplicit false

structure IPCall where
  ip : String
  now : Instant
  deriving DecidableEq, Repr

/-- `Allow` as a step. -/
def allowStep (maxRate : ℕ) (l : PerIPLimit) (c : IPCall) : PerIPLimit × Bool :=
  ((l.allow c.ip maxRate c.now).2, (l.allow c.ip maxRate c.now).1)

/-- The caller's bucket is counted up. -/
def bump (l : PerIPLimit) (maxRate : ℕ) (c : IPCall) : PerIPLimit × Bool :=
  let b := (l.buckets.lookup c.ip).getD {}
  let b := if b.second ≠ unix c.now then { b with second := unix c.now, count := 0 } else b
  let b := { b with count := (b.count + 1) % uint64Size }
  (⟨l.buckets.insert c.ip b⟩, decide (b.count ≤ maxRate))

def prune (l : PerIPLimit) (now : ℤ) : PerIPLimit :=
  ⟨if 10000 < l.buckets.len then Table.eraseAll l.buckets (l.stale now) else l.buckets⟩

/-- A limiter that never prunes. -/
def unprunedStep (maxRate : ℕ) (l : PerIPLimit) (c : IPCall) : PerIPLimit × Bool := l.bump maxRate c

theorem allowStep_eq (maxRate : ℕ) (l : PerIPLimit) (c : IPCall) :
    allowStep maxRate l c = (l.prune (unix c.now)).bump maxRate c := rfl

/-- The calls so far from one address in one second. -/
def calls (history : List IPCall) (ip : String) (second : ℤ) : ℕ :=
  history.countP fun c => c.ip = ip ∧ unix c.now = second

/-- What the table says about an address and a second. -/
def countAt (l : PerIPLimit) (ip : String) (second : ℤ) : ℕ :=
  let b := (l.buckets.lookup ip).getD {}
  if b.second = second then b.count else 0

/-! ## One call -/

theorem countAt_prune (l : PerIPLimit) {now second : ℤ} (h : now ≤ second) (ip : String) :
    (l.prune now).countAt ip second = l.countAt ip second := by
  unfold prune
  split
  · unfold countAt
    dsimp only
    rw [Table.lookup_eraseAll]
    by_cases hstale : ip ∈ l.stale now
    · -- a bucket that goes counts a second before `now - 1`
      obtain ⟨b, hb, hold⟩ := (Option.any_eq_true _ _).mp (List.mem_filter.mp hstale).2
      have hne : b.second ≠ second := by
        have := of_decide_eq_true hold
        omega
      rw [if_pos hstale, hb, Option.getD_none, Option.getD_some, if_neg hne]
      exact ite_self 0
    · rw [if_neg hstale]
  · rfl

theorem bump_snd (l : PerIPLimit) (maxRate : ℕ) (c : IPCall) : (l.bump maxRate c).2 =
    decide ((l.countAt c.ip (unix c.now) + 1) % uint64Size ≤ maxRate) := by
  unfold bump countAt
  dsimp only
  by_cases h : ((l.buckets.lookup c.ip).getD {}).second = unix c.now
  · rw [if_pos h, if_neg (not_not.mpr h)]
  · rw [if_neg h, if_pos h]

theorem countAt_bump (l : PerIPLimit) (maxRate : ℕ) (c : IPCall) (ip : String) (second : ℤ) :
    (l.bump maxRate c).1.countAt ip second =
      if ip = c.ip then if second = unix c.now then (l.countAt c.ip second + 1) % uint64Size else 0
      else l.countAt ip second := by
  unfold bump countAt
  dsimp only
  rw [Table.lookup_insert_eq_ite]
  by_cases hip : ip = c.ip
  · rw [if_pos hip, if_pos hip, Option.getD_some]
    by_cases hsec : second = unix c.now
    · rw [if_pos hsec, hsec]
      by_cases h : ((l.buckets.lookup c.ip).getD {}).second = unix c.now
      · rw [if_neg (not_not.mpr h), if_pos h, if_pos h]
      · rw [if_pos h, if_neg h]
        exact if_pos rfl
    · rw [if_neg hsec]
      by_cases h : ((l.buckets.lookup c.ip).getD {}).second = unix c.now
      · rw [if_neg (not_not.mpr h)]
        exact if_neg fun he => hsec (he.symm.trans h)
      · rw [if_pos h]
        exact if_neg (Ne.symm hsec)
  · rw [if_neg hip, if_neg hip]

/-! ## Sequences of calls -/

/-- From the second `now` on, the table counts the calls of the history. -/
structure Counts (history : List IPCall) (now : ℤ) (l : PerIPLimit) : Prop where
  past : ∀ c ∈ history, unix c.now ≤ now
  count : ∀ ip second, now ≤ second → l.countAt ip second = calls history ip second % uint64Size

theorem calls_concat (history : List IPCall) (c : IPCall) (ip : String) (second : ℤ) :
    calls (history ++ [c]) ip second =
      calls history ip second + if c.ip = ip ∧ unix c.now = second then 1 else 0 := by
  unfold calls
  rw [List.countP_append, List.countP_singleton]
  simp only [decide_eq_true_eq]

theorem Counts.mono {history : List IPCall} {now now' : ℤ} {l l' : PerIPLimit}
    (h : Counts history now l) (hle : now ≤ now')
    (hl : ∀ ip second, now' ≤ second → l'.countAt ip second = l.countAt ip second) :
    Counts history now' l' where
  past c hc := (h.past c hc).trans hle
  count ip second hs := (hl ip second hs).trans (h.count ip second (hle.trans hs))

theorem Counts.bump {history : List IPCall} {l : PerIPLimit} (maxRate : ℕ) {c : IPCall}
    (h : Counts history (unix c.now) l) :
    Counts (history ++ [c]) (unix c.now) (l.bump maxRate c).1 ∧
      (l.bump maxRate c).2 =
        decide ((calls history c.ip (unix c.now) + 1) % uint64Size ≤ maxRate) := by
  refine ⟨⟨?_, fun ip second hs => ?_⟩, ?_⟩
  · intro c' hc'
    rcases List.mem_append.mp hc' with hc' | hc'
    · exact h.past c' hc'
    · rw [List.mem_singleton.mp hc']
  · rw [countAt_bump, calls_concat]
    by_cases hip : ip = c.ip
    · subst hip
      by_cases hsec : second = unix c.now
      · subst hsec
        rw [if_pos rfl, if_pos rfl, if_pos ⟨rfl, rfl⟩, h.count c.ip _ le_rfl, Nat.mod_add_mod]
      · -- nobody has called in a second that is still to come
        have hnone : calls history c.ip second = 0 := by
          refine List.countP_eq_zero.mpr fun c' hc' => ?_
          have := h.past c' hc'
          simp only [decide_eq_true_eq]
          omega
        rw [if_pos rfl, if_neg hsec, if_neg fun he => hsec he.2.symm, hnone]
        exact (Nat.zero_mod _).symm
    · rw [if_neg hip, if_neg fun he => hip he.1.symm, Nat.add_zero]
      exact h.count ip second hs
  · rw [bump_snd, h.count c.ip _ le_rfl, Nat.mod_add_mod]

theorem counts_start (now : ℤ) : Counts [] now {} where
  past c hc := absurd hc List.not_mem_nil
  count ip second _ := by
    unfold countAt
    exact ite_self 0

section Sequences
variable {tidy : ℤ → PerIPLimit → PerIPLimit} {step : PerIPLimit → IPCall → PerIPLimit × Bool}
  {maxRate : ℕ}

/-- A limiter that counts up after a clean-up which leaves the present and the future alone. -/
structure Tidies (tidy : ℤ → PerIPLimit → PerIPLimit) (step : PerIPLimit → IPCall → PerIPLimit × Bool)
    (maxRate : ℕ) : Prop where
  step : ∀ l c, step l c = (tidy (unix c.now) l).bump maxRate c
  countAt : ∀ l now ip second, now ≤ second → (tidy now l).countAt ip second = l.countAt ip second

theorem counts_runState (ht : Tidies tidy step maxRate) {history : List IPCall}
    (hclock : history.Pairwise fun c c' => c.now ≤ c'.now) :
    ∀ now, (∀ c ∈ history, unix c.now ≤ now) → Counts history now (runState step {} history) := by
  induction history using List.reverseRecOn with
  | nil => exact fun now _ => counts_start now
  | append_singleton history c ih =>
    intro now hnow
    obtain ⟨hbefore, -, hlast⟩ := List.pairwise_append.mp hclock
    have hmono : ∀ c' ∈ history, unix c'.now ≤ unix c.now := fun c' hc' =>
      Int.ediv_le_ediv (by decide) (hlast c' hc' c (List.mem_singleton.mpr rfl))
    have hprev := (ih hbefore (unix c.now) hmono).mono le_rfl (ht.countAt _ (unix c.now))
    have hc := (hprev.bump maxRate).1
    rw [runState_append, runState, runState, ht.step]
    exact hc.mono (hnow c (List.mem_append_right _ (List.mem_singleton.mpr rfl))) fun _ _ _ => rfl

theorem answer_eq (ht : Tidies tidy step maxRate) {history : List IPCall} {c : IPCall}
    (hclock : (history ++ [c]).Pairwise fun c c' => c.now ≤ c'.now) :
    (step (runState step {} history) c).2 =
      decide ((calls history c.ip (unix c.now) + 1) % uint64Size ≤ maxRate) := by
  obtain ⟨hbefore, -, hlast⟩ := List.pairwise_append.mp hclock
  have hcounts := counts_runState ht hbefore (unix c.now) fun c' hc' =>
    Int.ediv_le_ediv (by decide) (hlast c' hc' c (List.mem_singleton.mpr rfl))
  rw [ht.step]
  exact ((hcounts.mono le_rfl (ht.countAt _ (unix c.now))).bump maxRate).2

end Sequences

theorem tidies_allowStep (maxRate : ℕ) :
    Tidies (fun now l => l.prune now) (allowStep maxRate) maxRate :=
  ⟨allowStep_eq maxRate, fun l _ ip _ h => countAt_prune l h ip⟩

theorem tidies_unprunedStep (maxRate : ℕ) : Tidies (fun _ l => l) (unprunedStep maxRate) maxRate :=
  ⟨fun _ _ => rfl, fun _ _ _ _ _ => rfl⟩

/-- What the limiter answers, call by call. -/
def answers (step : PerIPLimit → IPCall → PerIPLimit × Bool) (history : List IPCall) : List Bool :=
  (trace step {} history).map (·.2.2)

theorem answers_concat (step : PerIPLimit → IPCall → PerIPLimit × Bool) (history : List IPCall)
    (c : IPCall) : answers step (history ++ [c]) =
      answers step history ++ [(step (runState step {} history) c).2] := by
  unfold answers
  rw [trace_append, List.map_append]
  rfl

/-- A call is allowed exactly when fewer than `maxRate` calls have been made before it from the same
address in the same second. -/
def CountsExactly (maxRate : ℕ) (history : List IPCall) : Prop :=
  ∀ before c after, history = before ++ c :: after →
    ((allowStep maxRate (runState (allowStep maxRate) {} before) c).2 = true ↔
      calls before c.ip (unix c.now) < maxRate)

theorem pruning_unobservable (maxRate : ℕ) (history : List IPCall)
    (hclock : history.Pairwise fun c c' => c.now ≤ c'.now) :
    answers (allowStep maxRate) history = answers (unprunedStep maxRate) history ∧
    (∀ before c after, history = before ++ c :: after →
      (allowStep maxRate (runState (allowStep maxRate) {} before) c).2 =
        decide ((calls before c.ip (unix c.now) + 1) % uint64Size ≤ maxRate)) ∧
    ((∀ ip second, calls history ip second < uint64Size) → CountsExactly maxRate history) := by
  have hanswer : ∀ before c after, history = before ++ c :: after →
      (allowStep maxRate (runState (allowStep maxRate) {} before) c).2 =
        decide ((calls before c.ip (unix c.now) + 1) % uint64Size ≤ maxRate) := by
    rintro before c after rfl
    rw [List.append_cons] at hclock
    exact answer_eq (tidies_allowStep maxRate) (List.pairwise_append.mp hclock).1
  refine ⟨?_, hanswer, fun hfew before c after hsplit => ?_⟩
  · clear hanswer
    induction history using List.reverseRecOn with
    | nil => rfl
    | append_singleton history c ih =>
      rw [answers_concat, answers_concat, ih (List.pairwise_append.mp hclock).1,
        answer_eq (tidies_allowStep maxRate) hclock, answer_eq (tidies_unprunedStep maxRate) hclock]
  · have hlt : calls before c.ip (unix c.now) + 1 < uint64Size := by
      refine lt_of_le_of_lt ?_ (hfew c.ip (unix c.now))
      have hone := calls_concat before c c.ip (unix c.now)
      rw [if_pos ⟨rfl, rfl⟩] at hone
      have hprefix : before ++ [c] <+: history := ⟨after, by rw [hsplit, List.append_assoc]; rfl⟩
      rw [← hone]
      exact hprefix.sublist.countP_le
    rw [hanswer before c after hsplit, decide_eq_true_eq, Nat.mod_eq_of_lt hlt]
    exact Nat.succ_le_iff

/-! ### A full table -/

/-- Addresses, all different. -/
def address (i : ℕ) : String := String.ofList (List.replicate i '1')

theorem address_inj {i j : ℕ} (h : address i = address j) : i = j := by
  have hlen := congrArg (fun ip => ip.toList.length) h
  simpa [address] using hlen

/-- The table holds one bucket for each of the first `n` addresses, all of second 0. -/
structure Filled (n : ℕ) (l : PerIPLimit) : Prop where
  len : l.buckets.len = n
  mem : ∀ ip, ip ∈ l.buckets ↔ ∃ i < n, ip = address i
  ofZero : ∀ ip b, l.buckets.lookup ip = some b → b.second = 0

/-- In second 0 none of them is old. -/
theorem Filled.prune {n : ℕ} {l : PerIPLimit} (h : Filled n l) : l.prune 0 = l := by
  have hnone : l.stale 0 = [] := by
    refine List.filter_eq_nil_iff.mpr fun ip _ hold => ?_
    obtain ⟨b, hb, hlt⟩ := (Option.any_eq_true _ _).mp hold
    have hsecond := h.ofZero ip b hb
    have := of_decide_eq_true hlt
    omega
  unfold PerIPLimit.prune
  rw [hnone, Table.eraseAll_nil, ite_self]

theorem Filled.bump {n : ℕ} {l : PerIPLimit} (h : Filled n l) (maxRate : ℕ) :
    Filled (n + 1) (l.bump maxRate ⟨address n, 0⟩).1 := by
  have hnew : address n ∉ l.buckets := by
    rw [h.mem]
    rintro ⟨i, hi, he⟩
    have := address_inj he
    omega
  unfold PerIPLimit.bump
  dsimp only
  refine ⟨?_, fun ip => ?_, fun ip b hb => ?_⟩
  · rw [Table.len_insert_of_notMem hnew, h.len]
  · rw [AList.mem_insert, h.mem]
    constructor
    · rintro (rfl | ⟨i, hi, rfl⟩)
      · exact ⟨n, Nat.lt_succ_self n, rfl⟩
      · exact ⟨i, Nat.lt_succ_of_lt hi, rfl⟩
    · rintro ⟨i, hi, rfl⟩
      rcases Nat.lt_succ_iff_lt_or_eq.mp hi with hlt | rfl
      · exact Or.inr ⟨i, hlt, rfl⟩
      · exact Or.inl rfl
  · rw [Table.lookup_insert_eq_ite] at hb
    split at hb
    · cases hb
      split
      · rfl
      · next hsecond => exact not_not.mp hsecond
    · exact h.ofZero ip b hb

/-- Calls of `n` addresses in second 0. -/
def crowd (n : ℕ) : List IPCall := (List.range n).map fun i => ⟨address i, 0⟩

theorem filled_crowd (maxRate n : ℕ) : Filled n (runState (allowStep maxRate) {} (crowd n)) ∧
    Filled n (runState (unprunedStep maxRate) {} (crowd n)) := by
  induction n with
  | zero =>
    have hempty : Filled 0 {} := ⟨rfl, fun ip => ⟨nofun, nofun⟩, nofun⟩
    exact ⟨hempty, hempty⟩
  | succ n ih =>
    have hcrowd : crowd (n + 1) = crowd n ++ [⟨address n, 0⟩] := by
      unfold crowd
      rw [List.range_succ, List.map_append, List.map_singleton]
    rw [hcrowd, runState_append, runState_append]
    refine ⟨?_, ih.2.bump maxRate⟩
    change Filled (n + 1) (allowStep maxRate _ ⟨address n, 0⟩).1
    rw [allowStep_eq, show unix 0 = 0 from rfl, ih.1.prune]
    exact ih.1.bump maxRate

/-- Two seconds later a full table is rid of the others when one of the addresses calls again. -/
theorem Filled.pruned {n : ℕ} {l : PerIPLimit} (h : Filled n l) (hfull : 10000 < n) (maxRate : ℕ) :
    address 0 ∉ (allowStep maxRate l ⟨address 7, 2 * second⟩).1.buckets := by
  have hmem : address 0 ∈ l.buckets := (h.mem _).mpr ⟨0, by omega, rfl⟩
  obtain ⟨b, hb⟩ := Table.lookup_of_mem hmem
  have hstale : address 0 ∈ l.stale (unix (2 * second)) := by
    refine List.mem_filter.mpr ⟨AList.mem_keys.mp hmem, ?_⟩
    rw [hb, Option.any_some, h.ofZero _ b hb]
    decide
  have hother : address 0 ≠ address 7 := fun he => absurd (address_inj he) (by decide)
  rw [allowStep_eq, Table.mem_iff_lookup]
  rintro ⟨b', hb'⟩
  unfold PerIPLimit.bump PerIPLimit.prune at hb'
  rw [h.len, if_pos hfull] at hb'
  dsimp only at hb'
  rw [Table.lookup_insert_eq_ite, if_neg hother, Table.lookup_eraseAll, if_pos hstale] at hb'
  cases hb'

def afterCrowd (n : ℕ) : List IPCall := crowd n ++ [⟨address 7, 2 * second⟩]

theorem afterCrowd_pruned {n : ℕ} (hfull : 10000 < n) (maxRate : ℕ) :
    address 0 ∉ (runState (allowStep maxRate) {} (afterCrowd n)).buckets := by
  unfold afterCrowd
  rw [runState_append]
  exact (filled_crowd maxRate n).1.pruned hfull maxRate

theorem pairwise_afterCrowd (n : ℕ) : (afterCrowd n).Pairwise (fun c c' => c.now ≤ c'.now) := by
  refine List.pairwise_append.mpr ⟨?_, List.pairwise_singleton _ _, ?_⟩
  · exact List.pairwise_map.mpr (List.pairwise_of_forall fun _ _ => le_refl (0 : Instant))
  · intro c hc c' hc'
    obtain ⟨i, -, rfl⟩ := List.mem_map.mp hc
    rw [List.mem_singleton.mp hc']
    exact (by decide : (0 : Instant) ≤ 2 * second)

/-- The table is pruned, and the answers are those of a limiter that still has every bucket. -/
theorem afterCrowd_counted : (afterCrowd 10001).Pairwise (fun c c' => c.now ≤ c'.now) ∧
    address 0 ∉ (runState (allowStep 2) {} (afterCrowd 10001)).buckets ∧
    address 0 ∈ (runState (unprunedStep 2) {} (crowd 10001)).buckets ∧
    answers (allowStep 2) (afterCrowd 10001) = answers (unprunedStep 2) (afterCrowd 10001) :=
  ⟨pairwise_afterCrowd 10001, afterCrowd_pruned (by decide) 2,
    ((filled_crowd 2 10001).2.mem _).mpr ⟨0, by decide, rfl⟩,
    (pruning_unobservable 2 (afterCrowd 10001) (pairwise_afterCrowd 10001)).1⟩

theorem calls_replicate (n : ℕ) (c : IPCall) : calls (List.replicate n c) c.ip (unix c.now) = n := by
  unfold calls
  rw [List.countP_replicate]
  simp

/-- The last of `2 ^ 64` calls of one second brings the count back to 0 and is allowed. -/
theorem allowed_after_overflow :
    (List.replicate uint64Size (⟨"10.0.0.1", 0⟩ : IPCall)).Pairwise (fun c c' => c.now ≤ c'.now) ∧
      ¬ CountsExactly 20 (List.replicate uint64Size ⟨"10.0.0.1", 0⟩) := by
  have hclock : ∀ n, (List.replicate n (⟨"10.0.0.1", 0⟩ : IPCall)).Pairwise
      (fun c c' => c.now ≤ c'.now) := fun n => List.pairwise_replicate_of_refl
  refine ⟨hclock _, fun hexact => ?_⟩
  have hsize : uint64Size = (uint64Size - 1) + 1 := by decide
  have hsplit : List.replicate uint64Size (⟨"10.0.0.1", 0⟩ : IPCall) =
      List.replicate (uint64Size - 1) ⟨"10.0.0.1", 0⟩ ++ ⟨"10.0.0.1", 0⟩ :: [] := by
    rw [← List.replicate_succ', ← hsize]
  have hc := hclock uint64Size
  rw [hsplit] at hc
  have hlast := hexact _ _ _ hsplit
  rw [answer_eq (tidies_allowStep 20) hc, calls_replicate] at hlast
  exact absurd (hlast.mp (by decide)) (by decide)

end PerIPLimit
end SturmRelay
