import SturmRelay.Adapter.RestartTargets

/-! # The restart budget

A closure of `iceRestartCallback` counts its runs and lets five go on to `ReplaceICEPeer`. The count
starts again when the run is manual, or when the connection that has just ended was stable for a minute.
How long it was up is taken once, by the first run after it (`sinceConnectedSnapshot`), so that later
runs do not see the time since then grow.

What concerns one closure is the `closureHistory` of a run of the adapter: every time `lastConnectedAt`
is written (by `onConnected`, and for a peer made by a restart by the function around it as well), and
every time a callback goes through the protected section. -/

namespace SturmRelay
namespace Adapter
set_option autoImplicit false

/-! ## One closure -/

/-- What happens to a closure; a callback goes by its number. -/
inductive ClosureEvent
  | connected (now : Instant)
  | invoked (callback : ℕ) (msg : FafIceMsg) (now : Instant)
  deriving DecidableEq, Repr

def ClosureEvent.callback? : ClosureEvent → Option ℕ
  | .connected _ => none
  | .invoked i _ _ => some i

/-- The time of the latest `onConnected`, if no callback has gone through since. -/
def unconsumed (history : List ClosureEvent) : Option Instant :=
  match history.getLast? with
  | some (.connected t) => some t
  | _ => none

/-- A callback that comes after `history` is manual, or ends a connection that was stable. -/
def Resetting (history : List ClosureEvent) (msg : FafIceMsg) (now : Instant) : Prop :=
  msg.manual = true ∨ ∃ t, unconsumed history = some t ∧ RestartClosure.stableConnection ≤ now - t

instance (history : List ClosureEvent) (msg : FafIceMsg) (now : Instant) :
    Decidable (Resetting history msg now) := inferInstanceAs (Decidable (_ ∨ _))

namespace RestartClosure

def observe (c : RestartClosure) : ClosureEvent → RestartClosure
  | .connected now => { c with lastConnectedAt := some now }
  | .invoked _ msg now => c.enter msg now

/-- A new closure after some events. -/
def after (history : List ClosureEvent) : RestartClosure := history.foldl observe default

theorem after_concat (history : List ClosureEvent) (e : ClosureEvent) :
    after (history ++ [e]) = (after history).observe e := by
  rw [after, List.foldl_append]
  rfl

/-- How long the connection was up, as the protected section sees it. -/
def elapsed (c : RestartClosure) (msg : FafIceMsg) (now : Instant) : ℤ :=
  match c.lastConnectedAt with
  | some t => now - t
  | none => if msg.manual then 0 else c.sinceConnectedSnapshot

theorem enter_eq (c : RestartClosure) (msg : FafIceMsg) (now : Instant) : c.enter msg now =
    { c with
      consecutiveFailures :=
        (if msg.manual = true ∨ stableConnection ≤ c.elapsed msg now then 0 else c.consecutiveFailures) + 1
      sinceConnectedSnapshot :=
        if stableConnection ≤ c.elapsed msg now then 0 else c.elapsed msg now
      lastConnectedAt := none } := by
  cases hl : c.lastConnectedAt with
  | none =>
    cases hm : msg.manual with
    | true =>
      have hzero : ¬ stableConnection ≤ (0 : ℤ) := by decide
      simp [enter, elapsed, hm, hl, hzero]
    | false => by_cases h : stableConnection ≤ c.sinceConnectedSnapshot <;> simp [enter, elapsed, hm, hl, h]
  | some t =>
    cases hm : msg.manual with
    | true => by_cases h : stableConnection ≤ now - t <;> simp [enter, elapsed, hm, hl, h]
    | false => by_cases h : stableConnection ≤ now - t <;> simp [enter, elapsed, hm, hl, h]

/-- The protected section resets the counter on account of a stamp only, if the snapshot is of a short
connection; and it leaves such a snapshot behind. -/
theorem enter_counters {c : RestartClosure} (h : c.sinceConnectedSnapshot < stableConnection)
    (msg : FafIceMsg) (now : Instant) :
    (c.enter msg now).lastConnectedAt = none ∧
    (c.enter msg now).sinceConnectedSnapshot < stableConnection ∧
    (c.enter msg now).consecutiveFailures =
      if msg.manual = true ∨ ∃ t, c.lastConnectedAt = some t ∧ stableConnection ≤ now - t then 1
      else c.consecutiveFailures + 1 := by
  rw [enter_eq]
  refine ⟨rfl, ?_, ?_⟩
  · dsimp only
    split
    · decide
    · next hshort => exact not_le.mp hshort
  · have helapsed : (msg.manual = true ∨ stableConnection ≤ c.elapsed msg now) ↔
        (msg.manual = true ∨ ∃ t, c.lastConnectedAt = some t ∧ stableConnection ≤ now - t) := by
      unfold elapsed
      cases c.lastConnectedAt with
      | some t => simp
      | none => cases msg.manual <;> simp [h]
    dsimp only
    rw [if_congr helapsed rfl rfl]
    split <;> simp

/-- Same counter, snapshot and stamp. -/
structure SameCounters (c c' : RestartClosure) : Prop where
  consecutiveFailures : c.consecutiveFailures = c'.consecutiveFailures
  sinceConnectedSnapshot : c.sinceConnectedSnapshot = c'.sinceConnectedSnapshot
  lastConnectedAt : c.lastConnectedAt = c'.lastConnectedAt

theorem SameCounters.observe {c c' : RestartClosure} (h : SameCounters c c') (e : ClosureEvent) :
    SameCounters (c.observe e) (c'.observe e) := by
  cases e with
  | connected now => exact ⟨h.consecutiveFailures, h.sinceConnectedSnapshot, rfl⟩
  | invoked i msg now =>
    have helapsed : c.elapsed msg now = c'.elapsed msg now := by
      unfold elapsed
      rw [h.lastConnectedAt, h.sinceConnectedSnapshot]
    rw [RestartClosure.observe, RestartClosure.observe, enter_eq, enter_eq, helapsed,
      h.consecutiveFailures]
    exact ⟨rfl, rfl, rfl⟩

theorem unconsumed_concat (history : List ClosureEvent) (e : ClosureEvent) :
    unconsumed (history ++ [e]) = match e with
      | .connected t => some t
      | .invoked .. => none := by
  unfold unconsumed
  rw [List.getLast?_concat]
  cases e <;> rfl

theorem after_snapshot (history : List ClosureEvent) :
    (after history).sinceConnectedSnapshot < stableConnection := by
  induction history using List.reverseRecOn with
  | nil => decide
  | append_singleton history e ih =>
    rw [after_concat]
    cases e with
    | connected now => exact ih
    | invoked i msg now => exact (enter_counters ih msg now).2.1

theorem after_lastConnectedAt (history : List ClosureEvent) :
    (after history).lastConnectedAt = unconsumed history := by
  induction history using List.reverseRecOn with
  | nil => rfl
  | append_singleton history e ih =>
    rw [after_concat, unconsumed_concat]
    cases e with
    | connected now => rfl
    | invoked i msg now => exact (enter_counters (after_snapshot history) msg now).1

theorem failures_invoked (history : List ClosureEvent) (i : ℕ) (msg : FafIceMsg) (now : Instant) :
    (after (history ++ [.invoked i msg now])).consecutiveFailures =
      if Resetting history msg now then 1 else (after history).consecutiveFailures + 1 := by
  rw [after_concat, observe, (enter_counters (after_snapshot history) msg now).2.2,
    after_lastConnectedAt]
  rfl

theorem failures_connected (history : List ClosureEvent) (now : Instant) :
    (after (history ++ [.connected now])).consecutiveFailures = (after history).consecutiveFailures := by
  rw [after_concat]
  rfl

end RestartClosure

/-! ## Between two resets -/

/-- The callbacks of some events, in the order of their protected sections. -/
def callbackIDs (events : List ClosureEvent) : List ℕ := events.filterMap ClosureEvent.callback?

/-- Events from a resetting callback on, or from the first callback of all, without another one that
resets. -/
structure Window (before window : List ClosureEvent) : Prop where
  start : (callbackIDs before = []) ∨
    ∃ i msg now rest, window = .invoked i msg now :: rest ∧ Resetting before msg now
  rest : ∀ pre i msg now post, window = pre ++ .invoked i msg now :: post → pre ≠ [] →
    ¬ Resetting (before ++ pre) msg now

theorem Window.of_append {before w w' : List ClosureEvent} (h : Window before (w ++ w')) (hw : w ≠ []) :
    Window before w where
  start := by
    refine h.start.imp_right ?_
    rintro ⟨i, msg, now, rest, hsplit, hreset⟩
    obtain ⟨e, w₀, rfl⟩ := List.exists_cons_of_ne_nil hw
    obtain ⟨rfl, -⟩ := List.cons.inj hsplit
    exact ⟨i, msg, now, w₀, rfl, hreset⟩
  rest pre i msg now post hsplit hpre := by
    refine h.rest pre i msg now (post ++ w') ?_ hpre
    rw [hsplit, List.append_assoc]
    rfl

theorem callbackIDs_append (events events' : List ClosureEvent) :
    callbackIDs (events ++ events') = callbackIDs events ++ callbackIDs events' :=
  List.filterMap_append

theorem failures_of_no_callback {history : List ClosureEvent} (h : callbackIDs history = []) :
    (RestartClosure.after history).consecutiveFailures = 0 := by
  induction history using List.reverseRecOn with
  | nil => rfl
  | append_singleton history e ih =>
    rw [callbackIDs_append, List.append_eq_nil_iff] at h
    cases e with
    | connected now => exact (RestartClosure.failures_connected history now).trans (ih h.1)
    | invoked i msg now => exact absurd h.2 (List.cons_ne_nil _ _)

/-- In a window the counter is the number of callbacks. -/
theorem Window.failures {before : List ClosureEvent} {window : List ClosureEvent}
    (h : Window before window) (hw : window ≠ []) :
    (RestartClosure.after (before ++ window)).consecutiveFailures = (callbackIDs window).length := by
  induction window using List.reverseRecOn with
  | nil => exact absurd rfl hw
  | append_singleton w e ih =>
    rw [← List.append_assoc, callbackIDs_append, List.length_append]
    by_cases hnil : w = []
    · subst hnil
      rw [List.append_nil]
      cases e with
      | connected now =>
        -- a window that does not start with a callback has none before it
        have hnone : callbackIDs before = [] := h.start.resolve_right (by
          rintro ⟨i, msg, now', rest, hsplit, -⟩
          cases hsplit)
        rw [RestartClosure.failures_connected, failures_of_no_callback hnone]
        rfl
      | invoked i msg now =>
        rw [RestartClosure.failures_invoked]
        rcases h.start with hnone | ⟨i', msg', now', rest, hsplit, hreset⟩
        · rw [failures_of_no_callback hnone]
          exact ite_self 1
        · cases hsplit
          exact if_pos hreset
    · have hrec := ih (h.of_append hnil) hnil
      cases e with
      | connected now => exact (RestartClosure.failures_connected _ now).trans hrec
      | invoked i msg now =>
        rw [RestartClosure.failures_invoked, if_neg (h.rest w i msg now [] rfl hnil), hrec]
        rfl

/-- Where an element comes from that is left when `n` have been dropped. -/
theorem exists_split_of_mem_drop {α β : Type} {f : α → Option β} {l : List α} {n : ℕ} {b : β}
    (h : b ∈ (l.filterMap f).drop n) :
    ∃ pre a post, l = pre ++ a :: post ∧ f a = some b ∧ n ≤ (pre.filterMap f).length := by
  induction l generalizing n with
  | nil => simp at h
  | cons x l ih =>
    cases hx : f x with
    | none =>
      rw [List.filterMap_cons_none hx] at h
      obtain ⟨pre, a, post, rfl, ha, hn⟩ := ih h
      exact ⟨x :: pre, a, post, rfl, ha, by rwa [List.filterMap_cons_none hx]⟩
    | some y =>
      rw [List.filterMap_cons_some hx] at h
      cases n with
      | zero =>
        obtain rfl | h := List.mem_cons.mp h
        · exact ⟨[], x, l, rfl, hx, Nat.zero_le _⟩
        · obtain ⟨pre, a, post, rfl, ha, -⟩ := ih (n := 0) h
          exact ⟨x :: pre, a, post, rfl, ha, Nat.zero_le _⟩
      | succ n =>
        obtain ⟨pre, a, post, rfl, ha, hn⟩ := ih h
        refine ⟨x :: pre, a, post, rfl, ha, ?_⟩
        rw [List.filterMap_cons_some hx]
        exact Nat.succ_le_succ hn

/-- The callbacks after the first five have more than five failures on the counter. -/
theorem Window.late {before window : List ClosureEvent} (h : Window before window) {i : ℕ}
    (hi : i ∈ (callbackIDs window).drop RestartClosure.maxFailures) :
    ∃ pre msg now post, window = pre ++ .invoked i msg now :: post ∧ RestartClosure.maxFailures <
      (RestartClosure.after (before ++ pre ++ [.invoked i msg now])).consecutiveFailures := by
  obtain ⟨pre, e, post, rfl, he, hlen⟩ := exists_split_of_mem_drop hi
  cases e with
  | connected now => cases he
  | invoked j msg now =>
    cases he
    refine ⟨pre, msg, now, post, rfl, ?_⟩
    rw [List.append_cons] at h
    have hprefix := h.of_append (List.append_ne_nil_of_right_ne_nil pre (List.cons_ne_nil _ []))
    rw [List.append_assoc, hprefix.failures (List.append_ne_nil_of_right_ne_nil pre (List.cons_ne_nil _ [])),
      callbackIDs_append, List.length_append]
    exact Nat.lt_succ_of_le hlen

/-! ## Closures in a run of the adapter -/

namespace RPCHandler
variable {s : RPCHandler} {ev : AdapterEvent} {c : RestartID}

/-- What a step is for closure `c`. -/
def closureEvent (c : RestartID) (s : RPCHandler) : AdapterEvent → Option ClosureEvent
  | .callback i env =>
    match s.restarts[i]? with
    | none => none
    | some ⟨r, msg⟩ =>
      if s.callbacks i = .entering ∧ (s.peer r).onRestart = c then some (.invoked i msg env.now) else none
  | .iceConnected r now =>
    if r < s.nextPeer ∧ (s.peer r).onRestart = c then some (.connected now) else none
  | _ => none

theorem closures_add (i : ℕ) (call : Call) (login : String) (offerer : Bool) (env : Env)
    (s : RPCHandler) : (s.add i call login offerer env).closures = s.closures ∨
      (s.add i call login offerer env).closures = s.closures.alloc ⟨call.rpc.pid, login, offerer, 0, 0, none⟩ := by
  unfold add
  split
  · split
    · exact Or.inl (created_keeps call s _).2.1
    · exact Or.inl rfl
  · dsimp only
    split
    · exact Or.inr (created_keeps call s _).2.1
    · exact Or.inr rfl

theorem closures_changeRole (i : ℕ) (call : Call) (login : String) (offer : Bool) (env : Env)
    (s : RPCHandler) : (s.changeRole i call login offer env).closures =
      s.closures.alloc ⟨call.rpc.pid, login, offer, 0, 0, none⟩ := by
  unfold changeRole
  dsimp only
  split
  · exact (created_keeps call s _).2.1
  · rfl

theorem closures_rpc (i : ℕ) (env : Env) (s : RPCHandler) : (s.rpc i env).closures = s.closures ∨
    ∃ pid login offerer, (s.rpc i env).closures = s.closures.alloc ⟨pid, login, offerer, 0, 0, none⟩ := by
  unfold rpc
  split
  · exact Or.inl rfl
  · split
    · exact Or.inl rfl
    · split <;> exact Or.inl rfl
    · exact Or.inl rfl
    · exact (closures_add ..).imp_right fun h => ⟨_, _, _, h⟩
    · exact (closures_add ..).imp_right fun h => ⟨_, _, _, h⟩
    · exact Or.inr ⟨_, _, _, closures_changeRole ..⟩
    · exact Or.inl rfl
    · exact Or.inl rfl
    · split <;> exact Or.inl rfl
    · unfold handleIceMsg
      repeat' split
      all_goals exact Or.inl rfl
    · exact Or.inl rfl
    · exact Or.inl rfl
    · exact Or.inl rfl

/-- A callback changes closures only in its protected section. -/
theorem closures_callback {i : ℕ} {r : PeerRef} {msg : FafIceMsg}
    (hrestart : s.restarts[i]? = some ⟨r, msg⟩) (hphase : s.callbacks i ≠ .entering) (env : Env) :
    (s.callback i env).closures = s.closures := by
  unfold callback
  rw [hrestart]
  dsimp only
  cases hp : s.callbacks i with
  | entering => exact absurd hp hphase
  | snapshot attempt sinceConnected => rfl
  | sleeping peerBefore wakeAt sinceConnected =>
    dsimp only
    repeat' split
    all_goals rfl
  | replacing sinceConnected =>
    dsimp only [restart]
    split <;> rfl
  | starting peer sinceConnected => rfl
  | done => rfl

theorem callback_entering {i : ℕ} {r : PeerRef} {msg : FafIceMsg}
    (hrestart : s.restarts[i]? = some ⟨r, msg⟩) (hphase : s.callbacks i = .entering) (env : Env) :
    (s.callback i env).closures = s.closures.modify (s.peer r).onRestart (·.enter msg env.now) ∧
      (s.callback i env).callbacks i =
        ((s.closures.cell (s.peer r).onRestart).enter msg env.now).afterEnter msg := by
  unfold callback
  rw [hrestart]
  simp only [hphase]
  exact ⟨rfl, Function.update_self _ _ _⟩

/-- A step changes a closure as its event says, and new closures start at zero. -/
structure ClosuresFollow (s s' : RPCHandler) (ev : AdapterEvent) : Prop where
  next : s.closures.next ≤ s'.closures.next
  cell : ∀ c, c < s.closures.next → s'.closures.cell c =
    match closureEvent c s ev with
    | none => s.closures.cell c
    | some e => (s.closures.cell c).observe e
  fresh : ∀ c, s.closures.next ≤ c → c < s'.closures.next →
    RestartClosure.SameCounters (s'.closures.cell c) default

theorem closuresFollow_of_eq {s' : RPCHandler} (h : s'.closures = s.closures)
    (hev : ∀ c, closureEvent c s ev = none) : ClosuresFollow s s' ev where
  next := by rw [h]
  cell c _ := by rw [hev, h]
  fresh c hge hlt := by
    rw [h] at hlt
    exact absurd hlt (Nat.not_lt.mpr hge)

theorem closuresFollow_alloc {s' : RPCHandler} {pid : ℤ} {login : String} {offerer : Bool}
    (h : s'.closures = s.closures.alloc ⟨pid, login, offerer, 0, 0, none⟩)
    (hev : ∀ c, closureEvent c s ev = none) : ClosuresFollow s s' ev where
  next := by
    rw [h]
    exact Nat.le_succ _
  cell c hc := by rw [hev, h, Heap.alloc_cell_of_lt _ _ hc]
  fresh c hge hlt := by
    rw [h] at hlt ⊢
    obtain rfl : c = s.closures.next := Nat.le_antisymm (Nat.lt_succ_iff.mp hlt) hge
    rw [Heap.alloc_cell_self]
    exact ⟨rfl, rfl, rfl⟩

/-- One closure changes, and the event is for that one. -/
theorem closuresFollow_modify {s' : RPCHandler} {c₀ : RestartID} {e : ClosureEvent}
    (h : s'.closures = s.closures.modify c₀ (·.observe e))
    (hev : ∀ c, closureEvent c s ev = if c₀ = c then some e else none) : ClosuresFollow s s' ev where
  next := by rw [h]; rfl
  cell c _ := by
    rw [hev, h]
    by_cases hc : c₀ = c
    · subst hc
      rw [if_pos rfl, Heap.modify_cell_self]
    · rw [if_neg hc, Heap.modify_cell_ne _ _ (Ne.symm hc)]
  fresh c hge hlt := by
    rw [h] at hlt
    exact absurd hlt (Nat.not_lt.mpr hge)

theorem closuresFollow_step (s : RPCHandler) (ev : AdapterEvent) : ClosuresFollow s (s.step ev).1 ev := by
  cases ev with
  | call rpc gameState => exact closuresFollow_of_eq rfl fun _ => rfl
  | rpc i env =>
    rcases closures_rpc i env s with h | ⟨pid, login, offerer, h⟩
    · exact closuresFollow_of_eq h fun _ => rfl
    · exact closuresFollow_alloc h fun _ => rfl
  | callback i env =>
    cases hrestart : s.restarts[i]? with
    | none =>
      refine closuresFollow_of_eq ?_ fun c => ?_
      · simp only [step, callback, hrestart]
      · simp only [closureEvent, hrestart]
    | some x =>
      obtain ⟨r, msg⟩ := x
      by_cases hphase : s.callbacks i = .entering
      · refine closuresFollow_modify (e := .invoked i msg env.now)
          (callback_entering hrestart hphase env).1 fun c => ?_
        simp only [closureEvent, hrestart, hphase, true_and]
      · refine closuresFollow_of_eq (closures_callback hrestart hphase env) fun c => ?_
        simp only [closureEvent, hrestart, hphase, false_and, if_false]
  | run r ev =>
    refine closuresFollow_of_eq ?_ fun _ => rfl
    simp only [step, run]
    repeat' split
    all_goals rfl
  | iceFailed r =>
    refine closuresFollow_of_eq ?_ fun _ => rfl
    simp only [step, iceFailed, restartOnce]
    repeat' split
    all_goals rfl
  | delayElapsed r =>
    refine closuresFollow_of_eq ?_ fun _ => rfl
    simp only [step]
    split <;> rfl
  | delayedRestart r =>
    refine closuresFollow_of_eq ?_ fun _ => rfl
    simp only [step, delayedRestart, restartOnce]
    repeat' split
    all_goals rfl
  | iceConnected r now =>
    by_cases hr : r < s.nextPeer
    · have hclosures : (s.step (.iceConnected r now)).1.closures =
          s.closures.modify (s.peer r).onRestart (·.observe (.connected now)) := by
        simp only [step, if_pos hr]
        rfl
      refine closuresFollow_modify hclosures fun c => ?_
      simp only [closureEvent, hr, true_and]
    · refine closuresFollow_of_eq ?_ fun c => ?_
      · simp only [step, if_neg hr]
      · simp only [closureEvent, hr, false_and, if_false]
  | gamePacket r addr =>
    refine closuresFollow_of_eq ?_ fun _ => rfl
    simp only [step]
    split <;> rfl

/-- The step behind an event of closure `c`. -/
theorem closureEvent_eq_some {e : ClosureEvent} (h : closureEvent c s ev = some e) :
    (∃ i env r msg, ev = .callback i env ∧ e = .invoked i msg env.now ∧ s.restarts[i]? = some ⟨r, msg⟩ ∧
      s.callbacks i = .entering ∧ (s.peer r).onRestart = c) ∨
    ∃ r now, ev = .iceConnected r now ∧ e = .connected now ∧ r < s.nextPeer ∧ (s.peer r).onRestart = c := by
  cases ev with
  | callback i env =>
    cases hrestart : s.restarts[i]? with
    | none =>
      simp only [closureEvent, hrestart] at h
      cases h
    | some x =>
      simp only [closureEvent, hrestart] at h
      split at h
      · next hc =>
        cases h
        exact Or.inl ⟨i, env, x.peer, x.msg, rfl, rfl, hrestart, hc⟩
      · cases h
  | iceConnected r now =>
    simp only [closureEvent] at h
    split at h
    · next hc =>
      cases h
      exact Or.inr ⟨r, now, rfl, rfl, hc⟩
    · cases h
  | _ => cases h

theorem closureEvent_lt (hl : Linked s) {e : ClosureEvent} (h : closureEvent c s ev = some e) :
    c < s.closures.next := by
  rcases closureEvent_eq_some h with ⟨i, env, r, msg, -, -, hrestart, -, rfl⟩ | ⟨r, now, -, -, hr, rfl⟩
  · exact hl.closures r (hl.restart_lt hrestart)
  · exact hl.closures r hr

theorem setCallback_self (i : ℕ) (phase : CallbackPhase) (s : RPCHandler) :
    (s.setCallback i phase).callbacks i = phase := Function.update_self ..

/-- A callback that has left its start does not come back to it. -/
theorem entering_of_step (hl : Linked s) {i : ℕ} (h : (s.step ev).1.callbacks i = .entering) :
    s.callbacks i = .entering := by
  have hm := move_step hl ev
  cases hev : ev.isCallback i with
  | false => exact (callbacks_move hm (Or.inl hev)).symm.trans h
  | true =>
    cases ev with
    | callback j env =>
      obtain rfl : j = i := of_decide_eq_true hev
      generalize (s.step (.callback j env)).1 = s' at hm h
      cases hm with
      | quiet hquiet => exact (congrFun hquiet.callbacks j).symm.trans h
      | enter hrestart hphase hnext hquiet => exact hphase
      | snapshot wakeAt hrestart hphase =>
        rw [setCallback_self] at h
        cases h
      | giveUp hi hquiet =>
        rw [setCallback_self] at h
        cases h
      | wake hrestart hphase hpeer =>
        rw [setCallback_self] at h
        cases h
      | restart hrestart hphase hout hnext =>
        rw [setCallback_self] at h
        rcases hnext with rfl | ⟨r', rfl⟩ <;> cases h
    | _ => cases hev

theorem done_step {i : ℕ} (hl : Linked s) (h : s.callbacks i = .done) :
    (s.step ev).1.callbacks i = .done := by
  cases hev : ev.isCallback i with
  | false => exact (callbacks_move (move_step hl ev) (Or.inl hev)).trans h
  | true =>
    cases ev with
    | callback j env =>
      obtain rfl : j = i := of_decide_eq_true hev
      simp only [step, callback]
      split
      · exact h
      · simp only [h]
    | _ => cases hev

/-! ## Whole runs -/

/-- What has happened to closure `c` in a run. -/
def closureHistory (c : RestartID) (tr : List (RPCHandler × AdapterEvent × Unit)) :
    List ClosureEvent := tr.filterMap fun x => closureEvent c x.1 x.2.1

/-- Callback `i` has called `ReplaceICEPeer`. -/
def replacedBy (i : ℕ) (tr : List (RPCHandler × AdapterEvent × Unit)) : Bool :=
  tr.any fun x => x.2.1.isCallback i && (x.1.callbacks i).isReplacing

theorem closureHistory_concat (c : RestartID) (tr : List (RPCHandler × AdapterEvent × Unit))
    (x : RPCHandler × AdapterEvent × Unit) :
    closureHistory c (tr ++ [x]) = closureHistory c tr ++ (closureEvent c x.1 x.2.1).toList := by
  unfold closureHistory
  rw [List.filterMap_append, List.filterMap_cons]
  cases closureEvent c x.1 x.2.1 <;> rfl

theorem replacedBy_concat {i : ℕ} {tr : List (RPCHandler × AdapterEvent × Unit)}
    (h : replacedBy i tr = false) {x : RPCHandler × AdapterEvent × Unit}
    (hx : (x.1.callbacks i).isReplacing = false) : replacedBy i (tr ++ [x]) = false := by
  unfold replacedBy at h ⊢
  rw [List.any_append, h, List.any_cons, hx, Bool.and_false]
  rfl

/-- The closures have the counters of their histories, and a callback that was one too many has
given up. -/
structure Follows (tr : List (RPCHandler × AdapterEvent × Unit)) (s : RPCHandler) : Prop where
  linked : Linked s
  unborn : ∀ c, s.closures.next ≤ c → closureHistory c tr = []
  counters : ∀ c, c < s.closures.next →
    RestartClosure.SameCounters (s.closures.cell c) (RestartClosure.after (closureHistory c tr))
  entering : ∀ i, s.callbacks i = .entering → replacedBy i tr = false
  gaveUp : ∀ c before i msg now post,
    closureHistory c tr = before ++ .invoked i msg now :: post →
    RestartClosure.maxFailures <
      (RestartClosure.after (before ++ [.invoked i msg now])).consecutiveFailures →
    s.callbacks i = .done ∧ replacedBy i tr = false

theorem follows_init : Follows [] {} where
  linked := linked_init
  unborn _ _ := rfl
  counters c hc := absurd hc (Nat.not_lt_zero c)
  entering _ _ := rfl
  gaveUp _ _ _ _ _ _ h :=
    absurd h.symm (List.append_ne_nil_of_right_ne_nil _ (List.cons_ne_nil _ _))

/-- An element of a list to which an event may have been added. -/
theorem split_append_toList {α : Type} {l before post : List α} {o : Option α} {a : α}
    (h : l ++ o.toList = before ++ a :: post) :
    (∃ post', l = before ++ a :: post') ∨ o = some a ∧ before = l := by
  cases o with
  | none => exact Or.inl ⟨post, (List.append_nil l).symm.trans h⟩
  | some b =>
    rcases List.eq_nil_or_concat' post with rfl | ⟨post', x, rfl⟩
    · obtain ⟨hl, hb⟩ := List.append_inj' h rfl
      exact Or.inr ⟨congrArg some (List.cons.inj hb).1, hl.symm⟩
    · rw [← List.cons_append, ← List.append_assoc] at h
      exact Or.inl ⟨post', (List.append_inj' h rfl).1⟩

theorem Follows.counters_step {tr : List (RPCHandler × AdapterEvent × Unit)} (h : Follows tr s)
    {c : RestartID} (hc : c < (s.step ev).1.closures.next) :
    RestartClosure.SameCounters ((s.step ev).1.closures.cell c)
      (RestartClosure.after (closureHistory c (tr ++ [(s, ev, ())]))) := by
  have hfollow := closuresFollow_step s ev
  rw [closureHistory_concat]
  rcases Nat.lt_or_ge c s.closures.next with hlt | hge
  · rw [hfollow.cell c hlt]
    dsimp only
    cases closureEvent c s ev with
    | none =>
      rw [Option.toList_none, List.append_nil]
      exact h.counters c hlt
    | some e =>
      rw [Option.toList_some, RestartClosure.after_concat]
      exact (h.counters c hlt).observe e
  · have hnone : closureEvent c s ev = none :=
      Option.eq_none_iff_forall_ne_some.mpr fun e he =>
        Nat.not_lt.mpr hge (closureEvent_lt h.linked he)
    rw [h.unborn c hge, hnone]
    exact hfollow.fresh c hge hc

/-- The callback in its protected section is one too many, and gives up. -/
theorem Follows.gaveUp_new {tr : List (RPCHandler × AdapterEvent × Unit)} (h : Follows tr s) {i : ℕ}
    {msg : FafIceMsg} {now : Instant} (hev : closureEvent c s ev = some (.invoked i msg now))
    (hlate : RestartClosure.maxFailures <
      (RestartClosure.after (closureHistory c tr ++ [.invoked i msg now])).consecutiveFailures) :
    (s.step ev).1.callbacks i = .done ∧ replacedBy i tr = false := by
  have hlt := closureEvent_lt h.linked hev
  rcases closureEvent_eq_some hev with ⟨j, env, r, msg', rfl, he, hrestart, hphase, rfl⟩ |
    ⟨r, now', -, he, -⟩
  · cases he
    refine ⟨?_, h.entering i hphase⟩
    have hsame := ((h.counters _ hlt).observe (.invoked i msg env.now)).consecutiveFailures
    rw [← RestartClosure.after_concat] at hsame
    have hstep := (callback_entering hrestart hphase env).2
    rw [RestartClosure.afterEnter, if_pos (hsame ▸ hlate)] at hstep
    exact hstep
  · cases he

theorem Follows.step {tr : List (RPCHandler × AdapterEvent × Unit)} (h : Follows tr s)
    (ev : AdapterEvent) : Follows (tr ++ [(s, ev, ())]) (s.step ev).1 where
  linked := h.linked.move (move_step h.linked ev)
  unborn c hc := by
    have hge := (closuresFollow_step s ev).next.trans hc
    have hnone : closureEvent c s ev = none :=
      Option.eq_none_iff_forall_ne_some.mpr fun e he =>
        Nat.not_lt.mpr hge (closureEvent_lt h.linked he)
    rw [closureHistory_concat, h.unborn c hge, hnone]
    rfl
  counters c hc := h.counters_step hc
  entering i hi := by
    have hbefore := entering_of_step h.linked hi
    exact replacedBy_concat (h.entering i hbefore) (by rw [hbefore]; rfl)
  gaveUp c before i msg now post hsplit hlate := by
    rw [closureHistory_concat] at hsplit
    rcases split_append_toList hsplit with ⟨post', hold⟩ | ⟨hnew, rfl⟩
    · obtain ⟨hdone, hnot⟩ := h.gaveUp c before i msg now post' hold hlate
      exact ⟨done_step h.linked hdone, replacedBy_concat hnot (by rw [hdone]; rfl)⟩
    · obtain ⟨hdone, hnot⟩ := h.gaveUp_new hnew hlate
      obtain ⟨j, env, r, msg', -, he, -, hphase, -⟩ | ⟨r, now', -, he, -⟩ := closureEvent_eq_some hnew
      · cases he
        exact ⟨hdone, replacedBy_concat hnot (by rw [hphase]; rfl)⟩
      · cases he

theorem follows_runState (events : List AdapterEvent) :
    Follows (trace step {} events) (runState step {} events) :=
  run_invariant_trace step (I := Follows) follows_init (fun _ _ ev h => h.step ev) events

/-- The budget of closure `c` in a run of the adapter. -/
structure RespectsBudget (events : List AdapterEvent) (c : RestartID) : Prop where
  counter : c < (runState step {} events).closures.next →
    ((runState step {} events).closures.cell c).consecutiveFailures =
      (RestartClosure.after (closureHistory c (trace step {} events))).consecutiveFailures
  atMostFive : ∀ before window, closureHistory c (trace step {} events) = before ++ window →
    Window before window →
    (callbackIDs window).countP (replacedBy · (trace step {} events)) ≤ 5
  givesUp : ∀ before window, closureHistory c (trace step {} events) = before ++ window →
    Window before window → ∀ i ∈ (callbackIDs window).drop 5,
      (runState step {} events).callbacks i = .done ∧ replacedBy i (trace step {} events) = false
  /-- A stamp consumed by a callback less than a minute after it counts for no later one: as long as
  there is no new stamp, the counter goes up. -/
  consumed : ∀ before t i msg now between j msg' now' rest,
    closureHistory c (trace step {} events) =
      before ++ [.connected t, .invoked i msg now] ++ between ++ .invoked j msg' now' :: rest →
    now - t < RestartClosure.stableConnection → (∀ e ∈ between, e.callback?.isSome) →
    msg'.manual = false →
    (RestartClosure.after (before ++ [.connected t, .invoked i msg now] ++ between ++
        [.invoked j msg' now'])).consecutiveFailures =
      (RestartClosure.after (before ++ [.connected t, .invoked i msg now] ++
        between)).consecutiveFailures + 1

theorem unconsumed_of_callback {history : List ClosureEvent} {e : ClosureEvent}
    (h : e.callback?.isSome) : unconsumed (history ++ [e]) = none := by
  rw [RestartClosure.unconsumed_concat]
  cases e with
  | connected t => cases h
  | invoked i msg now => rfl

theorem unconsumed_of_callbacks {history between : List ClosureEvent} (hlast : unconsumed history = none)
    (h : ∀ e ∈ between, e.callback?.isSome) : unconsumed (history ++ between) = none := by
  rcases List.eq_nil_or_concat' between with rfl | ⟨between', e, rfl⟩
  · rwa [List.append_nil]
  · rw [← List.append_assoc]
    exact unconsumed_of_callback (h e (List.mem_append_right _ (List.mem_singleton.mpr rfl)))

theorem restartBudget (events : List AdapterEvent) (c : RestartID) : RespectsBudget events c := by
  have hfollow := follows_runState events
  have hlate : ∀ before window, closureHistory c (trace step {} events) = before ++ window →
      Window before window → ∀ i ∈ (callbackIDs window).drop 5,
        (runState step {} events).callbacks i = .done ∧ replacedBy i (trace step {} events) = false := by
    intro before window hsplit hwindow i hi
    obtain ⟨pre, msg, now, post, rfl, hfailures⟩ := hwindow.late hi
    rw [← List.append_assoc] at hsplit
    exact hfollow.gaveUp c (before ++ pre) i msg now post hsplit hfailures
  refine ⟨fun hc => (hfollow.counters c hc).consecutiveFailures, fun before window hsplit hwindow => ?_,
    hlate, ?_⟩
  · rw [← List.take_append_drop 5 (callbackIDs window), List.countP_append]
    have hnone : ((callbackIDs window).drop 5).countP (replacedBy · (trace step {} events)) = 0 := by
      refine List.countP_eq_zero.mpr fun i hi => ?_
      rw [(hlate before window hsplit hwindow i hi).2]
      exact Bool.false_ne_true
    rw [hnone, Nat.add_zero]
    exact List.countP_le_length.trans (List.length_take_le 5 _)
  · intro before t i msg now between j msg' now' rest _ _ hcallbacks hmanual
    have hlast : unconsumed (before ++ [.connected t, .invoked i msg now]) = none := by
      rw [List.append_cons]
      exact unconsumed_of_callback rfl
    have hnone := unconsumed_of_callbacks hlast hcallbacks
    rw [RestartClosure.failures_invoked, if_neg]
    rintro (hm | ⟨t', ht', -⟩)
    · rw [hmanual] at hm
      cases hm
    · rw [hnone] at ht'
      cases ht'

end RPCHandler
end Adapter
end SturmRelay
