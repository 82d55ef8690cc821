import SturmRelay.Adapter.Signals

/-! # Copies of one restart message

The signalling layer sends credentials again when no answer comes. `HandleIceMsg` takes a message with
another ufrag than the one in use for a restart, and does not note that it has done so: until the callback
has replaced the peer, every further copy starts a callback of its own, and each of them replaces the peer
that the one before has made. A peer made for the new ufrag, on the other hand, has heard of no other
one, and takes every copy for what it is. `copies_restart_once`: if the old peer compares no copy once a
restart has been started, there is one restart. -/

namespace SturmRelay
namespace Adapter
set_option autoImplicit false

/-! ## Callbacks and how far they are -/

@[simp] def CallbackPhase.rank : CallbackPhase → ℕ
  | .entering => 0
  | .snapshot .. => 1
  | .sleeping .. => 2
  | .replacing .. => 3
  | .starting .. => 4
  | .done => 5

def CallbackPhase.isEntering : CallbackPhase → Bool
  | .entering => true
  | _ => false

namespace RPCHandler
open ICEPeer (HeardOnly)
variable {s s' : RPCHandler} {ev : AdapterEvent} {pid : ℤ} {u : String} {old r : PeerRef}

theorem rank_enters {msg : FafIceMsg} {phase : CallbackPhase} (h : Enters msg phase) : 0 < phase.rank := by
  cases h <;> exact Nat.succ_pos _

/-- A callback does not go back. -/
theorem rank_move (hm : Move s ev s') (j : ℕ) : (s.callbacks j).rank ≤ (s'.callbacks j).rank := by
  cases hev : ev.isCallback j with
  | false => rw [callbacks_move hm (Or.inl hev)]
  | true =>
    cases ev with
    | callback i env =>
      obtain rfl : i = j := of_decide_eq_true hev
      cases hm with
      | quiet hquiet => rw [hquiet.callbacks]
      | enter hrestart hphase hnext hquiet =>
        rw [setCallback_self, hphase]
        exact Nat.zero_le _
      | snapshot wakeAt hrestart hphase =>
        rw [setCallback_self, hphase]
        simp
      | giveUp hi hquiet =>
        rw [setCallback_self]
        cases s.callbacks i <;> simp
      | wake hrestart hphase hpeer =>
        rw [setCallback_self, hphase]
        simp
      | restart hrestart hphase hout hnext =>
        rw [setCallback_self, hphase]
        rcases hnext with rfl | ⟨r', rfl⟩ <;> simp
    | _ => cases hev

/-- The protected section and `ReplaceICEPeer` are one step each. -/
theorem rank_callback {i : ℕ} {x : Restart} (hrestart : s.restarts[i]? = some x)
    (hphase : (s.callbacks i).isEntering = true ∨ (s.callbacks i).isReplacing = true) (env : Env) :
    (s.callbacks i).rank < ((s.callback i env).callbacks i).rank := by
  obtain ⟨r, msg⟩ := x
  cases hp : s.callbacks i with
  | entering =>
    rw [(callback_entering hrestart hp env).2]
    exact rank_enters (enters_afterEnter msg _)
  | replacing sinceConnected =>
    unfold callback
    rw [hrestart]
    simp only [hp, restart]
    split
    · rw [setCallback_self]
      simp
    · rw [setCallback_self]
      simp
  | _ =>
    rw [hp] at hphase
    simp [CallbackPhase.isEntering, CallbackPhase.isReplacing] at hphase

/-! ## On account of a ufrag -/

/-- Callback `i` was started by a message with ufrag `u` for the player. -/
def onAccountOf (s : RPCHandler) (pid : ℤ) (u : String) (i : ℕ) : Bool :=
  (s.restarts[i]?).any fun x => s.pidOf x.peer = pid && x.msg.ufrag = u

theorem onAccountOf_iff {i : ℕ} : s.onAccountOf pid u i = true ↔
    ∃ r msg, s.restarts[i]? = some ⟨r, msg⟩ ∧ s.pidOf r = pid ∧ msg.ufrag = u := by
  unfold onAccountOf
  cases hget : s.restarts[i]? with
  | none => simp
  | some x =>
    obtain ⟨r, msg⟩ := x
    simp

/-- How many steps callbacks on account of `u` have taken from the phases `ready`. -/
def copySteps (pid : ℤ) (u : String) (ready : CallbackPhase → Bool)
    (tr : List (RPCHandler × AdapterEvent × Unit)) : ℕ :=
  tr.countP fun x => match x.2.1 with
    | .callback i _ => x.1.onAccountOf pid u i && ready (x.1.callbacks i)
    | _ => false

/-- `ReplaceICEPeer` is called at most once on account of `u`, and one unit of the budget is used. -/
structure RestartsOnce (pid : ℤ) (u : String) (tr : List (RPCHandler × AdapterEvent × Unit)) : Prop where
  replaced : copySteps pid u CallbackPhase.isReplacing tr ≤ 1
  charged : copySteps pid u CallbackPhase.isEntering tr ≤ 1

/-- Peer `old` of the player uses ufrag `u₁`, `u₂` is new, and no message is being worked on. -/
structure InUse (pid : ℤ) (old : PeerRef) (u₁ u₂ : String) (s : RPCHandler) : Prop where
  entry : s.peerMgr.getICEPeer pid = some old
  remoteUfrag : (s.peer old).remoteUfrag = u₁
  used : u₁ ≠ ""
  given : u₂ ≠ ""
  other : u₁ ≠ u₂
  calls : ∀ call ∈ s.calls, call.rpc.pid = pid → call.rpc.message?.isSome = true → call.phase = .done
  callbacks : ∀ x ∈ s.restarts.zipIdx, s.pidOf x.1.peer = pid → x.1.msg.ufrag ≠ "" →
    x.1.msg.ufrag ≠ u₂ ∧ s.callbacks x.2 = .done

/-- The messages that come in for the player have ufrag `u`. -/
def CopyOf (pid : ℤ) (u : String) : AdapterEvent → Prop
  | .call rpc _ => rpc.pid = pid → ∀ msg ∈ rpc.message?, msg.ufrag = u
  | _ => True

instance (pid : ℤ) (u : String) : (ev : AdapterEvent) → Decidable (CopyOf pid u ev)
  | .call rpc _ => inferInstanceAs (Decidable (rpc.pid = pid → ∀ msg ∈ rpc.message?, _))
  | .rpc _ _ => .isTrue trivial
  | .callback _ _ => .isTrue trivial
  | .run _ _ => .isTrue trivial
  | .iceFailed _ => .isTrue trivial
  | .delayElapsed _ => .isTrue trivial
  | .delayedRestart _ => .isTrue trivial
  | .iceConnected _ _ => .isTrue trivial
  | .gamePacket _ _ => .isTrue trivial

/-- Peer `old` compares a copy with the ufrag it uses only before a restart on account of `u` has been
started. -/
def ComparesFirst (pid : ℤ) (u : String) (old : PeerRef) (s : RPCHandler) : AdapterEvent → Prop
  | .rpc i _ => ∀ call ∈ s.calls[i]?, call.rpc.pid = pid → call.phase = .handling old →
      ∀ msg ∈ call.rpc.message?, (s.peer old).isRestart msg = true →
        ∀ j < s.restarts.length, s.onAccountOf pid u j = false
  | _ => True

instance (pid : ℤ) (u : String) (old : PeerRef) (s : RPCHandler) :
    (ev : AdapterEvent) → Decidable (ComparesFirst pid u old s ev)
  | .rpc i _ => inferInstanceAs (Decidable (∀ call ∈ s.calls[i]?, _ → _ → ∀ msg ∈ call.rpc.message?, _ →
      ∀ j < s.restarts.length, _))
  | .call _ _ => .isTrue trivial
  | .callback _ _ => .isTrue trivial
  | .run _ _ => .isTrue trivial
  | .iceFailed _ => .isTrue trivial
  | .delayElapsed _ => .isTrue trivial
  | .delayedRestart _ => .isTrue trivial
  | .iceConnected _ _ => .isTrue trivial
  | .gamePacket _ _ => .isTrue trivial

/-! ## Callbacks after a step -/

theorem onAccountOf_keeps (hl : Linked s) (hk : Keeps s s') {i : ℕ} (h : s.onAccountOf pid u i = true) :
    s'.onAccountOf pid u i = true := by
  obtain ⟨r, msg, hget, hpid, hmsg⟩ := onAccountOf_iff.mp h
  obtain ⟨new, hnew⟩ := hk.restarts
  refine onAccountOf_iff.mpr ⟨r, msg, ?_, (hk.pidOf r (hl.restart_lt hget)).trans hpid, hmsg⟩
  rw [hnew, List.getElem?_append_left (List.getElem?_eq_some_iff.mp hget).1]
  exact hget

/-- A goroutine of the new state is one of the old state, or one the step has started. -/
theorem restart_of_append (hl : Linked s) (hk : Keeps s s') {new : List Restart}
    (hnew : s'.restarts = s.restarts ++ new) {i : ℕ} {msg : FafIceMsg}
    (hget : s'.restarts[i]? = some ⟨r, msg⟩) :
    (s.restarts[i]? = some ⟨r, msg⟩ ∧ s'.pidOf r = s.pidOf r) ∨
      s.restarts.length ≤ i ∧ new[i - s.restarts.length]? = some ⟨r, msg⟩ := by
  rw [hnew] at hget
  rcases Nat.lt_or_ge i s.restarts.length with hlt | hge
  · rw [List.getElem?_append_left hlt] at hget
    exact Or.inl ⟨hget, hk.pidOf r (hl.restart_lt hget)⟩
  · rw [List.getElem?_append_right hge] at hget
    exact Or.inr ⟨hge, hget⟩

theorem onAccountOf_append (hl : Linked s) (hk : Keeps s s') {new : List Restart}
    (hnew : s'.restarts = s.restarts ++ new) {i : ℕ} (h : s'.onAccountOf pid u i = true) :
    s.onAccountOf pid u i = true ∨ ∃ x, new[i - s.restarts.length]? = some x ∧ s.restarts.length ≤ i ∧
      s'.pidOf x.peer = pid ∧ x.msg.ufrag = u := by
  obtain ⟨r, msg, hget, hpid, hmsg⟩ := onAccountOf_iff.mp h
  rcases restart_of_append hl hk hnew hget with ⟨hbefore, hkeep⟩ | ⟨hge, hmem⟩
  · exact Or.inl (onAccountOf_iff.mpr ⟨r, msg, hbefore, hkeep.symm.trans hpid, hmsg⟩)
  · exact Or.inr ⟨⟨r, msg⟩, hmem, hge, hpid, hmsg⟩

theorem Restarts.lt (hl : Linked s) {call : Call} {msg : FafIceMsg} (h : Restarts s ev call r msg) :
    r < s.nextPeer := by
  obtain ⟨i, env, -, hget⟩ := h.event
  exact (hl.calls call (List.mem_of_getElem? hget) r h.phase).1

/-! ## The peers that copies meet -/

/-- A call that pushes a message pushes it to a peer of its player. -/
structure LinkedCalls (s : RPCHandler) : Prop where
  linked : Linked s
  pushing : ∀ call ∈ s.calls, ∀ r phase, call.phase = .pushing r phase →
    r < s.nextPeer ∧ s.pidOf r = call.rpc.pid

theorem LinkedCalls.step (h : LinkedCalls s) (ev : AdapterEvent) : LinkedCalls (s.step ev).1 := by
  have hm := move_step h.linked ev
  have hk := keeps_move h.linked hm
  refine ⟨h.linked.move hm, fun call' hcall' r phase hphase => ?_⟩
  have hkeep : ∀ {p : ℤ}, r < s.nextPeer ∧ s.pidOf r = p →
      r < (s.step ev).1.nextPeer ∧ (s.step ev).1.pidOf r = p := fun ⟨hr, hpid⟩ =>
    ⟨hr.trans_le hk.next, (hk.pidOf r hr).trans hpid⟩
  rcases calls_step h.linked hcall' with hcall | ⟨gameState, -, hfirst⟩ | ⟨call, hcall, hrpc, -, hproceeds⟩
  · exact hkeep (h.pushing call' hcall r phase hphase)
  · rw [hphase] at hfirst
    unfold firstPhase at hfirst
    repeat' split at hfirst
    all_goals cases hfirst
  · rw [hphase] at hproceeds
    rw [hrpc]
    cases hproceeds with
    | pushing phase hbefore =>
      rcases hbefore with hbefore | ⟨phase', hbefore⟩
      · exact hkeep (h.linked.calls call hcall r hbefore)
      · exact hkeep (h.pushing call hcall r phase' hbefore)
    | other hhandling hpushing => exact absurd rfl (hpushing r phase)

theorem linkedCalls_runState (events : List AdapterEvent) : LinkedCalls (runState step {} events) :=
  run_invariant (fun _ ev h => h.step ev) ⟨linked_init, nofun⟩ events

/-- Since `old` was the peer of the player and `n` the next peer, only messages with ufrag `u` have come
in, and `old` has started at most one restart on account of them. -/
structure Copies (pid : ℤ) (u : String) (old : PeerRef) (n : ℕ) (s : RPCHandler) : Prop where
  calls : LinkedCalls s
  next : n ≤ s.nextPeer
  entry : ∀ r, s.peerMgr.icePeers.lookup pid = some r → r = old ∨ n ≤ r
  messages : ∀ call ∈ s.calls, call.rpc.pid = pid → ∀ msg ∈ call.rpc.message?, call.phase = .done ∨
    msg.ufrag = u ∧ ∀ r, call.phase = .handling r → r = old ∨ n ≤ r
  callbacks : ∀ i r msg, s.restarts[i]? = some ⟨r, msg⟩ → s.pidOf r = pid → s.callbacks i ≠ .done →
    msg.ufrag = "" ∨ msg.ufrag = u
  heard : ∀ r, n ≤ r → r < s.nextPeer → s.pidOf r = pid → HeardOnly u (s.peer r)
  once : ∀ i j, s.onAccountOf pid u i = true → s.onAccountOf pid u j = true → i = j

namespace Copies
variable {n : ℕ}

theorem messages_step (h : Copies pid u old n s) (hcopy : CopyOf pid u ev) :
    ∀ call ∈ (s.step ev).1.calls, call.rpc.pid = pid → ∀ msg ∈ call.rpc.message?, call.phase = .done ∨
      msg.ufrag = u ∧ ∀ r, call.phase = .handling r → r = old ∨ n ≤ r := by
  intro call' hcall' hpid msg hmsg
  rcases calls_step h.calls.linked hcall' with hcall | ⟨gameState, rfl, hfirst⟩ |
    ⟨call, hcall, hrpc, hphase, hproceeds⟩
  · exact h.messages call' hcall hpid msg hmsg
  · refine Or.inr ⟨hcopy hpid msg hmsg, fun r hr => ?_⟩
    exact absurd (hfirst.symm.trans hr) (firstPhase_ne_handling gameState _ r)
  · rw [hrpc] at hpid hmsg
    obtain ⟨hu, -⟩ := (h.messages call hcall hpid msg hmsg).resolve_left hphase
    refine Or.inr ⟨hu, fun r hr => ?_⟩
    rw [hr] at hproceeds
    cases hproceeds with
    | handling hpeer => exact h.entry r (hpid ▸ hpeer)
    | other hhandling hpushing => exact absurd rfl (hhandling r)

/-- The peer that starts a restart on account of `u` is `old`. -/
theorem restarts_old (h : Copies pid u old n s) {call : Call} {msg : FafIceMsg}
    (hr : Restarts s ev call r msg) (hpid : s.pidOf r = pid) : msg.ufrag = u ∧ r = old ∧
      call.rpc.pid = pid := by
  obtain ⟨i, env, -, hget⟩ := hr.event
  have hcall := List.mem_of_getElem? hget
  obtain ⟨hlt, hcallPid⟩ := h.calls.linked.calls call hcall r hr.phase
  have hp : call.rpc.pid = pid := hcallPid.symm.trans hpid
  have hphase : call.phase ≠ .done := by simp [hr.phase]
  obtain ⟨hu, hheld⟩ := (h.messages call hcall hp msg hr.message).resolve_left hphase
  refine ⟨hu, (hheld r hr.phase).resolve_right fun hge => ?_, hp⟩
  -- a later peer has heard of no other ufrag
  have hnot := (h.heard r hge hlt hpid).isRestart hu
  exact Bool.false_ne_true (hnot.symm.trans hr.isRestart)

theorem callbacks_step (h : Copies pid u old n s) : ∀ i r msg,
    (s.step ev).1.restarts[i]? = some ⟨r, msg⟩ → (s.step ev).1.pidOf r = pid →
      (s.step ev).1.callbacks i ≠ .done → msg.ufrag = "" ∨ msg.ufrag = u := by
  intro i r msg hget hpid hphase
  have hl := h.calls.linked
  have hk := keeps_move hl (move_step hl ev)
  have hold : s.restarts[i]? = some ⟨r, msg⟩ ∧ (s.step ev).1.pidOf r = s.pidOf r →
      msg.ufrag = "" ∨ msg.ufrag = u := fun ⟨hget, hkeep⟩ =>
    h.callbacks i r msg hget (hkeep.symm.trans hpid) fun hdone => hphase (done_step hl hdone)
  rcases restarts_step hl ev with ⟨new, hnew, hself⟩ | ⟨call, r', msg', hr, hnew⟩
  · rcases restart_of_append hl hk hnew hget with hbefore | ⟨-, hmem⟩
    · exact hold hbefore
    · exact Or.inl (hself _ (List.mem_of_getElem? hmem))
  · rcases restart_of_append hl hk hnew hget with hbefore | ⟨-, hmem⟩
    · exact hold hbefore
    · cases List.mem_singleton.mp (List.mem_of_getElem? hmem)
      rw [hk.pidOf r (Restarts.lt hl hr)] at hpid
      exact Or.inr (h.restarts_old hr hpid).1

theorem heard_step (h : Copies pid u old n s) : ∀ r, n ≤ r → r < (s.step ev).1.nextPeer →
    (s.step ev).1.pidOf r = pid → HeardOnly u ((s.step ev).1.peer r) := by
  intro r hge hlt hpid
  have hl := h.calls.linked
  have hk := keeps_move hl (move_step hl ev)
  refine RPCHandler.heard_step hl hlt (fun hr => ?_) (fun i env he call hcall phase hphase msg hmsg => ?_)
    fun i env he r' msg hget hpid' hphase => ?_
  · exact h.heard r hge hr ((hk.pidOf r hr).symm.trans hpid)
  · have hmem := List.mem_of_getElem? hcall
    obtain ⟨hr, hcallPid⟩ := h.calls.pushing call hmem r phase hphase
    have hp : call.rpc.pid = pid := (hcallPid.symm.trans (hk.pidOf r hr).symm).trans hpid
    exact ((h.messages call hmem hp msg hmsg).resolve_left (by simp [hphase])).1
  · exact h.callbacks i r' msg hget (hpid'.trans hpid) hphase

/-- No restart has been started on account of `u` when one is. -/
theorem first_of_restarts (h : Copies pid u old n s) (hfirst : ComparesFirst pid u old s ev) {call : Call}
    {msg : FafIceMsg} (hr : Restarts s ev call r msg) (hpid : s.pidOf r = pid) (j : ℕ) :
    s.onAccountOf pid u j ≠ true := by
  obtain ⟨-, rfl, hcallPid⟩ := h.restarts_old hr hpid
  obtain ⟨i, env, rfl, hget⟩ := hr.event
  intro hj
  obtain ⟨r', msg', hget', -⟩ := onAccountOf_iff.mp hj
  have hnone := hfirst call hget hcallPid hr.phase msg hr.message hr.isRestart j
    (List.getElem?_eq_some_iff.mp hget').1
  exact Bool.false_ne_true (hnone.symm.trans hj)

theorem once_step (h : Copies pid u old n s) (hu : u ≠ "") (hfirst : ComparesFirst pid u old s ev) :
    ∀ i j, (s.step ev).1.onAccountOf pid u i = true → (s.step ev).1.onAccountOf pid u j = true → i = j := by
  have hl := h.calls.linked
  have hk := keeps_move hl (move_step hl ev)
  rcases restarts_step hl ev with ⟨new, hnew, hself⟩ | ⟨call, r, msg, hr, hnew⟩
  · -- nothing has been started on account of `u`
    have hold : ∀ i, (s.step ev).1.onAccountOf pid u i = true → s.onAccountOf pid u i = true := by
      intro i hi
      rcases onAccountOf_append hl hk hnew hi with hbefore | ⟨x, hget, -, -, hmsg⟩
      · exact hbefore
      · exact absurd (hmsg.symm.trans (hself x (List.mem_of_getElem? hget))) hu
    exact fun i j hi hj => h.once i j (hold i hi) (hold j hj)
  · -- the new one is the first, if it is on account of `u`
    have hlast : ∀ i, (s.step ev).1.onAccountOf pid u i = true → s.onAccountOf pid u i = true ∨
        i = s.restarts.length ∧ s.pidOf r = pid := by
      intro i hi
      rcases onAccountOf_append hl hk hnew hi with hbefore | ⟨x, hget, hge, hpid, -⟩
      · exact Or.inl hbefore
      · rw [List.getElem?_singleton, Option.ite_none_right_eq_some] at hget
        obtain ⟨hzero, hx⟩ := hget
        cases hx
        exact Or.inr ⟨Nat.le_antisymm (Nat.sub_eq_zero_iff_le.mp hzero) hge,
          (hk.pidOf r (Restarts.lt hl hr)).symm.trans hpid⟩
    intro i j hi hj
    rcases hlast i hi with hold | ⟨rfl, hpid⟩ <;> rcases hlast j hj with hold' | ⟨rfl, hpid'⟩
    · exact h.once i j hold hold'
    · exact absurd hold (h.first_of_restarts hfirst hr hpid' i)
    · exact absurd hold' (h.first_of_restarts hfirst hr hpid j)
    · rfl

theorem step (h : Copies pid u old n s) (hu : u ≠ "") (hcopy : CopyOf pid u ev)
    (hfirst : ComparesFirst pid u old s ev) : Copies pid u old n (s.step ev).1 := by
  have hl := h.calls.linked
  have hm := move_step hl ev
  refine ⟨h.calls.step ev, h.next.trans (keeps_move hl hm).next, fun r hr => ?_, h.messages_step hcopy,
    h.callbacks_step, h.heard_step, h.once_step hu hfirst⟩
  rcases entry_move hl hm hr with hbefore | hge
  · exact h.entry r hbefore
  · exact Or.inr (h.next.trans hge)

theorem start {u₁ : String} (hcalls : LinkedCalls s) (h : InUse pid old u₁ u s) :
    Copies pid u old s.nextPeer s where
  calls := hcalls
  next := le_refl _
  entry r hr := Or.inl (Option.some.inj (hr.symm.trans h.entry))
  messages call hcall hpid msg hmsg :=
    Or.inl (h.calls call hcall hpid (Option.isSome_iff_exists.mpr ⟨msg, hmsg⟩))
  callbacks i r msg hget hpid hphase := by
    by_contra hne
    rw [not_or] at hne
    have hmem : ((⟨r, msg⟩ : Restart), i) ∈ s.restarts.zipIdx := List.mem_zipIdx_iff_getElem?.mpr hget
    exact hphase (h.callbacks _ hmem hpid hne.1).2
  heard r hge hlt _ := absurd hlt (Nat.not_lt.mpr hge)
  once i j hi _ := by
    obtain ⟨r, msg, hget, hpid, hmsg⟩ := onAccountOf_iff.mp hi
    have hmem : ((⟨r, msg⟩ : Restart), i) ∈ s.restarts.zipIdx := List.mem_zipIdx_iff_getElem?.mpr hget
    exact absurd hmsg (h.callbacks _ hmem hpid (hmsg.symm ▸ h.given)).1

end Copies

/-! ## Whole runs -/

/-- A callback on account of `u` that has taken the step is past it. -/
def Counted (pid : ℤ) (u : String) (ready : CallbackPhase → Bool) (k : ℕ)
    (tr : List (RPCHandler × AdapterEvent × Unit)) (s : RPCHandler) : Prop :=
  copySteps pid u ready tr = 0 ∨
    copySteps pid u ready tr = 1 ∧ ∃ i, s.onAccountOf pid u i = true ∧ k < (s.callbacks i).rank

theorem Counted.le_one {ready : CallbackPhase → Bool} {k : ℕ}
    {tr : List (RPCHandler × AdapterEvent × Unit)} (h : Counted pid u ready k tr s) :
    copySteps pid u ready tr ≤ 1 := by
  rcases h with hzero | ⟨hone, -⟩
  · exact hzero.le.trans (Nat.zero_le 1)
  · exact hone.le

theorem copySteps_concat (pid : ℤ) (u : String) (ready : CallbackPhase → Bool)
    (tr : List (RPCHandler × AdapterEvent × Unit)) (s : RPCHandler) (ev : AdapterEvent) :
    copySteps pid u ready (tr ++ [(s, ev, ())]) =
      copySteps pid u ready tr ∨ copySteps pid u ready (tr ++ [(s, ev, ())]) =
        copySteps pid u ready tr + 1 ∧ ∃ i env, ev = .callback i env ∧ s.onAccountOf pid u i = true ∧
          ready (s.callbacks i) = true := by
  unfold copySteps
  rw [List.countP_append, List.countP_singleton]
  cases ev with
  | callback i env =>
    dsimp only
    split
    · next hcount =>
      obtain ⟨hfor, hready⟩ := Bool.and_eq_true_iff.mp hcount
      exact Or.inr ⟨rfl, i, env, rfl, hfor, hready⟩
    · exact Or.inl rfl
  | _ => exact Or.inl rfl

theorem Counted.step {ready : CallbackPhase → Bool} {k : ℕ}
    {tr : List (RPCHandler × AdapterEvent × Unit)} (h : Counted pid u ready k tr s) (hl : Linked s)
    (honce : ∀ i j, s.onAccountOf pid u i = true → s.onAccountOf pid u j = true → i = j)
    (hready : ∀ phase, ready phase = true → phase.rank = k ∧
      (phase.isEntering = true ∨ phase.isReplacing = true)) :
    Counted pid u ready k (tr ++ [(s, ev, ())]) (s.step ev).1 := by
  have hm := move_step hl ev
  have hk := keeps_move hl hm
  unfold Counted
  rcases copySteps_concat pid u ready tr s ev with hsame | ⟨hcount, i, env, rfl, hfor, hphase⟩
  · rw [hsame]
    refine h.imp_right fun ⟨hone, i, hfor, hrank⟩ => ⟨hone, i, onAccountOf_keeps hl hk hfor, ?_⟩
    exact hrank.trans_le (rank_move hm i)
  · obtain ⟨hrank, hkind⟩ := hready _ hphase
    rcases h with hzero | ⟨-, j, hfor', hpast⟩
    · obtain ⟨r, msg, hget, -⟩ := onAccountOf_iff.mp hfor
      have hnext := rank_callback hget hkind env
      rw [hrank] at hnext
      exact Or.inr ⟨by rw [hcount, hzero], i, onAccountOf_keeps hl hk hfor, hnext⟩
    · -- the only callback there is has taken the step before
      cases honce i j hfor hfor'
      exact absurd hrank (Nat.ne_of_gt hpast)

theorem ready_replacing (phase : CallbackPhase) (h : phase.isReplacing = true) :
    phase.rank = 3 ∧ (phase.isEntering = true ∨ phase.isReplacing = true) := by
  cases phase with
  | replacing sinceConnected => exact ⟨rfl, Or.inr h⟩
  | _ => cases h

theorem ready_entering (phase : CallbackPhase) (h : phase.isEntering = true) :
    phase.rank = 0 ∧ (phase.isEntering = true ∨ phase.isReplacing = true) := by
  cases phase with
  | entering => exact ⟨rfl, Or.inl h⟩
  | _ => cases h

theorem copies_restart_once {setup events : List AdapterEvent} {pid : ℤ} {old : PeerRef}
    {u₁ u₂ : String} (huse : InUse pid old u₁ u₂ (runState step {} setup))
    (hcopies : ∀ ev ∈ events, CopyOf pid u₂ ev)
    (hfirst : AllSteps step (fun s ev _ => ComparesFirst pid u₂ old s ev) (runState step {} setup) events) :
    RestartsOnce pid u₂ (trace step (runState step {} setup) events) := by
  have hsteps : AllSteps step (fun s ev _ => CopyOf pid u₂ ev ∧ ComparesFirst pid u₂ old s ev)
      (runState step {} setup) events := fun x hx =>
    ⟨hcopies x.2.1 (mem_of_mem_trace step hx), hfirst x hx⟩
  obtain ⟨-, hreplaced, hcharged⟩ := allSteps_invariant_trace
    (I := fun tr s => Copies pid u₂ old (runState step {} setup).nextPeer s ∧
      Counted pid u₂ CallbackPhase.isReplacing 3 tr s ∧ Counted pid u₂ CallbackPhase.isEntering 0 tr s)
    ⟨Copies.start (linkedCalls_runState setup) huse, Or.inl rfl, Or.inl rfl⟩
    (fun tr s ev h hc => ⟨h.1.step huse.given hc.1 hc.2,
      h.2.1.step h.1.calls.linked h.1.once ready_replacing,
      h.2.2.step h.1.calls.linked h.1.once ready_entering⟩) hsteps
  exact ⟨hreplaced.le_one, hcharged.le_one⟩

/-- Player 2 is connected, with ufrag `first`. -/
def connectedEvents : List AdapterEvent :=
  connectEvents ++ [.call (.iceMsg 2 (some ⟨"first", "pw", false⟩)) .lobby, .rpc 1 {}, .rpc 1 {}, .rpc 1 {},
    .run 0 .gathered, .run 0 .take, .run 0 .record, .run 0 .connected]

/-- `iceMsg` with the new ufrag. -/
def copyEvent : AdapterEvent := .call (.iceMsg 2 (some ⟨"second", "pw", false⟩)) .lobby

/-- The first copy leads to a new peer; one copy finds it before it has taken a message, one after. -/
def spacedCopies : List AdapterEvent :=
  [copyEvent, .rpc 2 {}, .rpc 2 {}, .callback 0 {}, .callback 0 {}, .callback 0 {},
    copyEvent, .rpc 3 {}, .rpc 3 {}, .rpc 3 {}, .run 1 .gathered, .run 1 .take, .run 1 .record,
    copyEvent, .rpc 4 {}, .rpc 4 {}, .rpc 4 {}]

/-- Two copies come before the new peer is there. -/
def promptCopies : List AdapterEvent :=
  [copyEvent, copyEvent, .rpc 2 {}, .rpc 2 {}, .rpc 3 {}, .rpc 3 {},
    .callback 0 {}, .callback 0 {}, .callback 0 {}, .callback 1 {}, .callback 1 {}, .callback 1 {}]

theorem connected_inUse : InUse 2 0 "first" "second" (runState step {} connectedEvents) where
  entry := by decide +kernel
  remoteUfrag := by decide +kernel
  used := by decide
  given := by decide
  other := by decide
  calls := by decide +kernel
  callbacks := by decide +kernel

theorem spacedCopies_restart_once :
    InUse 2 0 "first" "second" (runState step {} connectedEvents) ∧
      RestartsOnce 2 "second" (trace step (runState step {} connectedEvents) spacedCopies) ∧
      (runState step {} (connectedEvents ++ spacedCopies)).peerMgr.getICEPeer 2 = some 1 :=
  ⟨connected_inUse, copies_restart_once connected_inUse (by decide) (by decide +kernel), by decide +kernel⟩

/-- The second callback replaces the peer that the first has made. -/
theorem promptCopies_restart_twice :
    InUse 2 0 "first" "second" (runState step {} connectedEvents) ∧
      (∀ ev ∈ promptCopies, CopyOf 2 "second" ev) ∧
      ¬ RestartsOnce 2 "second" (trace step (runState step {} connectedEvents) promptCopies) ∧
      (runState step {} (connectedEvents ++ promptCopies)).peerMgr.getICEPeer 2 = some 2 := by
  refine ⟨connected_inUse, by decide, fun h => ?_, by decide +kernel⟩
  exact absurd h.replaced (by decide +kernel)

end RPCHandler
end Adapter
end SturmRelay
