import SturmRelay.Adapter.PeerTables
import SturmRelay.Adapter.RPCHandler

/-! # What a step of a call, a callback or a peer can do

`Move` lists the steps by what they do to the tables, the goroutines and the pointers they hold.
`Linked` says that pointers, closures and players belong together: the peer in the table under a player,
or in the hands of a call for that player, has a callback for that player. -/

namespace SturmRelay
namespace Adapter
set_option autoImplicit false

namespace RPCHandler
variable {s s' s₀ : RPCHandler} {ev : AdapterEvent}

abbrev nextPeer (s : RPCHandler) : ℕ := s.peerMgr.iceHeap.next

abbrev restarts (s : RPCHandler) : List Restart := s.peerMgr.restarts

/-! ## Steps that leave the tables alone -/

/-- Only the insides of peers and closures change, and peers may start their own restart. -/
structure Quiet (s s' : RPCHandler) : Prop where
  peers : s'.peerMgr.peers = s.peerMgr.peers
  icePeers : s'.peerMgr.icePeers = s.peerMgr.icePeers
  next : s'.nextPeer = s.nextPeer
  onRestart : ∀ r, (s'.peer r).onRestart = (s.peer r).onRestart
  closures : s'.closures.next = s.closures.next
  closurePid : ∀ c, (s'.closures.cell c).pid = (s.closures.cell c).pid
  restarts : ∃ new : List Restart, s'.restarts = s.restarts ++ new ∧
    ∀ x ∈ new, x.peer < s.nextPeer ∧ x.msg = {}
  callbacks : s'.callbacks = s.callbacks
  calls : s'.calls = s.calls
  disconnects : s'.disconnects = s.disconnects
  gone : s'.gone = s.gone

theorem Quiet.refl (s : RPCHandler) : Quiet s s :=
  ⟨rfl, rfl, rfl, fun _ => rfl, rfl, fun _ => rfl, ⟨[], (List.append_nil _).symm, nofun⟩, rfl, rfl, rfl,
    rfl⟩

theorem Quiet.pidOf (h : Quiet s s') (r : PeerRef) : s'.pidOf r = s.pidOf r := by
  unfold RPCHandler.pidOf
  rw [h.onRestart, h.closurePid]

theorem quiet_modifyPeer (r : PeerRef) {f : ICEPeer → ICEPeer} (hf : ∀ p, (f p).onRestart = p.onRestart)
    (s : RPCHandler) : Quiet s (s.modifyPeer r f) := by
  refine { Quiet.refl s with next := rfl, onRestart := fun r' => ?_ }
  by_cases hr : r' = r
  · subst hr
    simp [modifyPeer, peer, hf]
  · simp [modifyPeer, peer, Heap.modify_cell_ne _ _ hr]

theorem quiet_modifyClosure (c : RestartID) {f : RestartClosure → RestartClosure}
    (hf : ∀ c, (f c).pid = c.pid) (s : RPCHandler) :
    Quiet s { s with closures := s.closures.modify c f } := by
  refine { Quiet.refl s with closures := rfl, closurePid := fun c' => ?_ }
  by_cases hc : c' = c
  · subst hc
    simp [hf]
  · simp [Heap.modify_cell_ne _ _ hc]

/-- A peer starts its own restart. -/
theorem Quiet.spawn (h : Quiet s s') {r : PeerRef} (hr : r < s.nextPeer) : Quiet s (s'.spawn r {}) := by
  refine { h with restarts := ?_ }
  obtain ⟨new, hnew, hself⟩ := h.restarts
  refine ⟨new ++ [⟨r, {}⟩], ?_, fun x hx => ?_⟩
  · change s'.restarts ++ _ = _
    rw [hnew, List.append_assoc]
  · rcases List.mem_append.mp hx with hx | hx
    · exact hself x hx
    · rw [List.mem_singleton.mp hx]
      exact ⟨hr, rfl⟩

theorem quiet_restartOnce {r : PeerRef} (hr : r < s.nextPeer) : Quiet s (s.restartOnce r) := by
  unfold restartOnce
  split
  · exact Quiet.refl s
  · exact Quiet.spawn (quiet_modifyPeer r (by intro; rfl) s) hr

theorem onRestart_start (p : ICEPeer) : p.start.onRestart = p.onRestart := by
  unfold ICEPeer.start
  split <;> rfl

theorem onRestart_advance (p : ICEPeer) (ev : ICEPeer.RunEvent) :
    (p.advance ev).onRestart = p.onRestart := by
  unfold ICEPeer.advance
  repeat' split
  all_goals rfl

theorem onRestart_launch (msg : FafIceMsg) (offerer : Bool) (sinceConnected : ℤ) (p : ICEPeer) :
    (p.launch msg offerer sinceConnected).onRestart = p.onRestart := by
  unfold ICEPeer.launch
  dsimp only
  rw [onRestart_start]
  repeat' split
  all_goals rfl

theorem onRestart_push (msg : FafIceMsg) (phase : ICEPeer.PushPhase) (p : ICEPeer) :
    (p.push msg phase).1.onRestart = p.onRestart := by
  cases phase with
  | drop => rfl
  | select | send =>
    unfold ICEPeer.push
    dsimp only
    split <;> rfl

theorem quiet_run {r : PeerRef} (hr : r < s.nextPeer) (ev : ICEPeer.RunEvent) : Quiet s (s.run r ev) := by
  have hmodify := quiet_modifyPeer r (f := fun p => p.advance ev) (fun p => onRestart_advance p ev) s
  unfold run
  dsimp only
  split
  · exact hmodify.spawn hr
  · exact hmodify

/-! ## Moves -/

/-- Where a call can go without touching the tables. -/
inductive Walks (s : RPCHandler) (call : Call) : CallPhase → Prop
  | done : Walks s call .done
  | getICEPeer (hphase : call.phase = .getPeer) : Walks s call .getICEPeer
  | adding (hphase : call.phase = .getICEPeer) : Walks s call .adding
  | replacing (hphase : call.phase = .getICEPeer) : Walks s call .replacing
  | handling {r : PeerRef} (hphase : call.phase = .looking)
      (hpeer : s.peerMgr.getICEPeer call.rpc.pid = some r) : Walks s call (.handling r)
  | pushing (r : PeerRef) (phase : ICEPeer.PushPhase) : Walks s call (.pushing r phase)

/-- Where a callback can go from its protected section. -/
inductive Enters (msg : FafIceMsg) : CallbackPhase → Prop
  | done : Enters msg .done
  | snapshot (hself : msg.isSelfRestart = true) (attempt : ℕ) (sinceConnected : ℤ) :
      Enters msg (.snapshot attempt sinceConnected)
  | replacing (hself : msg.isSelfRestart = false) (sinceConnected : ℤ) :
      Enters msg (.replacing sinceConnected)

inductive Move (s : RPCHandler) : AdapterEvent → RPCHandler → Prop
  | quiet {ev : AdapterEvent} {s' : RPCHandler} (hquiet : Quiet s s') : Move s ev s'
  | call (rpc : RPC) (gameState : GameState) : Move s (.call rpc gameState) (s.call rpc gameState)
  | walk {i : ℕ} {env : Env} {call : Call} {phase : CallPhase} {s₀ : RPCHandler}
      (hcall : s.calls[i]? = some call) (hwalk : Walks s call phase) (hquiet : Quiet s s₀) :
      Move s (.rpc i env) (s₀.setCall i call phase)
  | spawn {i : ℕ} {env : Env} {call : Call} {r : PeerRef} (msg : FafIceMsg)
      (hcall : s.calls[i]? = some call) (hphase : call.phase = .handling r) :
      Move s (.rpc i env) ((s.setCall i call .done).spawn r msg)
  | addPeer {i : ℕ} {env : Env} {call : Call} (login : String) (setup : Setup)
      (hcall : s.calls[i]? = some call) (hphase : call.phase = .adding) :
      Move s (.rpc i env)
        (({ s with peerMgr := (s.peerMgr.addPeer call.rpc.pid login setup).1 }.setCall i call
          .done).created call s)
  | install {i : ℕ} {env : Env} {call : Call} {closure : RestartClosure} {pm : PeerManager} {r : PeerRef}
      (hcall : s.calls[i]? = some call) (hphase : call.phase = .adding ∨ call.phase = .replacing)
      (hclosure : closure.pid = call.rpc.pid)
      (hout : s.peerMgr.Installs call.rpc.pid s.closures.next (pm, .ok r)) :
      Move s (.rpc i env)
        (({ s with peerMgr := pm, closures := s.closures.alloc closure }.setCall i call
          (.starting r)).created call s)
  | installFailed {i : ℕ} {env : Env} {call : Call} {closure : RestartClosure} {pm : PeerManager}
      {e : PeerError} (hcall : s.calls[i]? = some call)
      (hclosure : closure.pid = call.rpc.pid)
      (hout : s.peerMgr.Installs call.rpc.pid s.closures.next (pm, .error e)) :
      Move s (.rpc i env)
        ({ s with peerMgr := pm, closures := s.closures.alloc closure }.setCall i call .done)
  | remove {i : ℕ} {env : Env} {call : Call} (hcall : s.calls[i]? = some call)
      (hphase : call.phase = .removing) : Move s (.rpc i env) (s.remove i call env)
  | enter {i : ℕ} {env : Env} {r : PeerRef} {msg : FafIceMsg} {phase : CallbackPhase} {s₀ : RPCHandler}
      (hrestart : s.restarts[i]? = some ⟨r, msg⟩) (hphase : s.callbacks i = .entering)
      (hnext : Enters msg phase) (hquiet : Quiet s s₀) :
      Move s (.callback i env) (s₀.setCallback i phase)
  | snapshot {i : ℕ} {env : Env} {r : PeerRef} {msg : FafIceMsg} {attempt : ℕ} {sinceConnected : ℤ}
      (wakeAt : Instant) (hrestart : s.restarts[i]? = some ⟨r, msg⟩)
      (hphase : s.callbacks i = .snapshot attempt sinceConnected) :
      Move s (.callback i env)
        (s.setCallback i (.sleeping (s.peerMgr.getICEPeer (s.pidOf r)) wakeAt sinceConnected))
  | giveUp {i : ℕ} {env : Env} {s₀ : RPCHandler} (hi : i < s.restarts.length) (hquiet : Quiet s s₀) :
      Move s (.callback i env) (s₀.setCallback i .done)
  | wake {i : ℕ} {env : Env} {r r' : PeerRef} {msg : FafIceMsg} {wakeAt : Instant} {sinceConnected : ℤ}
      (hrestart : s.restarts[i]? = some ⟨r, msg⟩)
      (hphase : s.callbacks i = .sleeping (some r') wakeAt sinceConnected)
      (hpeer : s.peerMgr.getICEPeer (s.pidOf r) = some r') :
      Move s (.callback i env) (s.setCallback i (.replacing sinceConnected))
  | restart {i : ℕ} {env : Env} {r : PeerRef} {msg : FafIceMsg} {sinceConnected : ℤ} {pm : PeerManager}
      {result : Except PeerError PeerRef} {phase : CallbackPhase}
      (hrestart : s.restarts[i]? = some ⟨r, msg⟩) (hphase : s.callbacks i = .replacing sinceConnected)
      (hout : s.peerMgr.Installs (s.pidOf r) (s.peer r).onRestart (pm, result))
      (hnext : phase = .done ∨ ∃ r', phase = .starting r' sinceConnected) :
      Move s (.callback i env) ({ s with peerMgr := pm }.setCallback i phase)

/-! ## Every step is a move -/

structure Linked (s : RPCHandler) : Prop where
  closures : ∀ r, r < s.nextPeer → (s.peer r).onRestart < s.closures.next
  table : ∀ pid r, s.peerMgr.icePeers.lookup pid = some r → r < s.nextPeer ∧ s.pidOf r = pid
  calls : ∀ call ∈ s.calls, ∀ r, call.phase = .handling r →
    r < s.nextPeer ∧ s.pidOf r = call.rpc.pid
  restarts : ∀ x ∈ s.restarts, x.peer < s.nextPeer
  callbacks : ∀ i, s.restarts.length ≤ i → s.callbacks i = .entering

theorem Linked.allocated (h : Linked s) : s.peerMgr.Allocated := fun pid r hr => (h.table pid r hr).1

theorem move_add {i : ℕ} {call : Call} (hcall : s.calls[i]? = some call) (hphase : call.phase = .adding)
    (login : String) (offerer : Bool) (env : Env) :
    Move s (.rpc i env) (s.add i call login offerer env) := by
  unfold add
  split
  · have hadd : Move s (.rpc i env) _ := .addPeer login env.setup hcall hphase
    split
    · next hok =>
      rw [hok] at hadd
      exact hadd
    · next pm e herror =>
      -- a relay peer that cannot be made leaves everything as it was
      have hsame : pm = s.peerMgr := by
        unfold PeerManager.addPeer at herror
        split at herror
        · cases herror
        · split at herror <;> cases herror
          rfl
      subst hsame
      exact .walk hcall .done (Quiet.refl s)
  · have hout := PeerManager.installs_addICEPeer call.rpc.pid login offerer s.closures.next env.setup
      s.peerMgr
    dsimp only
    split
    · next hok =>
      rw [hok] at hout
      exact .install hcall (Or.inl hphase) rfl hout
    · next herror =>
      rw [herror] at hout
      exact .installFailed hcall rfl hout

theorem move_changeRole (h : Linked s) {i : ℕ} {call : Call} (hcall : s.calls[i]? = some call)
    (hphase : call.phase = .replacing) (login : String) (offer : Bool) (env : Env) :
    Move s (.rpc i env) (s.changeRole i call login offer env) := by
  have hout := PeerManager.installs_replaceICEPeer h.allocated call.rpc.pid login offer
    s.closures.next env.setup env.drain none
  unfold changeRole
  dsimp only
  split
  · next hok =>
    rw [hok] at hout
    exact .install hcall (Or.inr hphase) rfl hout
  · next herror =>
    rw [herror] at hout
    exact .installFailed hcall rfl hout

theorem move_handleIceMsg {i : ℕ} {call : Call} {r : PeerRef} (hcall : s.calls[i]? = some call)
    (hphase : call.phase = .handling r) (parsed : Option FafIceMsg) (env : Env) :
    Move s (.rpc i env) (s.handleIceMsg i call r parsed) := by
  unfold handleIceMsg
  split
  · exact .walk hcall .done (Quiet.refl s)
  · next msg =>
    split
    · exact .walk hcall .done (Quiet.refl s)
    · split
      · exact .spawn msg hcall hphase
      · exact .walk hcall (.pushing r .select) (Quiet.refl s)

theorem move_push {i : ℕ} {call : Call} (hcall : s.calls[i]? = some call) (r : PeerRef) (msg : FafIceMsg)
    (phase : ICEPeer.PushPhase) (env : Env) : Move s (.rpc i env) (s.push i call r msg phase) := by
  have hquiet := quiet_modifyPeer r (f := fun p => (p.push msg phase).1)
    (fun p => onRestart_push msg phase p) s
  unfold push
  dsimp only
  split
  · exact .walk hcall .done hquiet
  · next next _ => exact .walk hcall (.pushing r next) hquiet

theorem move_rpc (h : Linked s) (i : ℕ) (env : Env) : Move s (.rpc i env) (s.rpc i env) := by
  unfold rpc
  cases hcall : s.calls[i]? with
  | none => exact .quiet (Quiet.refl s)
  | some call =>
    dsimp only
    split
    · next hphase =>
      split
      · exact .walk hcall .done (Quiet.refl s)
      · exact .walk hcall (.getICEPeer hphase) (Quiet.refl s)
    · next hphase hrpc =>
      split
      · split
        · exact .walk hcall .done (Quiet.refl s)
        · exact .walk hcall (.replacing hphase) (Quiet.refl s)
      · exact .walk hcall (.adding hphase) (Quiet.refl s)
    · next hphase _ =>
      split
      · exact .walk hcall .done (Quiet.refl s)
      · exact .walk hcall (.adding hphase) (Quiet.refl s)
    · next hphase hrpc => exact move_add hcall hphase ..
    · next hphase hrpc => exact move_add hcall hphase ..
    · next hphase hrpc => exact move_changeRole h hcall hphase ..
    · next r hphase => exact .walk hcall .done (quiet_modifyPeer r onRestart_start s)
    · next hphase => exact .remove hcall hphase
    · next hphase =>
      split
      · next r hpeer => exact .walk hcall (.handling hphase hpeer) (Quiet.refl s)
      · exact .walk hcall .done (Quiet.refl s)
    · next r parsed hphase hrpc => exact move_handleIceMsg hcall hphase parsed env
    · next r hphase hrpc => exact .spawn { manual := true } hcall hphase
    · exact move_push hcall _ _ _ env
    · exact .quiet (Quiet.refl s)

theorem enters_afterEnter (msg : FafIceMsg) (c : RestartClosure) : Enters msg (c.afterEnter msg) := by
  unfold RestartClosure.afterEnter
  split
  · exact .done
  · split
    · next hself => exact .snapshot hself _ _
    · next hself => exact .replacing (Bool.eq_false_iff.mpr hself) _

theorem move_callback (h : Linked s) (i : ℕ) (env : Env) :
    Move s (.callback i env) (s.callback i env) := by
  unfold callback
  cases hrestart : s.peerMgr.restarts[i]? with
  | none => exact .quiet (Quiet.refl s)
  | some x =>
    obtain ⟨r, msg⟩ := x
    have hi : i < s.restarts.length := (List.getElem?_eq_some_iff.mp hrestart).1
    dsimp only
    cases hphase : s.callbacks i with
    | entering =>
      have hquiet := quiet_modifyClosure (s.peer r).onRestart
        (f := fun c => c.enter msg env.now) (fun c => c.enter_pid msg env.now) s
      exact .enter hrestart hphase (enters_afterEnter msg _) hquiet
    | snapshot attempt sinceConnected => exact .snapshot _ hrestart hphase
    | sleeping peerBefore wakeAt sinceConnected =>
      dsimp only
      split
      · exact .giveUp hi (Quiet.refl s)
      · split
        · unfold afterBackoff
          split
          · exact .giveUp hi (Quiet.refl s)
          · next r' hpeer =>
            split
            · next hsame =>
              rw [← hsame] at hphase
              exact .wake hrestart hphase hpeer
            · exact .giveUp hi (Quiet.refl s)
        · exact .quiet (Quiet.refl s)
    | replacing sinceConnected =>
      have hout := PeerManager.installs_replaceICEPeer h.allocated (s.pidOf r)
        (s.closures.cell (s.peer r).onRestart).login (s.closures.cell (s.peer r).onRestart).offerer
        (s.peer r).onRestart env.setup env.drain (if msg.ufrag = "" then none else some msg)
      dsimp only [restart]
      split
      · next hok =>
        have hout' := hout
        rw [pidOf, hok] at hout'
        exact .restart hrestart hphase hout' (Or.inr ⟨_, rfl⟩)
      · next herror =>
        have hout' := hout
        rw [pidOf, herror] at hout'
        exact .restart hrestart hphase hout' (Or.inl rfl)
    | starting peer sinceConnected =>
      exact .giveUp hi (quiet_modifyPeer peer (onRestart_launch msg _ sinceConnected) s)
    | done => exact .quiet (Quiet.refl s)

theorem move_step (h : Linked s) (ev : AdapterEvent) : Move s ev (s.step ev).1 := by
  cases ev with
  | call rpc gameState => exact .call rpc gameState
  | rpc i env => exact move_rpc h i env
  | callback i env => exact move_callback h i env
  | run r ev =>
    simp only [step]
    split
    · next hr => exact .quiet (quiet_run hr ev)
    · exact .quiet (Quiet.refl s)
  | iceFailed r =>
    simp only [step, iceFailed]
    split
    · next hr =>
      split
      · exact .quiet (quiet_restartOnce hr)
      · exact .quiet (quiet_modifyPeer r (by intro; rfl) s)
    · exact .quiet (Quiet.refl s)
  | delayElapsed r =>
    simp only [step, delayElapsed]
    split
    · exact .quiet (quiet_modifyPeer r (by intro; rfl) s)
    · exact .quiet (Quiet.refl s)
  | delayedRestart r =>
    simp only [step, delayedRestart]
    split
    · next hr =>
      split
      · exact .quiet (quiet_restartOnce hr)
      · exact .quiet (Quiet.refl s)
    · exact .quiet (Quiet.refl s)
  | iceConnected r now =>
    simp only [step]
    split
    · exact .quiet (quiet_modifyClosure _ (by intro; rfl) s)
    · exact .quiet (Quiet.refl s)
  | gamePacket r addr =>
    simp only [step]
    split
    · exact .quiet (quiet_modifyPeer r (by intro; rfl) s)
    · exact .quiet (Quiet.refl s)

/-! ## Links are kept -/

/-- Pointers stay what they are, and goroutines are only added. -/
structure Keeps (s s' : RPCHandler) : Prop where
  next : s.nextPeer ≤ s'.nextPeer
  pidOf : ∀ r, r < s.nextPeer → s'.pidOf r = s.pidOf r
  restarts : ∃ new, s'.restarts = s.restarts ++ new

theorem Quiet.keeps (h : Quiet s s') : Keeps s s' :=
  ⟨h.next.ge, fun r _ => h.pidOf r, h.restarts.imp fun _ hnew => hnew.1⟩

theorem Linked.quiet (h : Linked s) (hq : Quiet s s') : Linked s' where
  closures := fun r hr => by
    rw [hq.onRestart, hq.closures]
    exact h.closures r (hq.next ▸ hr)
  table := fun pid r hr => by
    rw [hq.icePeers] at hr
    rw [hq.next, hq.pidOf]
    exact h.table pid r hr
  calls := fun call hcall r hphase => by
    rw [hq.calls] at hcall
    rw [hq.next, hq.pidOf]
    exact h.calls call hcall r hphase
  restarts := fun x hx => by
    obtain ⟨new, hnew, hself⟩ := hq.restarts
    rw [hnew] at hx
    rw [hq.next]
    rcases List.mem_append.mp hx with hx | hx
    · exact h.restarts x hx
    · exact (hself x hx).1
  callbacks := fun i hi => by
    obtain ⟨new, hnew, -⟩ := hq.restarts
    rw [hnew, List.length_append] at hi
    rw [hq.callbacks]
    exact h.callbacks i ((Nat.le_add_right _ _).trans hi)

theorem Linked.setCall (h : Linked s) (i : ℕ) (call : Call) (phase : CallPhase)
    (hphase : ∀ r, phase = .handling r → r < s.nextPeer ∧ s.pidOf r = call.rpc.pid) :
    Linked (s.setCall i call phase) := by
  refine ⟨h.closures, h.table, fun call' hcall r hhandling => ?_, h.restarts, h.callbacks⟩
  rcases List.mem_or_eq_of_mem_set hcall with hcall | rfl
  · exact h.calls call' hcall r hhandling
  · exact hphase r hhandling

theorem Linked.setCallback (h : Linked s) {i : ℕ} (hi : i < s.restarts.length) (phase : CallbackPhase) :
    Linked (s.setCallback i phase) := by
  refine ⟨h.closures, h.table, h.calls, h.restarts, fun j hj => ?_⟩
  have hne : j ≠ i := by
    rintro rfl
    exact absurd hi (Nat.not_lt.mpr hj)
  simp only [RPCHandler.setCallback, Function.update_of_ne hne]
  exact h.callbacks j hj

theorem Linked.spawn (h : Linked s) {r : PeerRef} (hr : r < s.nextPeer) (msg : FafIceMsg) :
    Linked (s.spawn r msg) := by
  refine ⟨h.closures, h.table, h.calls, fun x hx => ?_, fun j hj => ?_⟩
  · rcases List.mem_append.mp hx with hx | hx
    · exact h.restarts x hx
    · rw [List.mem_singleton.mp hx]
      exact hr
  · simp only [RPCHandler.restarts, RPCHandler.spawn, List.length_append] at hj
    exact h.callbacks j ((Nat.le_add_right _ _).trans hj)

theorem Linked.created (h : Linked s') (call : Call) (s : RPCHandler) : Linked (s'.created call s) := by
  unfold RPCHandler.created
  split
  · exact ⟨h.closures, h.table, h.calls, h.restarts, h.callbacks⟩
  · exact h

section PeerManagerSteps
variable {pid : ℤ} {pm : PeerManager} {closures : Heap RestartClosure}

/-- An operation of the peer manager for one player, with the closures it is given. -/
structure Operates (s : RPCHandler) (pid : ℤ) (pm : PeerManager) (closures : Heap RestartClosure) :
    Prop where
  only : s.peerMgr.ChangesOnly pid pm
  grows : s.closures.next ≤ closures.next
  closurePid : ∀ c, c < s.closures.next → (closures.cell c).pid = (s.closures.cell c).pid
  fresh : ∀ r, s.nextPeer ≤ r → r < pm.iceHeap.next → (pm.iceHeap.cell r).onRestart < closures.next ∧
    (closures.cell (pm.iceHeap.cell r).onRestart).pid = pid
  entry : ∀ r, pm.icePeers.lookup pid = some r →
    s.peerMgr.icePeers.lookup pid = some r ∨ (s.nextPeer ≤ r ∧ r < pm.iceHeap.next)

theorem Operates.keeps (ho : Operates s pid pm closures) (h : Linked s) :
    Keeps s { s with peerMgr := pm, closures := closures } := by
  refine ⟨ho.only.next, fun r hr => ?_, ho.only.restarts.imp fun _ hnew => hnew.1⟩
  unfold RPCHandler.pidOf peer
  rw [ho.only.onRestart r hr]
  exact ho.closurePid _ (h.closures r hr)

theorem Operates.linked (ho : Operates s pid pm closures) (h : Linked s) :
    Linked { s with peerMgr := pm, closures := closures } := by
  have hkeeps := ho.keeps h
  refine ⟨fun r hr => ?_, fun pid' r hr => ?_, fun call hcall r hphase => ?_, fun x hx => ?_,
    fun i hi => ?_⟩
  · rcases Nat.lt_or_ge r s.nextPeer with hlt | hge
    · unfold peer
      rw [ho.only.onRestart r hlt]
      exact (h.closures r hlt).trans_le ho.grows
    · exact (ho.fresh r hge hr).1
  · have hold : s.peerMgr.icePeers.lookup pid' = some r →
        r < pm.iceHeap.next ∧ pidOf { s with peerMgr := pm, closures := closures } r = pid' := by
      intro hlookup
      obtain ⟨hlt, hpid⟩ := h.table pid' r hlookup
      exact ⟨hlt.trans_le hkeeps.next, (hkeeps.pidOf r hlt).trans hpid⟩
    by_cases hp : pid' = pid
    · subst hp
      rcases ho.entry r hr with hlookup | ⟨hge, hlt⟩
      · exact hold hlookup
      · exact ⟨hlt, (ho.fresh r hge hlt).2⟩
    · exact hold ((ho.only.icePeers pid' hp).symm.trans hr)
  · obtain ⟨hlt, hpid⟩ := h.calls call hcall r hphase
    exact ⟨hlt.trans_le hkeeps.next, (hkeeps.pidOf r hlt).trans hpid⟩
  · obtain ⟨new, hnew, hself⟩ := ho.only.restarts
    rw [show RPCHandler.restarts { s with peerMgr := pm, closures := closures } = _ from hnew] at hx
    rcases List.mem_append.mp hx with hx | hx
    · exact (h.restarts x hx).trans_le hkeeps.next
    · exact (hself x hx).1.trans_le hkeeps.next
  · obtain ⟨new, hnew⟩ := hkeeps.restarts
    rw [hnew, List.length_append] at hi
    exact h.callbacks i ((Nat.le_add_right _ _).trans hi)

theorem operates_install {closure : RestartClosure} (hclosure : closure.pid = pid)
    {result : Except PeerError PeerRef} (hout : s.peerMgr.Installs pid s.closures.next (pm, result)) :
    Operates s pid pm (s.closures.alloc closure) where
  only := hout.only
  grows := Nat.le_succ _
  closurePid := fun c hc => by rw [Heap.alloc_cell_of_lt _ _ hc]
  fresh := fun r hge hlt => by
    rw [hout.fresh r hge hlt, Heap.alloc_cell_self]
    exact ⟨Nat.lt_succ_self _, hclosure⟩
  entry := hout.entry

theorem operates_restart (h : Linked s) {r : PeerRef} (hr : r < s.nextPeer)
    {result : Except PeerError PeerRef}
    (hout : s.peerMgr.Installs (s.pidOf r) (s.peer r).onRestart (pm, result)) :
    Operates s (s.pidOf r) pm s.closures where
  only := hout.only
  grows := le_refl _
  closurePid := fun _ _ => rfl
  fresh := fun r' hge hlt => by
    rw [hout.fresh r' hge hlt]
    exact ⟨h.closures r hr, rfl⟩
  entry := hout.entry

/-- An operation that makes no ICE peer. -/
theorem operates_of_next (honly : s.peerMgr.ChangesOnly pid pm)
    (hnext : pm.iceHeap.next = s.nextPeer)
    (hentry : ∀ r, pm.icePeers.lookup pid = some r → s.peerMgr.icePeers.lookup pid = some r) :
    Operates s pid pm s.closures where
  only := honly
  grows := le_refl _
  closurePid := fun _ _ => rfl
  fresh := fun _ hge hlt => absurd hlt (Nat.not_lt.mpr (hnext ▸ hge))
  entry := fun r hr => Or.inl (hentry r hr)

theorem operates_addPeer (login : String) (setup : Setup) :
    Operates s pid (s.peerMgr.addPeer pid login setup).1 s.closures := by
  refine operates_of_next (PeerManager.changesOnly_addPeer pid login setup s.peerMgr) ?_ fun r => ?_
  all_goals
    unfold PeerManager.addPeer
    repeat' split
  all_goals first | rfl | exact id

theorem operates_removePeer (h : Linked s) (drain : PeerRef → Bool) :
    Operates s pid (s.peerMgr.removePeer drain pid) s.closures := by
  refine operates_of_next (PeerManager.changesOnly_removePeer h.allocated drain pid) ?_ fun r hr => ?_
  · exact PeerManager.next_removePeer drain pid s.peerMgr
  · rw [(PeerManager.lookup_removePeer drain pid s.peerMgr).2] at hr
    cases hr

end PeerManagerSteps

theorem created_keeps (call : Call) (s s' : RPCHandler) :
    (s'.created call s).peerMgr = s'.peerMgr ∧ (s'.created call s).closures = s'.closures ∧
      (s'.created call s).callbacks = s'.callbacks ∧ (s'.created call s).calls = s'.calls := by
  unfold created
  split <;> exact ⟨rfl, rfl, rfl, rfl⟩

/-- The same peers, closures and goroutines. -/
theorem Keeps.congr (h : Keeps s s₀) (hpm : s'.peerMgr = s₀.peerMgr) (hclosures : s'.closures = s₀.closures) :
    Keeps s s' := by
  have hpid : ∀ r, s'.pidOf r = s₀.pidOf r := fun r => by
    unfold RPCHandler.pidOf peer
    rw [hpm, hclosures]
  refine ⟨?_, fun r hr => (hpid r).trans (h.pidOf r hr), ?_⟩
  · unfold nextPeer
    rw [hpm]
    exact h.next
  · unfold RPCHandler.restarts
    rw [hpm]
    exact h.restarts

theorem Linked.restart_lt (h : Linked s) {i : ℕ} {r : PeerRef} {msg : FafIceMsg}
    (hrestart : s.restarts[i]? = some ⟨r, msg⟩) : r < s.nextPeer :=
  h.restarts _ (List.mem_of_getElem? hrestart)

theorem keeps_move (h : Linked s) (hm : Move s ev s') : Keeps s s' := by
  have hrefl := (Quiet.refl s).keeps
  cases hm with
  | quiet hquiet => exact hquiet.keeps
  | call rpc gameState => exact hrefl.congr rfl rfl
  | walk hcall hwalk hquiet => exact hquiet.keeps.congr rfl rfl
  | spawn msg hcall hphase => exact ⟨le_refl _, fun _ _ => rfl, ⟨_, rfl⟩⟩
  | addPeer login setup hcall hphase =>
    obtain ⟨hpm, hclosures, -⟩ := created_keeps _ s _
    exact ((operates_addPeer login setup).keeps h).congr hpm hclosures
  | install hcall hphase hclosure hout =>
    obtain ⟨hpm, hclosures, -⟩ := created_keeps _ s _
    exact ((operates_install hclosure hout).keeps h).congr hpm hclosures
  | installFailed hcall hclosure hout =>
    exact ((operates_install hclosure hout).keeps h).congr rfl rfl
  | @remove i env call hcall hphase =>
    exact ((operates_removePeer h env.drain).keeps h).congr rfl rfl
  | enter hrestart hphase hnext hquiet => exact hquiet.keeps.congr rfl rfl
  | snapshot wakeAt hrestart hphase => exact hrefl.congr rfl rfl
  | giveUp hi hquiet => exact hquiet.keeps.congr rfl rfl
  | wake hrestart hphase hpeer => exact hrefl.congr rfl rfl
  | restart hrestart hphase hout hnext =>
    exact ((operates_restart h (h.restart_lt hrestart) hout).keeps h).congr rfl rfl

theorem lt_length_of_keeps (h : Keeps s s') {i : ℕ} (hi : i < s.restarts.length) :
    i < s'.restarts.length := by
  obtain ⟨new, hnew⟩ := h.restarts
  rw [hnew, List.length_append]
  exact hi.trans_le (Nat.le_add_right _ _)

theorem firstPhase_ne_handling (gameState : GameState) (rpc : RPC) (r : PeerRef) :
    firstPhase gameState rpc ≠ .handling r := by
  unfold firstPhase
  repeat' split
  all_goals simp

theorem Linked.walk (h : Linked s) {call : Call} {phase : CallPhase} (hwalk : Walks s call phase)
    {r : PeerRef} (hhandling : phase = .handling r) : r < s.nextPeer ∧ s.pidOf r = call.rpc.pid := by
  cases hwalk with
  | handling hphase hpeer =>
    cases hhandling
    exact h.table _ _ hpeer
  | _ => cases hhandling

theorem Linked.move (h : Linked s) (hm : Move s ev s') : Linked s' := by
  cases hm with
  | quiet hquiet => exact h.quiet hquiet
  | call rpc gameState =>
    refine ⟨h.closures, h.table, fun call hcall r hhandling => ?_, h.restarts, h.callbacks⟩
    rcases List.mem_append.mp hcall with hcall | hcall
    · exact h.calls call hcall r hhandling
    · rw [List.mem_singleton.mp hcall] at hhandling
      exact absurd hhandling (firstPhase_ne_handling gameState rpc r)
  | walk hcall hwalk hquiet =>
    refine (h.quiet hquiet).setCall _ _ _ fun r he => ?_
    rw [hquiet.next, hquiet.pidOf]
    exact h.walk hwalk he
  | spawn msg hcall hphase =>
    have hr := (h.calls _ (List.mem_of_getElem? hcall) _ hphase).1
    exact (h.setCall _ _ .done nofun).spawn hr msg
  | addPeer login setup hcall hphase =>
    exact (((operates_addPeer login setup).linked h).setCall _ _ .done nofun).created _ s
  | install hcall hphase hclosure hout =>
    exact (((operates_install hclosure hout).linked h).setCall _ _ (.starting _) nofun).created _ s
  | installFailed hcall hclosure hout =>
    exact ((operates_install hclosure hout).linked h).setCall _ _ .done nofun
  | @remove i env call hcall hphase =>
    have hremove : Operates s call.rpc.pid _ _ := operates_removePeer h env.drain
    have hlinked := (hremove.linked h).setCall i call .done nofun
    exact ⟨hlinked.closures, hlinked.table, hlinked.calls, hlinked.restarts, hlinked.callbacks⟩
  | enter hrestart hphase hnext hquiet =>
    have hi := (List.getElem?_eq_some_iff.mp hrestart).1
    exact (h.quiet hquiet).setCallback (lt_length_of_keeps hquiet.keeps hi) _
  | snapshot wakeAt hrestart hphase =>
    exact h.setCallback (List.getElem?_eq_some_iff.mp hrestart).1 _
  | giveUp hi hquiet => exact (h.quiet hquiet).setCallback (lt_length_of_keeps hquiet.keeps hi) _
  | wake hrestart hphase hpeer => exact h.setCallback (List.getElem?_eq_some_iff.mp hrestart).1 _
  | restart hrestart hphase hout hnext =>
    have hoperates := operates_restart h (h.restart_lt hrestart) hout
    have hi := (List.getElem?_eq_some_iff.mp hrestart).1
    exact (hoperates.linked h).setCallback (lt_length_of_keeps (hoperates.keeps h) hi) _

theorem linked_init : Linked {} where
  closures := nofun
  table := nofun
  calls := nofun
  restarts := nofun
  callbacks := fun _ _ => rfl

end RPCHandler
end Adapter
end SturmRelay
