import SturmRelay.Adapter.Linking
import SturmRelay.Foundations.Runs

/-! # A disconnected player

`disconnectFromPeer` removes the peers of a player, but not the goroutines that work on them.
`ReplaceICEPeer` makes a peer whether or not there was one, and the callbacks of remote-triggered and
manual restarts do not look before they call it. So a goroutine that is on its way when the player is
disconnected can bring the player back. `staysDisconnected`: if none is on its way at any disconnect,
a player stays away until a later `joinGame` or `connectToPeer`. -/

namespace SturmRelay
namespace Adapter
set_option autoImplicit false

/-- The callback will make a peer, unless it has failed too often. -/
def CallbackPhase.armed (msg : FafIceMsg) : CallbackPhase → Bool
  | .entering => !msg.isSelfRestart
  | .replacing _ => true
  | _ => false

/-- A `joinGame` or `connectToPeer` that may still make a peer. -/
def CallPhase.creates : CallPhase → Bool
  | .getPeer => true
  | .getICEPeer => true
  | .adding => true
  | .replacing => true
  | _ => false

/-- An `iceMsg` or a manual reconnect that holds a peer it may restart. -/
def CallPhase.holds : CallPhase → Bool
  | .handling _ => true
  | _ => false

namespace RPCHandler
variable {s s' s₀ : RPCHandler} {ev : AdapterEvent} {pid : ℤ}

/-- After a disconnect there is no peer until a call made later creates one. -/
def StaysDisconnected (s : RPCHandler) : Prop := ∀ pid, s.gone pid = true → s.hasPeer pid = false

/-- Nobody is on the way to make a peer for the player. -/
def Idle (s : RPCHandler) (pid : ℤ) : Prop :=
  (∀ x ∈ s.restarts.zipIdx, s.pidOf x.1.peer = pid → (s.callbacks x.2).armed x.1.msg = false) ∧
    ∀ call ∈ s.calls, call.rpc.pid = pid → (call.phase.creates || call.phase.holds) = false

/-- A player is disconnected only while nobody is on the way to make a peer for them. -/
def DisconnectsIdle (s : RPCHandler) : AdapterEvent → Prop
  | .rpc i _ => ∀ call ∈ s.calls[i]?, call.phase = .removing → s.Idle call.rpc.pid
  | _ => True

instance (s : RPCHandler) (pid : ℤ) : Decidable (s.Idle pid) :=
  inferInstanceAs (Decidable ((∀ x ∈ _, _ → _ = _) ∧ ∀ call ∈ _, _ → _ = _))

instance (s : RPCHandler) : (ev : AdapterEvent) → Decidable (s.DisconnectsIdle ev)
  | .rpc i _ => inferInstanceAs (Decidable (∀ call ∈ s.calls[i]?, _ → _))
  | .call _ _ => .isTrue trivial
  | .callback _ _ => .isTrue trivial
  | .run _ _ => .isTrue trivial
  | .iceFailed _ => .isTrue trivial
  | .delayElapsed _ => .isTrue trivial
  | .delayedRestart _ => .isTrue trivial
  | .iceConnected _ _ => .isTrue trivial
  | .gamePacket _ _ => .isTrue trivial

/-! ## No peer, and nobody on the way -/

structure Absent (s : RPCHandler) (pid : ℤ) : Prop where
  peers : s.peerMgr.peers.lookup pid = none
  icePeers : s.peerMgr.icePeers.lookup pid = none
  callbacks : ∀ j r msg, s.restarts[j]? = some ⟨r, msg⟩ → s.pidOf r = pid →
    (s.callbacks j).armed msg = false
  calls : ∀ call ∈ s.calls, call.rpc.pid = pid → call.phase.holds = false ∧
    (call.phase.creates = true → call.since = s.disconnects pid)

theorem Absent.hasPeer (h : Absent s pid) : s.hasPeer pid = false := by
  unfold RPCHandler.hasPeer PeerManager.getPeer PeerManager.getICEPeer
  rw [h.peers, h.icePeers]
  rfl

/-- Goroutines that peers start for themselves are not armed. -/
theorem unarmed_of_append (hl : Linked s) {new : List Restart} (hnew : s'.restarts = s.restarts ++ new)
    (hself : ∀ x ∈ new, x.msg = {}) (hpid : ∀ r, r < s.nextPeer → s'.pidOf r = s.pidOf r)
    (h : ∀ j r msg, s.restarts[j]? = some ⟨r, msg⟩ → s.pidOf r = pid → (s.callbacks j).armed msg = false)
    {j : ℕ} {r : PeerRef} {msg : FafIceMsg} (hget : s'.restarts[j]? = some ⟨r, msg⟩)
    (hr : s'.pidOf r = pid) : (s.callbacks j).armed msg = false := by
  rw [hnew] at hget
  rcases Nat.lt_or_ge j s.restarts.length with hlt | hge
  · rw [List.getElem?_append_left hlt] at hget
    exact h j r msg hget ((hpid r (hl.restart_lt hget)).symm.trans hr)
  · rw [List.getElem?_append_right hge] at hget
    rw [hl.callbacks j hge, show msg = {} from hself _ (List.mem_of_getElem? hget)]
    rfl

theorem Absent.quiet (h : Absent s pid) (hl : Linked s) (hq : Quiet s s') : Absent s' pid where
  peers := by
    rw [hq.peers]
    exact h.peers
  icePeers := by
    rw [hq.icePeers]
    exact h.icePeers
  callbacks := fun j r msg hget hr => by
    obtain ⟨new, hnew, hself⟩ := hq.restarts
    rw [hq.callbacks]
    exact unarmed_of_append hl hnew (fun x hx => (hself x hx).2) (fun r _ => hq.pidOf r) h.callbacks
      hget hr
  calls := by
    rw [hq.calls, hq.disconnects]
    exact h.calls

theorem Absent.setCall (h : Absent s pid) (i : ℕ) (call : Call) (phase : CallPhase)
    (hphase : call.rpc.pid = pid → phase.holds = false ∧
      (phase.creates = true → call.since = s.disconnects pid)) :
    Absent (s.setCall i call phase) pid := by
  refine ⟨h.peers, h.icePeers, h.callbacks, fun call' hcall hpid => ?_⟩
  rcases List.mem_or_eq_of_mem_set hcall with hcall | rfl
  · exact h.calls call' hcall hpid
  · exact hphase hpid

theorem Absent.setCall_past (h : Absent s pid) (i : ℕ) (call : Call) {phase : CallPhase}
    (hholds : phase.holds = false) (hcreates : phase.creates = false) :
    Absent (s.setCall i call phase) pid :=
  h.setCall i call phase fun _ => ⟨hholds, fun hc => absurd (hcreates.symm.trans hc) Bool.false_ne_true⟩

theorem Absent.setCallback (h : Absent s pid) (i : ℕ) (phase : CallbackPhase)
    (hphase : ∀ r msg, s.restarts[i]? = some ⟨r, msg⟩ → s.pidOf r = pid → phase.armed msg = false) :
    Absent (s.setCallback i phase) pid := by
  refine ⟨h.peers, h.icePeers, fun j r msg hget hr => ?_, h.calls⟩
  by_cases hj : j = i
  · subst hj
    simp only [RPCHandler.setCallback, Function.update_self]
    exact hphase r msg hget hr
  · simp only [RPCHandler.setCallback, Function.update_of_ne hj]
    exact h.callbacks j r msg hget hr

/-- An operation of the peer manager that leaves the player without peers. -/
theorem Absent.operates {pid' : ℤ} {pm : PeerManager} {closures : Heap RestartClosure}
    (h : Absent s pid) (hl : Linked s) (ho : Operates s pid' pm closures)
    (hpeers : pm.peers.lookup pid = none) (hice : pm.icePeers.lookup pid = none) :
    Absent { s with peerMgr := pm, closures := closures } pid where
  peers := hpeers
  icePeers := hice
  callbacks := fun j r msg hget hr => by
    obtain ⟨new, hnew, hself⟩ := ho.only.restarts
    exact unarmed_of_append hl hnew (fun x hx => (hself x hx).2) (ho.keeps hl).pidOf h.callbacks hget hr
  calls := h.calls

theorem Absent.operates_other {pid' : ℤ} {pm : PeerManager} {closures : Heap RestartClosure}
    (h : Absent s pid) (hl : Linked s) (ho : Operates s pid' pm closures) (hne : pid ≠ pid') :
    Absent { s with peerMgr := pm, closures := closures } pid :=
  h.operates hl ho ((ho.only.peers pid hne).trans h.peers) ((ho.only.icePeers pid hne).trans h.icePeers)

/-! ## Steps -/

theorem Absent.walk (h : Absent s pid) {call : Call} {phase : CallPhase} (hcall : call ∈ s.calls)
    (hwalk : Walks s call phase) (hpid : call.rpc.pid = pid) :
    phase.holds = false ∧ (phase.creates = true → call.since = s.disconnects pid) := by
  have hsince := (h.calls call hcall hpid).2
  cases hwalk with
  | done => exact ⟨rfl, nofun⟩
  | getICEPeer hphase | adding hphase | replacing hphase =>
    exact ⟨rfl, fun _ => hsince (by rw [hphase]; rfl)⟩
  | handling hphase hpeer =>
    -- the player has no peer to hold
    rw [hpid, PeerManager.getICEPeer, h.icePeers] at hpeer
    cases hpeer
  | pushing r phase => exact ⟨rfl, nofun⟩

theorem firstPhase_holds (gameState : GameState) (rpc : RPC) : (firstPhase gameState rpc).holds = false := by
  unfold firstPhase
  repeat' split
  all_goals rfl

theorem Absent.call (h : Absent s pid) (rpc : RPC) (gameState : GameState) :
    Absent (s.call rpc gameState) pid := by
  refine ⟨h.peers, h.icePeers, h.callbacks, fun call hcall hpid => ?_⟩
  rcases List.mem_append.mp hcall with hcall | hcall
  · exact h.calls call hcall hpid
  · rw [List.mem_singleton.mp hcall] at hpid ⊢
    exact ⟨firstPhase_holds gameState rpc, fun _ => congrArg s.disconnects hpid⟩

/-- A call for another player restarts a peer. -/
theorem Absent.spawn (h : Absent s pid) {r : PeerRef} (hr : s.pidOf r ≠ pid)
    (msg : FafIceMsg) : Absent (s.spawn r msg) pid := by
  refine ⟨h.peers, h.icePeers, fun j r' msg' hget hr' => ?_, h.calls⟩
  change (s.restarts ++ [⟨r, msg⟩])[j]? = some ⟨r', msg'⟩ at hget
  rcases Nat.lt_or_ge j s.restarts.length with hlt | hge
  · rw [List.getElem?_append_left hlt] at hget
    exact h.callbacks j r' msg' hget hr'
  · rw [List.getElem?_append_right hge] at hget
    have hmem := List.mem_of_getElem? hget
    rw [List.mem_singleton] at hmem
    cases hmem
    exact absurd hr' hr

/-- A call for the player that creates a peer was made after the disconnect: the player is back. -/
theorem Absent.gone_created (h : Absent s pid) {call : Call} (hcall : call ∈ s.calls)
    (hcreates : call.phase.creates = true) (hpid : call.rpc.pid = pid) (s' : RPCHandler) :
    (s'.created call s).gone pid = false := by
  have hsince := (h.calls call hcall hpid).2 hcreates
  unfold created
  rw [if_pos ⟨by rw [hpid]; exact hsince, by rw [hpid]; exact h.hasPeer⟩, hpid]
  exact Function.update_self ..

theorem Absent.created (h : Absent s' pid) (call : Call) (s : RPCHandler) :
    Absent (s'.created call s) pid := by
  unfold RPCHandler.created
  split
  · exact ⟨h.peers, h.icePeers, h.callbacks, h.calls⟩
  · exact h

theorem Absent.remove_other (h : Absent s pid) (hl : Linked s) (i : ℕ) (call : Call) (env : Env)
    (hne : pid ≠ call.rpc.pid) : Absent (s.remove i call env) pid := by
  have hop : Operates s call.rpc.pid _ _ := operates_removePeer hl env.drain
  have habsent : Absent (RPCHandler.setCall i call .done _) pid :=
    (h.operates_other hl hop hne).setCall_past i call rfl rfl
  refine ⟨habsent.peers, habsent.icePeers, habsent.callbacks, fun call' hcall hpid => ?_⟩
  obtain ⟨hholds, hsince⟩ := habsent.calls call' hcall hpid
  refine ⟨hholds, fun hcreates => ?_⟩
  rw [show (s.remove i call env).disconnects pid = s.disconnects pid from Function.update_of_ne hne ..]
  exact hsince hcreates

/-- A disconnect while nobody is on the way. -/
theorem absent_remove (hl : Linked s) (i : ℕ) (call : Call) (env : Env) (hidle : s.Idle call.rpc.pid) :
    Absent (s.remove i call env) call.rpc.pid := by
  have hop : Operates s call.rpc.pid _ _ := operates_removePeer hl env.drain
  have hlookup := PeerManager.lookup_removePeer env.drain call.rpc.pid s.peerMgr
  refine ⟨hlookup.1, hlookup.2, fun j r msg hget hr => ?_, fun call' hcall hpid => ?_⟩
  · obtain ⟨new, hnew, hself⟩ := hop.only.restarts
    have hnew' : (s.remove i call env).restarts = s.restarts ++ new := hnew
    refine unarmed_of_append hl hnew' (fun x hx => (hself x hx).2) (hop.keeps hl).pidOf
      (fun j r msg hget hr => ?_) hget hr
    exact hidle.1 (⟨r, msg⟩, j) (List.mem_zipIdx_iff_getElem?.mpr hget) hr
  · rcases List.mem_or_eq_of_mem_set hcall with hcall | rfl
    · obtain ⟨hcreates, hholds⟩ := Bool.or_eq_false_iff.mp (hidle.2 call' hcall hpid)
      rw [hcreates]
      exact ⟨hholds, nofun⟩
    · exact ⟨rfl, nofun⟩

/-- A callback for somebody absent is one its peer started for itself, and it waits first. -/
theorem Absent.enter (h : Absent s pid) (hl : Linked s) {i : ℕ} {r : PeerRef} {msg : FafIceMsg}
    {phase : CallbackPhase} (hrestart : s.restarts[i]? = some ⟨r, msg⟩) (hphase : s.callbacks i = .entering)
    (hnext : Enters msg phase) (hquiet : Quiet s s₀) : Absent (s₀.setCallback i phase) pid := by
  refine (h.quiet hl hquiet).setCallback i phase fun r' msg' hget hr => ?_
  obtain ⟨new, hnew, -⟩ := hquiet.restarts
  rw [hnew, List.getElem?_append_left (List.getElem?_eq_some_iff.mp hrestart).1, hrestart] at hget
  cases hget
  rw [hquiet.pidOf] at hr
  have hunarmed := h.callbacks i r msg hrestart hr
  rw [hphase] at hunarmed
  cases hnext with
  | done => rfl
  | snapshot hself attempt sinceConnected => rfl
  | replacing hother sinceConnected =>
    rw [CallbackPhase.armed, hother] at hunarmed
    cases hunarmed

/-- Whoever is absent stays absent, or comes back by a later call. -/
theorem Absent.move (h : Absent s pid) (hl : Linked s) (hm : Move s ev s')
    (hidle : DisconnectsIdle s ev) (hgone : s'.gone pid = true) : Absent s' pid := by
  cases hm with
  | quiet hquiet => exact h.quiet hl hquiet
  | call rpc gameState => exact h.call rpc gameState
  | walk hcall hwalk hquiet =>
    refine (h.quiet hl hquiet).setCall _ _ _ fun hpid => ?_
    rw [hquiet.disconnects]
    exact h.walk (List.mem_of_getElem? hcall) hwalk hpid
  | @spawn i env call r msg hcall hphase =>
    have hmem := List.mem_of_getElem? hcall
    have hpid := (hl.calls call hmem r hphase).2
    have hne : call.rpc.pid ≠ pid := by
      intro he
      have hholds := (h.calls call hmem he).1
      rw [hphase] at hholds
      cases hholds
    have hcalled : Absent (s.setCall i call .done) pid := h.setCall_past i call rfl rfl
    exact hcalled.spawn (fun he => hne (hpid.symm.trans he)) msg
  | @addPeer i env call login setup hcall hphase =>
    by_cases hpid : call.rpc.pid = pid
    · rw [h.gone_created (List.mem_of_getElem? hcall) (by rw [hphase]; rfl) hpid] at hgone
      cases hgone
    · have habsent := h.operates_other hl (operates_addPeer login setup) (Ne.symm hpid)
      exact (habsent.setCall_past i call rfl rfl).created call s
  | @install i env call closure pm r hcall hphase hclosure hout =>
    by_cases hpid : call.rpc.pid = pid
    · have hcreates : call.phase.creates = true := by
        rcases hphase with he | he <;> rw [he] <;> rfl
      rw [h.gone_created (List.mem_of_getElem? hcall) hcreates hpid] at hgone
      cases hgone
    · have habsent := h.operates_other hl (operates_install hclosure hout) (Ne.symm hpid)
      exact (habsent.setCall_past i call rfl rfl).created call s
  | @installFailed i env call closure pm e hcall hclosure hout =>
    have hop := operates_install hclosure hout
    by_cases hpid : call.rpc.pid = pid
    · subst hpid
      have hpeers : pm.peers.lookup call.rpc.pid = none := by
        rw [show pm.peers = s.peerMgr.peers from hout.peers]
        exact h.peers
      exact (h.operates hl hop hpeers (hout.error e rfl)).setCall_past i call rfl rfl
    · exact (h.operates_other hl hop (Ne.symm hpid)).setCall_past i call rfl rfl
  | @remove i env call hcall hphase =>
    by_cases hpid : call.rpc.pid = pid
    · subst hpid
      exact absent_remove hl i call env (hidle call hcall hphase)
    · exact h.remove_other hl i call env (Ne.symm hpid)
  | enter hrestart hphase hnext hquiet => exact h.enter hl hrestart hphase hnext hquiet
  | snapshot wakeAt hrestart hphase => exact h.setCallback _ _ fun _ _ _ _ => rfl
  | giveUp hi hquiet => exact (h.quiet hl hquiet).setCallback _ _ fun _ _ _ _ => rfl
  | @wake i env r r' msg wakeAt sinceConnected hrestart hphase hpeer =>
    refine h.setCallback i _ fun r₁ msg₁ hget hr => ?_
    -- the callback found a peer, so it is for another player
    rw [hrestart] at hget
    cases hget
    rw [hr, PeerManager.getICEPeer, h.icePeers] at hpeer
    cases hpeer
  | @restart i env r msg sinceConnected pm result phase hrestart hphase hout hnext =>
    have hne : pid ≠ s.pidOf r := by
      intro he
      have harmed := h.callbacks i r msg hrestart he.symm
      rw [hphase] at harmed
      cases harmed
    have hop := operates_restart hl (hl.restart_lt hrestart) hout
    refine (h.operates_other hl hop hne).setCallback i phase fun _ _ _ _ => ?_
    rcases hnext with rfl | ⟨r', rfl⟩ <;> rfl

/-! ## Runs -/

theorem gone_of_created {call : Call} (h : (s'.created call s).gone pid = true) : s'.gone pid = true := by
  unfold created at h
  split at h
  · by_cases hp : pid = call.rpc.pid
    · subst hp
      exact absurd ((Function.update_self _ _ _).symm.trans h) nofun
    · exact (Function.update_of_ne hp _ _).symm.trans h
  · exact h

/-- Whoever becomes or stays gone was gone before, or is disconnected by the step. -/
theorem gone_move (hm : Move s ev s') (hgone : s'.gone pid = true) :
    s.gone pid = true ∨
      ∃ i env call, ev = .rpc i env ∧ s.calls[i]? = some call ∧ call.phase = .removing ∧
        call.rpc.pid = pid ∧ s' = s.remove i call env := by
  cases hm with
  | quiet hquiet => exact Or.inl (hquiet.gone ▸ hgone)
  | walk hcall hwalk hquiet => exact Or.inl (hquiet.gone ▸ hgone)
  | enter hrestart hphase hnext hquiet => exact Or.inl (hquiet.gone ▸ hgone)
  | giveUp hi hquiet => exact Or.inl (hquiet.gone ▸ hgone)
  | addPeer login setup hcall hphase =>
    have hbefore := gone_of_created hgone
    exact Or.inl hbefore
  | install hcall hphase hclosure hout =>
    have hbefore := gone_of_created hgone
    exact Or.inl hbefore
  | @remove i env call hcall hphase =>
    by_cases hp : pid = call.rpc.pid
    · exact Or.inr ⟨i, env, call, rfl, hcall, hphase, hp.symm, rfl⟩
    · exact Or.inl ((Function.update_of_ne hp _ _).symm.trans hgone)
  | _ => exact Or.inl hgone

structure GoneAbsent (s : RPCHandler) : Prop where
  linked : Linked s
  absent : ∀ pid, s.gone pid = true → Absent s pid

theorem GoneAbsent.step (h : GoneAbsent s) (hidle : DisconnectsIdle s ev) : GoneAbsent (s.step ev).1 := by
  have hm := move_step h.linked ev
  refine ⟨h.linked.move hm, fun pid hgone => ?_⟩
  rcases gone_move hm hgone with hold | ⟨i, env, call, rfl, hcall, hphase, rfl, hs'⟩
  · exact (h.absent pid hold).move h.linked hm hidle hgone
  · rw [hs']
    exact absent_remove h.linked i call env (hidle call hcall hphase)

theorem goneAbsent_init : GoneAbsent {} := ⟨linked_init, nofun⟩

theorem staysDisconnected (events : List AdapterEvent)
    (h : AllSteps step (fun s ev _ => DisconnectsIdle s ev) {} events) :
    AllSteps step (fun s ev _ => StaysDisconnected (s.step ev).1) {} events :=
  allSteps_of_invariant (I := GoneAbsent) (fun _ _ hs hc => hs.step hc)
    (fun _ _ hs hc pid hgone => ((hs.step hc).absent pid hgone).hasPeer) goneAbsent_init h

/-- The connection to player 2 fails, and the player is disconnected while the restart callback is in its
backoff. -/
def failedEvents : List AdapterEvent :=
  [.call (.connectToPeer "peer" 2 true) .lobby, .rpc 0 {}, .rpc 0 {}, .rpc 0 {}, .rpc 0 {},
    .iceFailed 0, .callback 0 {}, .callback 0 {}, .call (.disconnectFromPeer 2) .lobby, .rpc 1 {}]

/-- The callback wakes up and finds no peer; then the player is connected again. -/
def reconnectEvents : List AdapterEvent :=
  failedEvents ++ [.callback 0 { now := 20 * second }, .call (.connectToPeer "peer" 2 true) .lobby, .rpc 2 {},
    .rpc 2 {}, .rpc 2 {}]

theorem reconnected_staysDisconnected :
    AllSteps step (fun s ev _ => DisconnectsIdle s ev) {} reconnectEvents ∧
      AllSteps step (fun s ev _ => StaysDisconnected (s.step ev).1) {} reconnectEvents ∧
      (runState step {} failedEvents).gone 2 = true ∧
      (runState step {} failedEvents).callbacks 0 = .sleeping (some 0) second 0 ∧
      (runState step {} reconnectEvents).callbacks 0 = .done ∧
      (runState step {} reconnectEvents).hasPeer 2 = true :=
  ⟨by decide +kernel, staysDisconnected reconnectEvents (by decide +kernel), by decide +kernel,
    by decide +kernel, by decide +kernel, by decide +kernel⟩

/-- A remote-triggered restart has passed its protected section when the player is disconnected. -/
def revivedEvents : List AdapterEvent :=
  [.call (.connectToPeer "peer" 2 true) .lobby, .rpc 0 {}, .rpc 0 {}, .rpc 0 {}, .rpc 0 {},
    .call (.iceMsg 2 (some ⟨"first", "pw", false⟩)) .lobby, .rpc 1 {}, .rpc 1 {}, .rpc 1 {},
    .run 0 .gathered, .run 0 .take, .run 0 .record,
    .call (.iceMsg 2 (some ⟨"second", "pw", false⟩)) .lobby, .rpc 2 {}, .rpc 2 {}, .callback 0 {},
    .call (.disconnectFromPeer 2) .lobby, .rpc 3 {}]

theorem restart_revives_player :
    ¬ AllSteps step (fun s ev _ => StaysDisconnected (s.step ev).1) {}
      (revivedEvents ++ [.callback 0 {}]) := by
  intro h
  have habsent := (allSteps_concat.mp h).2 2 (by decide +kernel)
  exact absurd habsent (by decide +kernel)

end RPCHandler
end Adapter
end SturmRelay
