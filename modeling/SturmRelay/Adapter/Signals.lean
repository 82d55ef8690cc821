import SturmRelay.Adapter.RestartBudget

/-! # What peers have heard

`Move` leaves out what messages say. Here is what a step tells a peer: a push puts a message in its
channel, a restart gives a new peer the message it was started for, and nothing else does
(`heard_step`). And which goroutines a step starts on account of a message: only `HandleIceMsg` does, when
the peer it has found uses another ufrag (`restarts_step`). -/

namespace SturmRelay
namespace Adapter
set_option autoImplicit false

/-! ## Peers that have heard one ufrag -/

namespace ICEPeer

structure HeardOnly (u : String) (p : ICEPeer) : Prop where
  remoteUfrag : p.remoteUfrag = "" ∨ p.remoteUfrag = u
  remoteMsg : ∀ msg ∈ p.remoteMsg, msg.ufrag = u
  taken : ∀ msg, p.phase = .taken msg → msg.ufrag = u

namespace HeardOnly
variable {u : String} {p p' : ICEPeer}

/-- The message is no restart for such a peer. -/
theorem isRestart (h : HeardOnly u p) {msg : FafIceMsg} (hmsg : msg.ufrag = u) :
    p.isRestart msg = false := by
  unfold ICEPeer.isRestart
  rcases h.remoteUfrag with he | he
  · simp [he]
  · simp [he, hmsg]

theorem congr (h : HeardOnly u p) (hufrag : p'.remoteUfrag = p.remoteUfrag)
    (hqueue : p'.remoteMsg = p.remoteMsg) (hphase : ∀ msg, p'.phase = .taken msg → p.phase = .taken msg) :
    HeardOnly u p' where
  remoteUfrag := hufrag ▸ h.remoteUfrag
  remoteMsg := hqueue ▸ h.remoteMsg
  taken msg hmsg := h.taken msg (hphase msg hmsg)

theorem start (h : HeardOnly u p) : HeardOnly u p.start := by
  unfold ICEPeer.start
  split
  · exact h.congr rfl rfl (by simp)
  · exact h

theorem launch (h : HeardOnly u p) (msg : FafIceMsg) (offerer : Bool) (sinceConnected : ℤ) :
    HeardOnly u (p.launch msg offerer sinceConnected) := by
  unfold ICEPeer.launch
  refine HeardOnly.start ?_
  repeat' split
  all_goals exact h.congr rfl rfl fun _ => id

theorem push (h : HeardOnly u p) {msg : FafIceMsg} (hmsg : msg.ufrag = u) (phase : PushPhase) :
    HeardOnly u (p.push msg phase).1 := by
  have hadd : HeardOnly u { p with remoteMsg := p.remoteMsg ++ [msg] } := by
    refine ⟨h.remoteUfrag, fun m hm => ?_, h.taken⟩
    rcases List.mem_append.mp hm with hm | hm
    · exact h.remoteMsg m hm
    · rw [List.mem_singleton.mp hm, hmsg]
  cases phase with
  | drop => exact ⟨h.remoteUfrag, fun m hm => h.remoteMsg m (List.mem_of_mem_tail hm), h.taken⟩
  | select | send =>
    unfold ICEPeer.push
    dsimp only
    split
    · exact hadd
    · exact h

theorem advance (h : HeardOnly u p) (ev : RunEvent) : HeardOnly u (p.advance ev) := by
  cases ev with
  | take =>
    simp only [ICEPeer.advance]
    split
    · next msg rest hphase hqueue =>
      refine ⟨h.remoteUfrag, fun m hm => h.remoteMsg m ?_, fun m hm => ?_⟩
      · exact hqueue ▸ List.mem_cons_of_mem msg hm
      · cases hm
        exact h.remoteMsg msg (hqueue ▸ List.mem_cons_self)
    · exact h
  | record =>
    simp only [ICEPeer.advance]
    split
    · next msg hphase => exact ⟨Or.inr (h.taken msg hphase), h.remoteMsg, by simp⟩
    · exact h
  | gathered | noCredentials | connected | connectFailed =>
    simp only [ICEPeer.advance]
    split
    · exact h.congr rfl rfl (by simp)
    · exact h

/-- `run` has taken the first message on its way out. -/
theorem takeFirst (h : HeardOnly u p) {msg : FafIceMsg} {rest : List FafIceMsg}
    (hqueue : p.remoteMsg = msg :: rest) :
    HeardOnly u { p with remoteUfrag := msg.ufrag, remoteMsg := rest, phase := .ended } where
  remoteUfrag := Or.inr (h.remoteMsg msg (hqueue ▸ List.mem_cons_self))
  remoteMsg m hm := h.remoteMsg m (hqueue ▸ List.mem_cons_of_mem msg hm)
  taken := by simp

theorem finishRun (h : HeardOnly u p) (drain : Bool) : HeardOnly u (p.finishRun drain) := by
  have hended : HeardOnly u { p with phase := .ended } := h.congr rfl rfl (by simp)
  unfold ICEPeer.finishRun
  repeat' split
  · exact h
  · next msg hphase => exact ⟨Or.inr (h.taken msg hphase), h.remoteMsg, by simp⟩
  · next hqueue => exact h.takeFirst hqueue
  · exact hended
  · next hqueue => exact h.takeFirst hqueue
  · exact hended
  · exact hended

theorem shutdown (h : HeardOnly u p) (drain : Bool) : HeardOnly u (p.shutdown drain) :=
  (h.finishRun drain).congr rfl rfl fun _ => id

end HeardOnly
end ICEPeer

namespace PeerManager
open ICEPeer (HeardOnly)
variable {u : String} {pm : PeerManager}

/-- A peer that has heard only `u` still has. -/
def KeepsHeard (u : String) (h h' : Heap ICEPeer) : Prop :=
  ∀ r, r < h.next → HeardOnly u (h.cell r) → HeardOnly u (h'.cell r)

theorem keepsHeard_modify (h : Heap ICEPeer) (r : PeerRef) {f : ICEPeer → ICEPeer}
    (hf : HeardOnly u (h.cell r) → HeardOnly u (f (h.cell r))) : KeepsHeard u h (h.modify r f) := by
  intro r' _ hheard
  by_cases hr : r' = r
  · subst hr
    rw [Heap.modify_cell_self]
    exact hf hheard
  · rwa [Heap.modify_cell_ne _ _ hr]

theorem keepsHeard_alloc (h : Heap ICEPeer) (p : ICEPeer) : KeepsHeard u h (h.alloc p) := by
  intro r hr hheard
  rwa [Heap.alloc_cell_of_lt _ _ hr]

theorem keepsHeard_close (drain : Bool) (r : PeerRef) (pm : PeerManager) :
    KeepsHeard u pm.iceHeap (pm.closeICEPeer drain r).iceHeap :=
  keepsHeard_modify pm.iceHeap r fun h => h.shutdown drain

theorem keepsHeard_removePeer (drain : PeerRef → Bool) (pid : ℤ) (pm : PeerManager) :
    KeepsHeard u pm.iceHeap (pm.removePeer drain pid).iceHeap := by
  unfold removePeer
  rw [← (dropPeer_ice pid pm).2]
  generalize pm.dropPeer pid = pm'
  unfold dropICEPeer
  split
  · exact keepsHeard_close _ _ _
  · exact fun _ _ => id

/-- A peer that has heard nothing. -/
structure Unheard (p : ICEPeer) : Prop where
  remoteUfrag : p.remoteUfrag = ""
  remoteMsg : p.remoteMsg = []
  phase : p.phase = .notStarted

theorem unheard_newICEPeer {pid : ℤ} {login : String} {offerer : Bool} {onRestart : RestartID}
    {setup : Setup} {conn : Option SocketID} {pm' : PeerManager} {p : ICEPeer}
    (hnew : pm.newICEPeer pid login offerer onRestart setup conn = (pm', .ok p)) : Unheard p := by
  unfold newICEPeer at hnew
  cases conn <;> dsimp only at hnew <;> repeat' split at hnew
  all_goals cases hnew
  all_goals exact ⟨rfl, rfl, rfl⟩

theorem Unheard.heardOnly {p : ICEPeer} (h : Unheard p) : HeardOnly u p where
  remoteUfrag := Or.inl h.remoteUfrag
  remoteMsg msg hmsg := by
    rw [h.remoteMsg] at hmsg
    cases hmsg
  taken msg hmsg := by
    rw [h.phase] at hmsg
    cases hmsg

theorem Unheard.preload {p : ICEPeer} (h : Unheard p) {initialMsg : Option FafIceMsg}
    (hmsg : ∀ msg ∈ initialMsg, msg.ufrag = u) : HeardOnly u (p.preload initialMsg) := by
  have hheard : HeardOnly u p := h.heardOnly
  refine ⟨hheard.remoteUfrag, fun m hm => hmsg m ?_, hheard.taken⟩
  unfold ICEPeer.preload at hm
  rw [h.remoteMsg] at hm
  exact Option.mem_toList.mp hm

/-- What `AddICEPeer` and `ReplaceICEPeer` do to what peers have heard: a peer they make knows at most
the message it is given. -/
structure Introduces (u : String) (initialMsg : Option FafIceMsg) (h h' : Heap ICEPeer) : Prop where
  keeps : KeepsHeard u h h'
  fresh : (∀ msg ∈ initialMsg, msg.ufrag = u) → ∀ r, h.next ≤ r → r < h'.next → HeardOnly u (h'.cell r)

theorem KeepsHeard.introduces {h h' : Heap ICEPeer} (hk : KeepsHeard u h h') (hnext : h'.next = h.next)
    (initialMsg : Option FafIceMsg) : Introduces u initialMsg h h' where
  keeps := hk
  fresh _ _ hge hlt := absurd (hnext ▸ hlt) (Nat.not_lt.mpr hge)

theorem introduces_refl (initialMsg : Option FafIceMsg) (h : Heap ICEPeer) :
    Introduces u initialMsg h h := KeepsHeard.introduces (fun _ _ => id) rfl initialMsg

theorem introduces_alloc {initialMsg : Option FafIceMsg} {p : ICEPeer}
    (hp : (∀ msg ∈ initialMsg, msg.ufrag = u) → HeardOnly u p) (h : Heap ICEPeer) :
    Introduces u initialMsg h (h.alloc p) where
  keeps := keepsHeard_alloc h p
  fresh hmsg r hge hlt := by
    obtain rfl : r = h.next := Nat.le_antisymm (Nat.lt_succ_iff.mp hlt) hge
    rw [Heap.alloc_cell_self]
    exact hp hmsg

theorem introduces_addICEPeer (pid : ℤ) (login : String) (offerer : Bool) (onRestart : RestartID)
    (setup : Setup) (pm : PeerManager) :
    Introduces u none pm.iceHeap (pm.addICEPeer pid login offerer onRestart setup).1.iceHeap := by
  have hsame := (sameTables_newICEPeer pid login offerer onRestart setup none pm).iceHeap
  unfold addICEPeer
  split
  · exact introduces_refl none _
  · split
    · next hnew =>
      rw [hnew] at hsame
      rw [hsame]
      exact introduces_refl none _
    · next hnew =>
      rw [hnew] at hsame
      rw [← hsame]
      have hsilent := unheard_newICEPeer hnew
      refine introduces_alloc (fun _ => Unheard.heardOnly ?_) _
      exact ⟨hsilent.remoteUfrag, hsilent.remoteMsg, hsilent.phase⟩

theorem introduces_succeed (pid : ℤ) (login : String) (offerer : Bool) (onRestart : RestartID)
    (setup : Setup) (initialMsg : Option FafIceMsg) (inherited : Option ICEPeer) (pm : PeerManager) :
    Introduces u initialMsg pm.iceHeap
      (pm.succeed pid login offerer onRestart setup initialMsg inherited).1.iceHeap := by
  have hsame := (sameTables_newICEPeer pid login offerer onRestart setup
    (inherited.map ICEPeer.conn) pm).iceHeap
  unfold succeed
  split
  · next hnew =>
    rw [hnew] at hsame
    rw [← hsame]
    split <;> exact introduces_refl initialMsg _
  · next hnew =>
    rw [hnew] at hsame
    rw [← hsame]
    have hsilent := unheard_newICEPeer hnew
    refine introduces_alloc (fun hmsg => Unheard.preload ?_ hmsg) _
    exact ⟨hsilent.remoteUfrag, hsilent.remoteMsg, hsilent.phase⟩

theorem keepsHeard_detach (drain : Bool) (pid : ℤ) (r : PeerRef) (pm : PeerManager) :
    KeepsHeard u pm.iceHeap (pm.detach drain pid r).iceHeap := by
  intro r' hr hheard
  have hmodify : KeepsHeard u pm.iceHeap (pm.iceHeap.modify r fun p => { p with ownsConn := false }) :=
    keepsHeard_modify pm.iceHeap r fun h => h.congr rfl rfl fun _ => id
  exact keepsHeard_close drain r _ r' hr (hmodify r' hr hheard)

theorem introduces_replaceICEPeer (pid : ℤ) (login : String) (offerer : Bool) (onRestart : RestartID)
    (setup : Setup) (drain : PeerRef → Bool) (initialMsg : Option FafIceMsg) (pm : PeerManager) :
    Introduces u initialMsg pm.iceHeap
      (pm.replaceICEPeer pid login offerer onRestart setup drain initialMsg).1.iceHeap := by
  unfold replaceICEPeer
  split
  · next r hlookup =>
    have hsucceed := introduces_succeed (u := u) pid login offerer onRestart setup initialMsg
      (some (pm.iceHeap.cell r)) (pm.detach (drain r) pid r)
    exact ⟨fun r' hr hheard => hsucceed.keeps r' hr (keepsHeard_detach (drain r) pid r pm r' hr hheard),
      hsucceed.fresh⟩
  · exact introduces_succeed pid login offerer onRestart setup initialMsg none pm

theorem Introduces.heard {initialMsg : Option FafIceMsg} {h h' : Heap ICEPeer}
    (hi : Introduces u initialMsg h h') {r : PeerRef} (hr : r < h'.next)
    (hold : r < h.next → HeardOnly u (h.cell r))
    (hnew : h.next ≤ r → ∀ msg ∈ initialMsg, msg.ufrag = u) : HeardOnly u (h'.cell r) := by
  rcases Nat.lt_or_ge r h.next with hlt | hge
  · exact hi.keeps r hlt (hold hlt)
  · exact hi.fresh (hnew hge) r hge hr

end PeerManager

/-! ## What a step tells a peer -/

def RPC.message? : RPC → Option FafIceMsg
  | .iceMsg _ parsed => parsed
  | _ => none

namespace RPCHandler
open ICEPeer (HeardOnly)
variable {s s' : RPCHandler} {ev : AdapterEvent} {u : String} {r : PeerRef}

theorem introduces_add (i : ℕ) (call : Call) (login : String) (offerer : Bool) (env : Env)
    (s : RPCHandler) :
    PeerManager.Introduces u none s.peerMgr.iceHeap (s.add i call login offerer env).peerMgr.iceHeap := by
  have hrelay : (s.peerMgr.addPeer call.rpc.pid login env.setup).1.iceHeap = s.peerMgr.iceHeap := by
    unfold PeerManager.addPeer
    repeat' split
    all_goals rfl
  have hice := PeerManager.introduces_addICEPeer (u := u) call.rpc.pid login offerer s.closures.next
    env.setup s.peerMgr
  unfold add
  split
  · split
    · next hout =>
      rw [hout] at hrelay
      rw [(created_keeps call s _).1, ← hrelay]
      exact PeerManager.introduces_refl none _
    · next hout =>
      rw [hout] at hrelay
      rw [← hrelay]
      exact PeerManager.introduces_refl none _
  · dsimp only
    split
    · next hout =>
      rw [hout] at hice
      rw [(created_keeps call s _).1]
      exact hice
    · next hout =>
      rw [hout] at hice
      exact hice

theorem introduces_changeRole (i : ℕ) (call : Call) (login : String) (offer : Bool) (env : Env)
    (s : RPCHandler) :
    PeerManager.Introduces u none s.peerMgr.iceHeap (s.changeRole i call login offer env).peerMgr.iceHeap := by
  have hice := PeerManager.introduces_replaceICEPeer (u := u) call.rpc.pid login offer s.closures.next
    env.setup env.drain none s.peerMgr
  unfold changeRole
  dsimp only
  split
  · next hout =>
    rw [hout] at hice
    rw [(created_keeps call s _).1]
    exact hice
  · next hout =>
    rw [hout] at hice
    exact hice

/-- No step of a call but a push tells a peer anything. -/
theorem introduces_rpc {i : ℕ} (hpush : ∀ call ∈ s.calls[i]?, ∀ r phase, call.phase ≠ .pushing r phase)
    (env : Env) : PeerManager.Introduces u none s.peerMgr.iceHeap (s.rpc i env).peerMgr.iceHeap := by
  have hrefl : PeerManager.Introduces u none s.peerMgr.iceHeap s.peerMgr.iceHeap := PeerManager.introduces_refl none _
  unfold rpc
  cases hcall : s.calls[i]? with
  | none => exact hrefl
  | some call =>
    dsimp only
    split
    · exact hrefl
    · split <;> exact hrefl
    · exact hrefl
    · exact introduces_add _ _ _ _ _ _
    · exact introduces_add _ _ _ _ _ _
    · exact introduces_changeRole _ _ _ _ _ _
    · next r _ =>
      exact (PeerManager.keepsHeard_modify _ r fun h => h.start).introduces rfl none
    · exact (PeerManager.keepsHeard_removePeer _ _ _).introduces (PeerManager.next_removePeer _ _ _) none
    · split <;> exact hrefl
    · unfold handleIceMsg
      repeat' split
      all_goals exact hrefl
    · exact hrefl
    · next hphase _ => exact absurd hphase (hpush call hcall _ _)
    · exact hrefl

theorem heap_push {i : ℕ} {call : Call} {phase : ICEPeer.PushPhase} (hcall : s.calls[i]? = some call)
    (hphase : call.phase = .pushing r phase) (env : Env) : (s.rpc i env).peerMgr.iceHeap = s.peerMgr.iceHeap ∨
      ∃ msg, call.rpc.message? = some msg ∧
        (s.rpc i env).peerMgr.iceHeap = s.peerMgr.iceHeap.modify r fun p => (p.push msg phase).1 := by
  unfold rpc
  rw [hcall]
  simp only [hphase]
  split
  all_goals try contradiction
  · next heq hrpc =>
    cases heq
    exact Or.inr ⟨_, by rw [hrpc]; rfl, rfl⟩
  · exact Or.inl rfl

theorem heard_rpc {i : ℕ} {env : Env} (hr : r < (s.rpc i env).nextPeer)
    (hold : r < s.nextPeer → HeardOnly u (s.peer r))
    (hpush : ∀ call ∈ s.calls[i]?, ∀ phase, call.phase = .pushing r phase →
      ∀ msg ∈ call.rpc.message?, msg.ufrag = u) : HeardOnly u ((s.rpc i env).peer r) := by
  by_cases hpushing : ∃ call r' phase, s.calls[i]? = some call ∧ call.phase = .pushing r' phase
  · obtain ⟨call, r', phase, hcall, hphase⟩ := hpushing
    unfold nextPeer at hr
    unfold peer
    rcases heap_push hcall hphase env with hheap | ⟨msg, hmsg, hheap⟩
    · rw [hheap] at hr ⊢
      exact hold hr
    · rw [hheap] at hr ⊢
      by_cases he : r = r'
      · subst he
        rw [Heap.modify_cell_self]
        exact (hold hr).push (hpush call hcall phase hphase msg hmsg) phase
      · rw [Heap.modify_cell_ne _ _ he]
        exact hold hr
  · refine (introduces_rpc (fun call hcall r' phase hphase => ?_) env).heard hr hold (fun _ => nofun)
    exact hpushing ⟨call, r', phase, hcall, hphase⟩

theorem introduces_callback {i : ℕ} {r' : PeerRef} {msg : FafIceMsg}
    (hrestart : s.restarts[i]? = some ⟨r', msg⟩) (env : Env) :
    PeerManager.Introduces u (if msg.ufrag = "" then none else some msg) s.peerMgr.iceHeap
      (s.callback i env).peerMgr.iceHeap := by
  unfold callback
  rw [hrestart]
  dsimp only [restart]
  generalize (if msg.ufrag = "" then none else some msg) = initialMsg
  have hrefl := PeerManager.introduces_refl (u := u) initialMsg s.peerMgr.iceHeap
  cases s.callbacks i with
  | entering => exact hrefl
  | snapshot attempt sinceConnected => exact hrefl
  | sleeping peerBefore wakeAt sinceConnected =>
    dsimp only
    repeat' split
    all_goals exact hrefl
  | replacing sinceConnected =>
    have hreplace := PeerManager.introduces_replaceICEPeer (u := u)
      (s.closures.cell (s.peer r').onRestart).pid (s.closures.cell (s.peer r').onRestart).login
      (s.closures.cell (s.peer r').onRestart).offerer (s.peer r').onRestart env.setup env.drain
      initialMsg s.peerMgr
    dsimp only
    split
    all_goals
      next hout =>
      rw [hout] at hreplace
      exact hreplace
  | starting peer sinceConnected =>
    exact (PeerManager.keepsHeard_modify _ peer fun h => h.launch _ _ _).introduces rfl _
  | done => exact hrefl

theorem introduces_modifyPeer (r : PeerRef) {f : ICEPeer → ICEPeer}
    (hf : ∀ p, HeardOnly u p → HeardOnly u (f p)) (s : RPCHandler) :
    PeerManager.Introduces u none s.peerMgr.iceHeap (s.modifyPeer r f).peerMgr.iceHeap :=
  (PeerManager.keepsHeard_modify s.peerMgr.iceHeap r (hf _)).introduces rfl none

theorem introduces_restartOnce (r : PeerRef) (s : RPCHandler) :
    PeerManager.Introduces u none s.peerMgr.iceHeap (s.restartOnce r).peerMgr.iceHeap := by
  unfold restartOnce
  split
  · exact PeerManager.introduces_refl none _
  · have hmark := introduces_modifyPeer (u := u) r (f := fun p => { p with restartOnce := true })
      (fun p h => h.congr rfl rfl fun _ => id) s
    exact hmark

/-- What peers do by themselves tells them nothing. -/
theorem introduces_own (hrpc : ∀ i env, ev ≠ .rpc i env) (hcallback : ∀ i env, ev ≠ .callback i env) :
    PeerManager.Introduces u none s.peerMgr.iceHeap (s.step ev).1.peerMgr.iceHeap := by
  have hrefl : PeerManager.Introduces u none s.peerMgr.iceHeap s.peerMgr.iceHeap :=
    PeerManager.introduces_refl none _
  cases ev with
  | call rpc gameState => exact hrefl
  | rpc i env => exact absurd rfl (hrpc i env)
  | callback i env => exact absurd rfl (hcallback i env)
  | run r ev =>
    have hadvance := introduces_modifyPeer (u := u) r (f := fun p => p.advance ev)
      (fun p h => h.advance ev) s
    simp only [step, run]
    repeat' split
    · exact hadvance
    · exact hadvance
    · exact hrefl
  | iceFailed r =>
    simp only [step, iceFailed]
    repeat' split
    · exact introduces_restartOnce r s
    · refine introduces_modifyPeer r (fun p h => ?_) s
      exact h.congr rfl rfl fun _ => id
    · exact hrefl
  | delayElapsed r =>
    simp only [step, delayElapsed]
    split
    · refine introduces_modifyPeer r (fun p h => ?_) s
      exact h.congr rfl rfl fun _ => id
    · exact hrefl
  | delayedRestart r =>
    simp only [step, delayedRestart]
    repeat' split
    · exact introduces_restartOnce r s
    · exact hrefl
    · exact hrefl
  | iceConnected r now =>
    simp only [step]
    split <;> exact hrefl
  | gamePacket r addr =>
    simp only [step, gamePacket]
    split
    · refine introduces_modifyPeer r (fun p h => ?_) s
      exact h.congr rfl rfl fun _ => id
    · exact hrefl

/-- A peer made by a callback is for the callback's player. -/
theorem made_by_callback {i : ℕ} {env : Env} {r' : PeerRef} {msg : FafIceMsg}
    (hrestart : s.restarts[i]? = some ⟨r', msg⟩) (hm : Move s (.callback i env) s') (hge : s.nextPeer ≤ r)
    (hlt : r < s'.nextPeer) : s'.pidOf r = s.pidOf r' ∧ s.callbacks i ≠ .done := by
  cases hm with
  | quiet hquiet => exact absurd hlt (Nat.not_lt.mpr (hquiet.next.le.trans hge))
  | enter hrestart' hphase hnext hquiet => exact absurd hlt (Nat.not_lt.mpr (hquiet.next.le.trans hge))
  | snapshot wakeAt hrestart' hphase => exact absurd hlt (Nat.not_lt.mpr hge)
  | giveUp hi hquiet => exact absurd hlt (Nat.not_lt.mpr (hquiet.next.le.trans hge))
  | wake hrestart' hphase hpeer => exact absurd hlt (Nat.not_lt.mpr hge)
  | restart hrestart' hphase hout hnext =>
    rw [hrestart] at hrestart'
    cases hrestart'
    refine ⟨?_, by rw [hphase]; nofun⟩
    exact congrArg (fun c => (s.closures.cell c).pid) (hout.fresh r hge hlt)

theorem heard_step (hl : Linked s) (hr : r < (s.step ev).1.nextPeer)
    (hold : r < s.nextPeer → HeardOnly u (s.peer r))
    (hpush : ∀ i env, ev = .rpc i env → ∀ call ∈ s.calls[i]?, ∀ phase, call.phase = .pushing r phase →
      ∀ msg ∈ call.rpc.message?, msg.ufrag = u)
    (hmake : ∀ i env, ev = .callback i env → ∀ r' msg, s.restarts[i]? = some ⟨r', msg⟩ →
      s.pidOf r' = (s.step ev).1.pidOf r → s.callbacks i ≠ .done → msg.ufrag = "" ∨ msg.ufrag = u) :
    HeardOnly u ((s.step ev).1.peer r) := by
  cases ev with
  | rpc i env => exact heard_rpc hr hold (hpush i env rfl)
  | callback i env =>
    have hm := move_callback hl i env
    simp only [step] at hr hmake ⊢
    cases hrestart : s.restarts[i]? with
    | none =>
      unfold callback at hr ⊢
      rw [hrestart] at hr ⊢
      exact hold hr
    | some x =>
      obtain ⟨r', msg⟩ := x
      refine (introduces_callback hrestart env).heard hr hold fun hge m hmem => ?_
      obtain ⟨hpid, hphase⟩ := made_by_callback hrestart hm hge hr
      rcases hmake i env rfl r' msg hrestart hpid.symm hphase with he | he
      · rw [if_pos he] at hmem
        cases hmem
      · split at hmem
        · cases hmem
        · cases hmem
          exact he
  | _ =>
    refine (introduces_own (by simp) (by simp)).heard hr hold fun _ m hm => ?_
    exact absurd hm (Option.not_mem_none m)

/-! ## What a step does to calls, entries and goroutines -/

/-- Where a step can take a call. -/
inductive Proceeds (s : RPCHandler) (call : Call) : CallPhase → Prop
  | handling {r : PeerRef} (hpeer : s.peerMgr.getICEPeer call.rpc.pid = some r) : Proceeds s call (.handling r)
  | pushing {r : PeerRef} (phase : ICEPeer.PushPhase)
      (hphase : call.phase = .handling r ∨ ∃ phase', call.phase = .pushing r phase') :
      Proceeds s call (.pushing r phase)
  | other {phase : CallPhase} (hhandling : ∀ r, phase ≠ .handling r)
      (hpushing : ∀ r phase', phase ≠ .pushing r phase') : Proceeds s call phase

theorem calls_add (i : ℕ) (call : Call) (login : String) (offerer : Bool) (env : Env) (s : RPCHandler) :
    ∃ phase, Proceeds s call phase ∧
      (s.add i call login offerer env).calls = s.calls.set i { call with phase := phase } := by
  have hdone : Proceeds s call .done := .other (by simp) (by simp)
  unfold add
  split
  · split
    · exact ⟨_, hdone, (created_keeps call s _).2.2.2⟩
    · exact ⟨_, hdone, rfl⟩
  · dsimp only
    split
    · exact ⟨_, .other (by simp) (by simp), (created_keeps call s _).2.2.2⟩
    · exact ⟨_, hdone, rfl⟩

theorem calls_changeRole (i : ℕ) (call : Call) (login : String) (offer : Bool) (env : Env)
    (s : RPCHandler) : ∃ phase, Proceeds s call phase ∧
      (s.changeRole i call login offer env).calls = s.calls.set i { call with phase := phase } := by
  unfold changeRole
  dsimp only
  split
  · exact ⟨_, .other (by simp) (by simp), (created_keeps call s _).2.2.2⟩
  · exact ⟨_, .other (by simp) (by simp), rfl⟩

theorem calls_rpc {i : ℕ} {call : Call} (hcall : s.calls[i]? = some call) (env : Env) :
    (s.rpc i env).calls = s.calls ∨ call.phase ≠ .done ∧ ∃ phase, Proceeds s call phase ∧
      (s.rpc i env).calls = s.calls.set i { call with phase := phase } := by
  have hother : ∀ {phase : CallPhase}, (∀ r, phase ≠ .handling r) → (∀ r phase', phase ≠ .pushing r phase') →
      ∃ phase', Proceeds s call phase' ∧
        s.calls.set i { call with phase := phase } = s.calls.set i { call with phase := phase' } :=
    fun h h' => ⟨_, .other h h', rfl⟩
  unfold rpc
  rw [hcall]
  dsimp only
  split
  · next hphase =>
    refine Or.inr ⟨by simp [hphase], hother ?_ ?_⟩ <;> split <;> simp
  · next hphase _ =>
    split
    · refine Or.inr ⟨by simp [hphase], hother ?_ ?_⟩ <;> split <;> simp
    · exact Or.inr ⟨by simp [hphase], hother (by simp) (by simp)⟩
  · next hphase _ =>
    refine Or.inr ⟨by simp [hphase], hother ?_ ?_⟩ <;> split <;> simp
  · next hphase _ => exact Or.inr ⟨by simp [hphase], calls_add ..⟩
  · next hphase _ => exact Or.inr ⟨by simp [hphase], calls_add ..⟩
  · next hphase _ => exact Or.inr ⟨by simp [hphase], calls_changeRole ..⟩
  · next hphase => exact Or.inr ⟨by simp [hphase], hother (by simp) (by simp)⟩
  · next hphase => exact Or.inr ⟨by simp [hphase], hother (by simp) (by simp)⟩
  · next hphase =>
    split
    · next hpeer => exact Or.inr ⟨by simp [hphase], _, .handling hpeer, rfl⟩
    · exact Or.inr ⟨by simp [hphase], hother (by simp) (by simp)⟩
  · next r parsed hphase _ =>
    refine Or.inr ⟨by simp [hphase], ?_⟩
    unfold handleIceMsg
    repeat' split
    · exact hother (by simp) (by simp)
    · exact hother (by simp) (by simp)
    · exact hother (by simp) (by simp)
    · exact ⟨_, .pushing .select (Or.inl hphase), rfl⟩
  · next hphase _ => exact Or.inr ⟨by simp [hphase], hother (by simp) (by simp)⟩
  · next r phase _ msg hphase _ =>
    refine Or.inr ⟨by simp [hphase], ?_⟩
    unfold push
    dsimp only
    split
    · exact hother (by simp) (by simp)
    · next phase' _ => exact ⟨_, .pushing phase' (Or.inr ⟨phase, hphase⟩), rfl⟩
  · exact Or.inl rfl

theorem calls_move (hm : Move s ev s') (hcall : ∀ rpc gameState, ev ≠ .call rpc gameState)
    (hrpc : ∀ i env, ev ≠ .rpc i env) : s'.calls = s.calls := by
  cases hm with
  | quiet hquiet => exact hquiet.calls
  | call rpc gameState => exact absurd rfl (hcall rpc gameState)
  | enter hrestart hphase hnext hquiet => exact hquiet.calls
  | snapshot wakeAt hrestart hphase => rfl
  | giveUp hi hquiet => exact hquiet.calls
  | wake hrestart hphase hpeer => rfl
  | restart hrestart hphase hout hnext => rfl
  | _ => exact absurd rfl (hrpc _ _)

/-- A call after a step: as it was, new, or one step on. -/
theorem calls_step (hl : Linked s) {call' : Call} (h : call' ∈ (s.step ev).1.calls) : call' ∈ s.calls ∨
    (∃ gameState, ev = .call call'.rpc gameState ∧ call'.phase = firstPhase gameState call'.rpc) ∨
    ∃ call ∈ s.calls, call'.rpc = call.rpc ∧ call.phase ≠ .done ∧ Proceeds s call call'.phase := by
  have hm := move_step hl ev
  cases ev with
  | call rpc gameState =>
    rcases List.mem_append.mp h with h | h
    · exact Or.inl h
    · rw [List.mem_singleton.mp h]
      exact Or.inr (Or.inl ⟨gameState, rfl, rfl⟩)
  | rpc i env =>
    simp only [step] at h
    cases hcall : s.calls[i]? with
    | none =>
      unfold rpc at h
      rw [hcall] at h
      exact Or.inl h
    | some call =>
      rcases calls_rpc hcall env with hsame | ⟨hphase, phase, hproceeds, hset⟩
      · exact Or.inl (hsame ▸ h)
      · rw [hset] at h
        rcases List.mem_or_eq_of_mem_set h with h | rfl
        · exact Or.inl h
        · exact Or.inr (Or.inr ⟨call, List.mem_of_getElem? hcall, rfl, hphase, hproceeds⟩)
  | _ =>
    rw [calls_move hm (by simp) (by simp)] at h
    exact Or.inl h

theorem Operates.lookup {pid pid' : ℤ} {pm : PeerManager} {closures : Heap RestartClosure}
    (ho : Operates s pid pm closures) (h : pm.icePeers.lookup pid' = some r) :
    s.peerMgr.icePeers.lookup pid' = some r ∨ s.nextPeer ≤ r := by
  by_cases hp : pid' = pid
  · subst hp
    exact (ho.entry r h).imp_right And.left
  · exact Or.inl ((ho.only.icePeers pid' hp).symm.trans h)

/-- The peer in the table is the one that was there, or a new one. -/
theorem entry_move (hl : Linked s) (hm : Move s ev s') {pid : ℤ}
    (h : s'.peerMgr.icePeers.lookup pid = some r) :
    s.peerMgr.icePeers.lookup pid = some r ∨ s.nextPeer ≤ r := by
  cases hm with
  | quiet hquiet => exact Or.inl (hquiet.icePeers ▸ h)
  | call rpc gameState => exact Or.inl h
  | walk hcall hwalk hquiet => exact Or.inl (hquiet.icePeers ▸ h)
  | spawn msg hcall hphase => exact Or.inl h
  | addPeer login setup hcall hphase =>
    rw [(created_keeps _ s _).1] at h
    exact (operates_addPeer login setup).lookup h
  | install hcall hphase hclosure hout =>
    rw [(created_keeps _ s _).1] at h
    exact (operates_install hclosure hout).lookup h
  | installFailed hcall hclosure hout => exact (operates_install hclosure hout).lookup h
  | @remove i env call hcall hphase => exact (operates_removePeer hl env.drain).lookup h
  | enter hrestart hphase hnext hquiet => exact Or.inl (hquiet.icePeers ▸ h)
  | snapshot wakeAt hrestart hphase => exact Or.inl h
  | giveUp hi hquiet => exact Or.inl (hquiet.icePeers ▸ h)
  | wake hrestart hphase hpeer => exact Or.inl h
  | restart hrestart hphase hout hnext =>
    exact (operates_restart hl (hl.restart_lt hrestart) hout).lookup h

/-- The step compares a message with the ufrag in use, and finds another one. -/
structure Restarts (s : RPCHandler) (ev : AdapterEvent) (call : Call) (r : PeerRef) (msg : FafIceMsg) :
    Prop where
  event : ∃ i env, ev = .rpc i env ∧ s.calls[i]? = some call
  phase : call.phase = .handling r
  message : call.rpc.message? = some msg
  isRestart : (s.peer r).isRestart msg = true

/-- Only a call that holds a peer starts other restarts than those of peers that fail. -/
theorem restarts_move (hl : Linked s) (hm : Move s ev s')
    (hheld : ∀ i env call r, ev = .rpc i env → s.calls[i]? = some call → call.phase ≠ .handling r) :
    ∃ new, s'.restarts = s.restarts ++ new ∧ ∀ x ∈ new, x.msg = {} := by
  have hquiets : ∀ {s₀ : RPCHandler}, Quiet s s₀ →
      ∃ new, s₀.restarts = s.restarts ++ new ∧ ∀ x ∈ new, x.msg = {} := fun hquiet =>
    hquiet.restarts.imp fun _ h => ⟨h.1, fun x hx => (h.2 x hx).2⟩
  have hoperates : ∀ {pid : ℤ} {pm : PeerManager} {closures : Heap RestartClosure},
      Operates s pid pm closures → ∃ new, pm.restarts = s.restarts ++ new ∧ ∀ x ∈ new, x.msg = {} := fun ho =>
    ho.only.restarts.imp fun _ h => ⟨h.1, fun x hx => (h.2 x hx).2⟩
  cases hm with
  | quiet hquiet => exact (hquiets hquiet :)
  | call rpc gameState => exact (hquiets (Quiet.refl s) :)
  | walk hcall hwalk hquiet => exact (hquiets hquiet :)
  | spawn msg hcall hphase => exact absurd hphase (hheld _ _ _ _ rfl hcall)
  | addPeer login setup hcall hphase =>
    unfold RPCHandler.restarts
    rw [(created_keeps _ s _).1]
    exact hoperates (operates_addPeer login setup)
  | install hcall hphase hclosure hout =>
    unfold RPCHandler.restarts
    rw [(created_keeps _ s _).1]
    exact hoperates (operates_install hclosure hout)
  | installFailed hcall hclosure hout => exact hoperates (operates_install hclosure hout)
  | @remove i env call hcall hphase => exact hoperates (operates_removePeer hl env.drain)
  | enter hrestart hphase hnext hquiet => exact (hquiets hquiet :)
  | snapshot wakeAt hrestart hphase => exact (hquiets (Quiet.refl s) :)
  | giveUp hi hquiet => exact (hquiets hquiet :)
  | wake hrestart hphase hpeer => exact (hquiets (Quiet.refl s) :)
  | restart hrestart hphase hout hnext =>
    exact hoperates (operates_restart hl (hl.restart_lt hrestart) hout)

/-- Every other goroutine a step starts is a self-initiated or a manual restart. -/
theorem restarts_step (hl : Linked s) (ev : AdapterEvent) :
    (∃ new, (s.step ev).1.restarts = s.restarts ++ new ∧ ∀ x ∈ new, x.msg.ufrag = "") ∨
      ∃ call r msg, Restarts s ev call r msg ∧ (s.step ev).1.restarts = s.restarts ++ [⟨r, msg⟩] := by
  by_cases hheld : ∃ i env call r, ev = .rpc i env ∧ s.calls[i]? = some call ∧ call.phase = .handling r
  · obtain ⟨i, env, call, r, rfl, hcall, hphase⟩ := hheld
    have hnone : ∃ new, s.restarts = s.restarts ++ new ∧ ∀ x ∈ new, x.msg.ufrag = "" :=
      ⟨[], (List.append_nil _).symm, nofun⟩
    simp only [step, rpc, hcall, hphase]
    cases hrpc : call.rpc with
    | iceMsg pid parsed =>
      simp only [handleIceMsg]
      split
      · exact Or.inl hnone
      · next msg =>
        split
        · exact Or.inl hnone
        · split
          · next hrestart =>
            exact Or.inr ⟨call, r, msg, ⟨⟨i, env, rfl, hcall⟩, hphase, by rw [hrpc]; rfl, hrestart⟩, rfl⟩
          · exact Or.inl hnone
    | reconnect pid => exact Or.inl ⟨[⟨r, { manual := true }⟩], rfl, by simp⟩
    | _ => exact Or.inl hnone
  · obtain ⟨new, hnew, hself⟩ := restarts_move hl (move_step hl ev)
      fun i env call r he hcall hphase => hheld ⟨i, env, call, r, he, hcall, hphase⟩
    exact Or.inl ⟨new, hnew, fun x hx => by rw [hself x hx]⟩

end RPCHandler
end Adapter
end SturmRelay
