import SturmRelay.Adapter.Linking
import SturmRelay.Foundations.Runs

/-! # Which peer a self-initiated restart replaces

A callback started because a peer failed compares the peer it finds before its backoff with the one it
finds after. Both are looked up in the table, not taken from the failure: when the failed peer has been
replaced before the first lookup, the callback waits for its successor and then replaces that one. The
lookup and `ReplaceICEPeer` are two steps as well. Under the two conditions below the peer replaced is
the one that failed. -/

namespace SturmRelay
namespace Adapter
set_option autoImplicit false

def CallbackPhase.isSnapshot : CallbackPhase → Bool
  | .snapshot .. => true
  | _ => false

def CallbackPhase.isReplacing : CallbackPhase → Bool
  | .replacing .. => true
  | _ => false

/-- The next step of callback `i`. -/
def AdapterEvent.isCallback (i : ℕ) : AdapterEvent → Bool
  | .callback j _ => decide (j = i)
  | _ => false

namespace RPCHandler
variable {s s' : RPCHandler} {ev : AdapterEvent}

/-- The callbacks started because a peer failed, each with that peer. -/
def selfRestarts (s : RPCHandler) : List (ℕ × PeerRef) :=
  (s.restarts.zipIdx.filter fun x => x.1.msg.isSelfRestart).map fun x => (x.2, x.1.peer)

/-- A self-initiated restart that replaces a peer replaces the one that failed. -/
def ReplacesFailedPeer (s : RPCHandler) (ev : AdapterEvent) : Prop :=
  ∀ x ∈ s.selfRestarts, ev.isCallback x.1 = true → (s.callbacks x.1).isReplacing = true →
    s.peerMgr.getICEPeer (s.pidOf x.2) = some x.2

/-- A self-initiated restart takes its `peerBefore` while the failed peer is in the table, or none is. -/
def SnapshotsFailedPeer (s : RPCHandler) (ev : AdapterEvent) : Prop :=
  ∀ x ∈ s.selfRestarts, ev.isCallback x.1 = true → (s.callbacks x.1).isSnapshot = true →
    s.peerMgr.getICEPeer (s.pidOf x.2) = none ∨ s.peerMgr.getICEPeer (s.pidOf x.2) = some x.2

/-- While a self-initiated restart is between its check and `ReplaceICEPeer`, nobody else changes the
entry of its player. -/
def LeavesChecked (s : RPCHandler) (ev : AdapterEvent) : Prop :=
  ∀ x ∈ s.selfRestarts, (s.callbacks x.1).isReplacing = true → ev.isCallback x.1 = false →
    (s.step ev).1.peerMgr.getICEPeer (s.pidOf x.2) = s.peerMgr.getICEPeer (s.pidOf x.2)

instance (s : RPCHandler) (ev : AdapterEvent) : Decidable (ReplacesFailedPeer s ev) :=
  inferInstanceAs (Decidable (∀ x ∈ _, _ → _ → _ = _))

instance (s : RPCHandler) (ev : AdapterEvent) : Decidable (SnapshotsFailedPeer s ev) :=
  inferInstanceAs (Decidable (∀ x ∈ _, _ → _ → _ ∨ _))

instance (s : RPCHandler) (ev : AdapterEvent) : Decidable (LeavesChecked s ev) :=
  inferInstanceAs (Decidable (∀ x ∈ _, _ → _ → _ = _))

/-! ## Callbacks and moves -/

theorem mem_selfRestarts {j : ℕ} {r : PeerRef} :
    (j, r) ∈ s.selfRestarts ↔ ∃ msg, s.restarts[j]? = some ⟨r, msg⟩ ∧ msg.isSelfRestart = true := by
  unfold selfRestarts
  simp only [List.mem_map, List.mem_filter, List.mem_zipIdx_iff_getElem?, Prod.mk.injEq, Prod.exists]
  constructor
  · rintro ⟨⟨r', msg⟩, j', ⟨hget, hself⟩, rfl, rfl⟩
    exact ⟨msg, hget, hself⟩
  · rintro ⟨msg, hget, hself⟩
    exact ⟨⟨r, msg⟩, j, ⟨hget, hself⟩, rfl, rfl⟩

/-- A callback of the new state is one of the old state, or has not been run at all. -/
theorem selfRestart_of_keeps (h : Linked s) (hk : Keeps s s') {j : ℕ} {r : PeerRef}
    (hmem : (j, r) ∈ s'.selfRestarts) :
    (j, r) ∈ s.selfRestarts ∨ s.restarts.length ≤ j ∧ s.callbacks j = .entering := by
  obtain ⟨msg, hget, hself⟩ := mem_selfRestarts.mp hmem
  obtain ⟨new, hnew⟩ := hk.restarts
  rcases Nat.lt_or_ge j s.restarts.length with hlt | hge
  · rw [hnew, List.getElem?_append_left hlt] at hget
    exact Or.inl (mem_selfRestarts.mpr ⟨msg, hget, hself⟩)
  · exact Or.inr ⟨hge, h.callbacks j hge⟩

/-- Only its own steps move a callback, once it has been started. -/
theorem callbacks_move (hm : Move s ev s') {j : ℕ}
    (hev : ev.isCallback j = false ∨ s.restarts.length ≤ j) : s'.callbacks j = s.callbacks j := by
  have hne : ∀ {i : ℕ} {env : Env}, i < s.restarts.length →
      (AdapterEvent.callback i env).isCallback j = false ∨ s.restarts.length ≤ j → j ≠ i := by
    rintro i env hi (he | he) rfl
    · simp [AdapterEvent.isCallback] at he
    · exact absurd hi (Nat.not_lt.mpr he)
  cases hm with
  | quiet hquiet => rw [hquiet.callbacks]
  | call rpc gameState => rfl
  | walk hcall hwalk hquiet => exact congrFun hquiet.callbacks j
  | spawn msg hcall hphase => rfl
  | addPeer login setup hcall hphase => exact congrFun (created_keeps _ s _).2.2.1 j
  | install hcall hphase hclosure hout => exact congrFun (created_keeps _ s _).2.2.1 j
  | installFailed hcall hclosure hout => rfl
  | remove hcall hphase => rfl
  | enter hrestart hphase hnext hquiet =>
    have hi := (List.getElem?_eq_some_iff.mp hrestart).1
    exact (Function.update_of_ne (hne hi hev) _ _).trans (congrFun hquiet.callbacks j)
  | snapshot wakeAt hrestart hphase =>
    exact Function.update_of_ne (hne (List.getElem?_eq_some_iff.mp hrestart).1 hev) _ _
  | giveUp hi hquiet =>
    exact (Function.update_of_ne (hne hi hev) _ _).trans (congrFun hquiet.callbacks j)
  | wake hrestart hphase hpeer =>
    exact Function.update_of_ne (hne (List.getElem?_eq_some_iff.mp hrestart).1 hev) _ _
  | restart hrestart hphase hout hnext =>
    exact Function.update_of_ne (hne (List.getElem?_eq_some_iff.mp hrestart).1 hev) _ _

/-! ## The peer a callback is after -/

/-- What a self-initiated restart of peer `r` knows in each phase. -/
def OnTarget (s : RPCHandler) (r : PeerRef) : CallbackPhase → Prop
  | .sleeping peerBefore _ _ => peerBefore = none ∨ peerBefore = some r
  | .replacing _ => s.peerMgr.getICEPeer (s.pidOf r) = some r
  | _ => True

structure Targets (s : RPCHandler) : Prop where
  linked : Linked s
  onTarget : ∀ j r, (j, r) ∈ s.selfRestarts → OnTarget s r (s.callbacks j)

theorem OnTarget.congr {r : PeerRef} {phase : CallbackPhase} (h : OnTarget s r phase)
    (hpeer : s'.peerMgr.getICEPeer (s'.pidOf r) = s.peerMgr.getICEPeer (s.pidOf r)) :
    OnTarget s' r phase := by
  cases phase with
  | replacing sinceConnected => exact hpeer.trans h
  | _ => exact h

/-- The callback's own steps keep it on target. -/
theorem onTarget_own (h : Targets s) {j : ℕ} {r : PeerRef} {env : Env} (hmem : (j, r) ∈ s.selfRestarts)
    (hsnap : SnapshotsFailedPeer s (.callback j env)) (hm : Move s (.callback j env) s') :
    OnTarget s' r (s'.callbacks j) := by
  obtain ⟨msg, hget, hself⟩ := mem_selfRestarts.mp hmem
  have htarget := h.onTarget j r hmem
  -- the peer and the message of the move are those of the callback
  have hsame : ∀ {r' : PeerRef} {msg' : FafIceMsg}, s.restarts[j]? = some ⟨r', msg'⟩ →
      r' = r ∧ msg' = msg := by
    intro r' msg' hget'
    rw [hget] at hget'
    cases hget'
    exact ⟨rfl, rfl⟩
  cases hm with
  | quiet hquiet =>
    rw [hquiet.callbacks]
    refine htarget.congr ?_
    unfold PeerManager.getICEPeer
    rw [hquiet.icePeers, hquiet.pidOf]
  | enter hrestart hphase hnext hquiet =>
    obtain ⟨rfl, rfl⟩ := hsame hrestart
    simp only [setCallback, Function.update_self]
    cases hnext with
    | done => trivial
    | snapshot hself' attempt sinceConnected => trivial
    | replacing hother sinceConnected =>
      rw [hself] at hother
      cases hother
  | snapshot wakeAt hrestart hphase =>
    obtain ⟨rfl, rfl⟩ := hsame hrestart
    simp only [setCallback, Function.update_self]
    exact hsnap (j, _) hmem (by simp [AdapterEvent.isCallback]) (by rw [hphase]; rfl)
  | giveUp hi hquiet =>
    simp only [setCallback, Function.update_self]
    trivial
  | @wake _ _ _ r' _ wakeAt sinceConnected hrestart hphase hpeer =>
    obtain ⟨rfl, rfl⟩ := hsame hrestart
    simp only [setCallback, Function.update_self]
    rw [hphase] at htarget
    -- the peer found is the one remembered, and that is the one that failed
    have hr : some r' = some _ := htarget.resolve_left (Option.some_ne_none _)
    rw [hr] at hpeer
    exact hpeer
  | restart hrestart hphase hout hnext =>
    simp only [setCallback, Function.update_self]
    rcases hnext with rfl | ⟨r', rfl⟩ <;> trivial

theorem Targets.step (h : Targets s) (hsnap : SnapshotsFailedPeer s ev) (hleave : LeavesChecked s ev) :
    Targets (s.step ev).1 := by
  have hm := move_step h.linked ev
  have hk := keeps_move h.linked hm
  refine ⟨h.linked.move hm, fun j r hmem => ?_⟩
  rcases selfRestart_of_keeps h.linked hk hmem with hold | ⟨hge, hentering⟩
  · cases hev : ev.isCallback j with
    | true =>
      cases ev with
      | callback i env =>
        simp only [AdapterEvent.isCallback, decide_eq_true_eq] at hev
        subst hev
        exact onTarget_own h hold hsnap hm
      | _ => cases hev
    | false =>
      rw [callbacks_move hm (Or.inl hev)]
      have htarget := h.onTarget j r hold
      obtain ⟨msg, hget, -⟩ := mem_selfRestarts.mp hold
      cases hphase : s.callbacks j with
      | replacing sinceConnected =>
        rw [hphase] at htarget
        refine htarget.congr ?_
        rw [hk.pidOf r (h.linked.restart_lt hget)]
        exact hleave (j, r) hold (by rw [hphase]; rfl) hev
      | sleeping peerBefore wakeAt sinceConnected =>
        rw [hphase] at htarget
        exact htarget
      | _ => trivial
  · rw [callbacks_move hm (Or.inr hge), hentering]
    trivial

theorem Targets.replaces (h : Targets s) (ev : AdapterEvent) : ReplacesFailedPeer s ev := by
  intro x hx _ hreplacing
  have htarget := h.onTarget x.1 x.2 hx
  cases hphase : s.callbacks x.1 with
  | replacing sinceConnected =>
    rw [hphase] at htarget
    exact htarget
  | _ =>
    rw [hphase] at hreplacing
    cases hreplacing

theorem targets_init : Targets {} := ⟨linked_init, nofun⟩

theorem selfRestart_replaces_failedPeer (events : List AdapterEvent)
    (h : AllSteps step (fun s ev _ => SnapshotsFailedPeer s ev ∧ LeavesChecked s ev) {} events) :
    AllSteps step (fun s ev _ => ReplacesFailedPeer s ev) {} events :=
  allSteps_of_invariant (I := Targets) (fun _ _ hs hc => hs.step hc.1 hc.2)
    (fun _ ev hs _ => hs.replaces ev) targets_init h

/-- `connectToPeer` for player 2, as the offerer. -/
def connectEvents : List AdapterEvent :=
  [.call (.connectToPeer "peer" 2 true) .lobby, .rpc 0 {}, .rpc 0 {}, .rpc 0 {}, .rpc 0 {}]

/-- The peer fails, waits for its backoff, and is replaced. -/
def failureEvents : List AdapterEvent :=
  connectEvents ++ [.iceFailed 0, .callback 0 {}, .callback 0 {},
    .callback 0 { now := 20 * second }, .callback 0 {}]

theorem failedPeer_replaced :
    AllSteps step (fun s ev _ => SnapshotsFailedPeer s ev ∧ LeavesChecked s ev) {} failureEvents ∧
      AllSteps step (fun s ev _ => ReplacesFailedPeer s ev) {} failureEvents ∧
      (runState step {} failureEvents).peerMgr.getICEPeer 2 = some 1 :=
  ⟨by decide +kernel, selfRestart_replaces_failedPeer failureEvents (by decide +kernel),
    by decide +kernel⟩

/-- While the peer is in `Dial`, the remote side sends new credentials. The remote-triggered restart
replaces the peer; that cancels its `Dial`, and the error starts a self-initiated restart, which waits
and then replaces the new peer. -/
def cancelledDialEvents : List AdapterEvent :=
  connectEvents ++
    [.call (.iceMsg 2 (some ⟨"first", "pw", false⟩)) .lobby, .rpc 1 {}, .rpc 1 {}, .rpc 1 {},
      .run 0 .gathered, .run 0 .take, .run 0 .record,
      .call (.iceMsg 2 (some ⟨"second", "pw", false⟩)) .lobby, .rpc 2 {}, .rpc 2 {},
      .callback 0 {}, .callback 0 {}, .callback 0 {},
      .callback 1 {}, .callback 1 {}, .callback 1 { now := 20 * second }, .callback 1 {}]

theorem successor_replaced :
    ¬ AllSteps step (fun s ev _ => ReplacesFailedPeer s ev) {} cancelledDialEvents := by
  decide +kernel

end RPCHandler
end Adapter
end SturmRelay
