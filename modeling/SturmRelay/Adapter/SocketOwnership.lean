import SturmRelay.Foundations.Custody
import SturmRelay.Foundations.Runs
import SturmRelay.Adapter.PeerTables

/-! # Who owns a game socket

The peers in the tables are the holders, the game sockets the resources. Every operation of the peer
manager is a `Custody.Step` for each peer it touches, with one exception: removing an ICE peer whose
`ownsConn` is false. Such a peer was made by `ReplaceICEPeer` around the socket of its predecessor;
when it goes without a successor nobody closes the socket. -/

namespace SturmRelay
namespace Adapter
set_option autoImplicit false

/-- A place in one of the two tables. -/
inductive Holder
  | relay (pid : ℤ)
  | ice (pid : ℤ)
  deriving DecidableEq, Repr

namespace PeerManager
variable {pm pm' : PeerManager}

/-- The socket of the peer at a place. -/
def socketOf (pm : PeerManager) : Holder → Option SocketID
  | .relay pid => (pm.peers.lookup pid).map Peer.conn
  | .ice pid => (pm.icePeers.lookup pid).map fun r => (pm.iceHeap.cell r).conn

def closesOf (sockets : Heap ℕ) (k : SocketID) : Option ℕ :=
  if k < sockets.next then some (sockets.cell k) else none

def custody (pm : PeerManager) : Custody Holder SocketID := ⟨pm.socketOf, closesOf pm.sockets⟩

/-! ## Sockets -/

theorem closesOf_next (sockets : Heap ℕ) : closesOf sockets sockets.next = none := by
  simp [closesOf]

theorem closesOf_alloc (sockets : Heap ℕ) :
    closesOf (sockets.alloc 0) = Function.update (closesOf sockets) sockets.next (some 0) := by
  funext k
  unfold closesOf
  by_cases hk : k = sockets.next
  · subst hk
    simp [Heap.alloc]
  · have hiff : k < sockets.next + 1 ↔ k < sockets.next :=
      ⟨fun h => lt_of_le_of_ne (Nat.lt_succ_iff.mp h) hk, Nat.lt_succ_of_lt⟩
    simp [Heap.alloc, hk, hiff]

theorem closesOf_modify {sockets : Heap ℕ} {k : SocketID} {n : ℕ} (h : closesOf sockets k = some n) :
    closesOf (sockets.modify k (· + 1)) =
      Function.update (closesOf sockets) k ((closesOf sockets k).map (· + 1)) := by
  have hlt : k < sockets.next := by
    by_contra hge
    simp [closesOf, hge] at h
  funext k'
  unfold closesOf
  by_cases hk : k' = k
  · subst hk
    simp [Heap.modify, hlt]
  · simp [Heap.modify, hk]

/-- A socket that is bound and closed again. -/
theorem closesOf_discard (sockets : Heap ℕ) :
    closesOf ((sockets.alloc 0).modify sockets.next (· + 1)) =
      Function.update (closesOf sockets) sockets.next (some 1) := by
  have hnew : closesOf (sockets.alloc 0) sockets.next = some 0 := by
    rw [closesOf_alloc, Function.update_self]
  rw [closesOf_modify hnew, hnew, closesOf_alloc, Function.update_idem]
  rfl

/-! ## Places -/

theorem socketOf_insert_peer {pid : ℤ} (peer : Peer) (hpeers : pm'.peers = pm.peers.insert pid peer)
    (hice : pm'.icePeers = pm.icePeers) (hheap : pm'.iceHeap = pm.iceHeap) :
    pm'.socketOf = Function.update pm.socketOf (.relay pid) (some peer.conn) := by
  funext h
  cases h with
  | relay pid' =>
    by_cases hp : pid' = pid
    · subst hp
      simp [socketOf, hpeers]
    · simp [socketOf, hpeers, hp, AList.lookup_insert_ne hp]
  | ice pid' => simp [socketOf, hice, hheap]

theorem socketOf_erase_peer {pid : ℤ} (hpeers : pm'.peers = pm.peers.erase pid)
    (hice : pm'.icePeers = pm.icePeers) (hheap : pm'.iceHeap = pm.iceHeap) :
    pm'.socketOf = Function.update pm.socketOf (.relay pid) none := by
  funext h
  cases h with
  | relay pid' =>
    by_cases hp : pid' = pid
    · subst hp
      simp [socketOf, hpeers]
    · simp [socketOf, hpeers, hp, AList.lookup_erase_ne hp]
  | ice pid' => simp [socketOf, hice, hheap]

theorem socketOf_erase_ice {pid : ℤ} (hpeers : pm'.peers = pm.peers)
    (hice : pm'.icePeers = pm.icePeers.erase pid)
    (hheap : ∀ r, (pm'.iceHeap.cell r).conn = (pm.iceHeap.cell r).conn) :
    pm'.socketOf = Function.update pm.socketOf (.ice pid) none := by
  funext h
  cases h with
  | relay pid' => simp [socketOf, hpeers]
  | ice pid' =>
    by_cases hp : pid' = pid
    · subst hp
      simp [socketOf, hice]
    · simp [socketOf, hice, hheap, hp, AList.lookup_erase_ne hp]

theorem socketOf_store (halloc : Allocated pm) (n : ℕ) (pid : ℤ) (p : ICEPeer) :
    ({ pm with nextOrder := n }.storeICEPeer pid p).socketOf =
      Function.update pm.socketOf (.ice pid) (some p.conn) := by
  funext h
  cases h with
  | relay pid' => simp [socketOf, storeICEPeer]
  | ice pid' =>
    by_cases hp : pid' = pid
    · subst hp
      simp [socketOf, storeICEPeer]
    · simp only [socketOf, storeICEPeer, AList.lookup_insert_ne hp, ne_eq, Holder.ice.injEq, hp,
        not_false_eq_true, Function.update_of_ne]
      refine Option.map_congr fun r hr => ?_
      rw [Heap.alloc_cell_of_lt _ _ (halloc pid' r hr)]

/-! ## Operations -/

theorem step_addPeer (pid : ℤ) (login : String) (setup : Setup) (pm : PeerManager) :
    pm.custody.Step (pm.addPeer pid login setup).1.custody := by
  unfold addPeer
  cases hlookup : pm.peers.lookup pid with
  | some existing => exact .same rfl rfl
  | none =>
    dsimp only
    split
    · refine .acquire (.relay pid) pm.sockets.next ?_ (closesOf_next _) ?_ (closesOf_alloc _)
      · simp [custody, socketOf, hlookup]
      · exact socketOf_insert_peer ⟨pid, login, pm.sockets.next, pm.nextOrder + 1⟩ rfl rfl rfl
    · exact .same rfl rfl

theorem step_dropPeer (hs : pm.custody.Sound) (pid : ℤ) :
    pm.custody.Step (pm.dropPeer pid).custody := by
  unfold dropPeer
  cases hlookup : pm.peers.lookup pid with
  | none => exact .same rfl rfl
  | some peer =>
    have hholds : pm.custody.held (.relay pid) = some peer.conn := by simp [custody, socketOf, hlookup]
    refine .release (.relay pid) peer.conn hholds ?_ ?_
    · exact socketOf_erase_peer rfl rfl rfl
    · exact closesOf_modify (hs.isOpen _ _ hholds)

/-- A new ICE peer for a place that has none, on a socket of its own. -/
theorem step_newICEPeer (halloc : Allocated pm) {pid : ℤ} (hfree : pm.icePeers.lookup pid = none)
    {login : String} {offerer : Bool} {onRestart : RestartID} {setup : Setup} {p : ICEPeer}
    (hnew : pm.newICEPeer pid login offerer onRestart setup none = (pm', .ok p)) {p' : ICEPeer}
    (hconn : p'.conn = p.conn) {n : ℕ} :
    pm.custody.Step ({ pm' with nextOrder := n }.storeICEPeer pid p').custody := by
  unfold newICEPeer at hnew
  dsimp only at hnew
  split at hnew
  · cases hnew
  split at hnew
  · cases hnew
  split at hnew
  · cases hnew
  · cases hnew
    refine .acquire (.ice pid) pm.sockets.next ?_ (closesOf_next _) ?_ (closesOf_alloc _)
    · simp [custody, socketOf, hfree]
    · have hstore := socketOf_store (show Allocated pm.openSocket from halloc) n pid p'
      rw [hconn] at hstore
      exact hstore

theorem step_newICEPeer_error {pid : ℤ} {login : String} {offerer : Bool} {onRestart : RestartID}
    {setup : Setup} {e : PeerError}
    (hnew : pm.newICEPeer pid login offerer onRestart setup none = (pm', .error e)) :
    pm.custody.Step pm'.custody := by
  have hdiscard : pm.custody.Step (pm.openSocket.closeSocket pm.sockets.next).custody :=
    .discard pm.sockets.next (closesOf_next _) rfl (closesOf_discard _)
  unfold newICEPeer at hnew
  dsimp only at hnew
  split at hnew
  · cases hnew
    exact .same rfl rfl
  split at hnew
  · cases hnew
    exact hdiscard
  split at hnew
  · cases hnew
    exact hdiscard
  · cases hnew

theorem step_addICEPeer (halloc : Allocated pm) (pid : ℤ) (login : String) (offerer : Bool)
    (onRestart : RestartID) (setup : Setup) :
    pm.custody.Step (pm.addICEPeer pid login offerer onRestart setup).1.custody := by
  unfold addICEPeer
  cases hlookup : pm.icePeers.lookup pid with
  | some existing => exact .same rfl rfl
  | none =>
    dsimp only
    split
    · next hnew => exact step_newICEPeer_error hnew
    · next hnew => exact step_newICEPeer halloc hlookup hnew (by rfl)

/-! ### Replacing a peer -/

theorem conn_detach (drain : Bool) (pid : ℤ) (r r' : PeerRef) (pm : PeerManager) :
    ((pm.detach drain pid r).iceHeap.cell r').conn = (pm.iceHeap.cell r').conn := by
  unfold detach closeICEPeer
  by_cases hr : r' = r
  · subst hr
    simp
  · simp [Heap.modify_cell_ne _ _ hr]

/-- Detaching takes the peer out of its place and leaves every socket as it is. -/
theorem detach_custody (drain : Bool) (pid : ℤ) (r : PeerRef) (pm : PeerManager) :
    (pm.detach drain pid r).socketOf = Function.update pm.socketOf (.ice pid) none ∧
      (pm.detach drain pid r).sockets = pm.sockets := by
  refine ⟨socketOf_erase_ice rfl rfl fun r' => conn_detach drain pid r r' pm, ?_⟩
  simp [detach, closeICEPeer]

/-- With the socket of the old peer at hand: it is closed if the new peer cannot be made, and goes to
the new peer's place otherwise. -/
theorem succeed_custody (halloc : Allocated pm) (pid : ℤ) (login : String) (offerer : Bool)
    (onRestart : RestartID) (setup : Setup) (initialMsg : Option FafIceMsg) (old : ICEPeer) :
    let pm' := (pm.succeed pid login offerer onRestart setup initialMsg (some old)).1
    (pm'.socketOf = pm.socketOf ∧ pm'.sockets = pm.sockets.modify old.conn (· + 1)) ∨
      (pm'.socketOf = Function.update pm.socketOf (.ice pid) (some old.conn) ∧
        pm'.sockets = pm.sockets) := by
  cases hagent : setup.agent with
  | false =>
    have hclosed : (pm.succeed pid login offerer onRestart setup initialMsg (some old)).1 =
        pm.closeSocket old.conn := by
      simp [succeed, newICEPeer, hagent]
    rw [hclosed]
    exact Or.inl ⟨rfl, rfl⟩
  | true =>
    cases hgather : setup.gather with
    | false =>
      have hclosed : (pm.succeed pid login offerer onRestart setup initialMsg (some old)).1 =
          pm.closeSocket old.conn := by
        simp [succeed, newICEPeer, hagent, hgather]
      rw [hclosed]
      exact Or.inl ⟨rfl, rfl⟩
    | true =>
      refine Or.inr ⟨?_, ?_⟩
      · simp only [succeed, newICEPeer, hagent, hgather, Option.map_some]
        exact socketOf_store halloc _ pid _
      · simp only [succeed, newICEPeer, hagent, hgather, Option.map_some]
        rfl

theorem step_replaceICEPeer (hs : pm.custody.Sound) (halloc : Allocated pm) (pid : ℤ) (login : String)
    (offerer : Bool) (onRestart : RestartID) (setup : Setup) (drain : PeerRef → Bool)
    (initialMsg : Option FafIceMsg) :
    pm.custody.Step
      (pm.replaceICEPeer pid login offerer onRestart setup drain initialMsg).1.custody := by
  unfold replaceICEPeer
  cases hlookup : pm.icePeers.lookup pid with
  | none =>
    dsimp only [succeed, Option.map_none]
    split
    · next hnew => exact step_newICEPeer_error hnew
    · next hnew => exact step_newICEPeer halloc hlookup hnew (by rfl)
  | some r =>
    have hholds : pm.custody.held (.ice pid) = some (pm.iceHeap.cell r).conn := by
      simp [custody, socketOf, hlookup]
    obtain ⟨hplaces, hsockets⟩ := detach_custody (drain r) pid r pm
    have hsucceed := succeed_custody (allocated_detach halloc (drain r) pid r) pid login offerer onRestart
      setup initialMsg (pm.iceHeap.cell r)
    rw [hplaces, hsockets] at hsucceed
    rcases hsucceed with ⟨hplaces', hsockets'⟩ | ⟨hplaces', hsockets'⟩
    · refine .release (.ice pid) _ hholds hplaces' ?_
      exact (congrArg closesOf hsockets').trans (closesOf_modify (hs.isOpen _ _ hholds))
    · refine .same ?_ (congrArg closesOf hsockets')
      rw [Function.update_idem] at hplaces'
      exact hplaces'.trans (Function.update_eq_self_iff.mpr hholds.symm)

/-! ### Removing a peer -/

/-- The ICE peer of a player, if there is one, would close its socket. -/
def OwnsConn (pm : PeerManager) (pid : ℤ) : Prop :=
  ∀ r, pm.icePeers.lookup pid = some r → (pm.iceHeap.cell r).ownsConn = true

theorem socketOf_dropICEPeer (drain : PeerRef → Bool) {pid : ℤ} {r : PeerRef}
    (hlookup : pm.icePeers.lookup pid = some r) :
    (pm.dropICEPeer drain pid).socketOf = Function.update pm.socketOf (.ice pid) none := by
  simp only [dropICEPeer, hlookup]
  refine socketOf_erase_ice rfl rfl fun r' => ?_
  by_cases hr : r' = r
  · subst hr
    simp [closeICEPeer]
  · simp [closeICEPeer, Heap.modify_cell_ne _ _ hr]

theorem step_dropICEPeer (hs : pm.custody.Sound) (drain : PeerRef → Bool) {pid : ℤ}
    (howns : OwnsConn pm pid) : pm.custody.Step (pm.dropICEPeer drain pid).custody := by
  cases hlookup : pm.icePeers.lookup pid with
  | none =>
    simp only [dropICEPeer, hlookup]
    exact .same rfl rfl
  | some r =>
    have hholds : pm.custody.held (.ice pid) = some (pm.iceHeap.cell r).conn := by
      simp [custody, socketOf, hlookup]
    refine .release (.ice pid) _ hholds (socketOf_dropICEPeer drain hlookup) ?_
    have hsockets : (pm.dropICEPeer drain pid).sockets =
        pm.sockets.modify (pm.iceHeap.cell r).conn (· + 1) := by
      simp [dropICEPeer, hlookup, closeICEPeer, howns r hlookup]
    exact (congrArg closesOf hsockets).trans (closesOf_modify (hs.isOpen _ _ hholds))

theorem abandon_dropICEPeer (drain : PeerRef → Bool) {pid : ℤ} {r : PeerRef}
    (hlookup : pm.icePeers.lookup pid = some r) (howns : (pm.iceHeap.cell r).ownsConn = false) :
    pm.custody.Abandon (pm.dropICEPeer drain pid).custody (.ice pid) (pm.iceHeap.cell r).conn where
  holds := by simp [custody, socketOf, hlookup]
  held := socketOf_dropICEPeer drain hlookup
  closes := by
    refine congrArg closesOf ?_
    simp [dropICEPeer, hlookup, closeICEPeer, howns]

theorem ownsConn_or (pm : PeerManager) (pid : ℤ) :
    OwnsConn pm pid ∨
      ∃ r, pm.icePeers.lookup pid = some r ∧ (pm.iceHeap.cell r).ownsConn = false := by
  unfold OwnsConn
  by_contra hne
  push Not at hne
  obtain ⟨⟨r, hr, hfalse⟩, hall⟩ := hne
  exact hall r hr (Bool.eq_false_iff.mpr hfalse)

theorem sound_dropICEPeer (hs : pm.custody.Sound) (drain : PeerRef → Bool) (pid : ℤ) :
    (pm.dropICEPeer drain pid).custody.Sound := by
  rcases ownsConn_or pm pid with howns | ⟨r, hlookup, hfalse⟩
  · exact hs.step (step_dropICEPeer hs drain howns)
  · exact hs.abandon (abandon_dropICEPeer drain hlookup hfalse)

theorem noOrphan_dropICEPeer (hs : pm.custody.Sound) (drain : PeerRef → Bool) (pid : ℤ) :
    (pm.dropICEPeer drain pid).custody.NoOrphan ↔ pm.custody.NoOrphan ∧ OwnsConn pm pid := by
  rcases ownsConn_or pm pid with howns | ⟨r, hlookup, hfalse⟩
  · rw [Custody.noOrphan_step hs (step_dropICEPeer hs drain howns)]
    exact (and_iff_left howns).symm
  · refine iff_of_false (Custody.orphan_abandon hs (abandon_dropICEPeer drain hlookup hfalse)) ?_
    rintro ⟨-, howns⟩
    rw [howns r hlookup] at hfalse
    cases hfalse

/-! ### Closing everything -/

theorem ownsConn_cell_dropICEPeer (drain : PeerRef → Bool) (pid : ℤ) (r : PeerRef) (pm : PeerManager) :
    ((pm.dropICEPeer drain pid).iceHeap.cell r).ownsConn = (pm.iceHeap.cell r).ownsConn := by
  unfold dropICEPeer
  split
  · next r' _ =>
    by_cases hr : r = r'
    · subst hr
      simp [closeICEPeer]
    · simp [closeICEPeer, Heap.modify_cell_ne _ _ hr]
  · rfl

theorem ownsConn_dropICEPeer (drain : PeerRef → Bool) {pid : ℤ} (howns : OwnsConn pm pid) (pid' : ℤ) :
    OwnsConn (pm.dropICEPeer drain pid) pid' ↔ OwnsConn pm pid' := by
  unfold OwnsConn
  simp only [ownsConn_cell_dropICEPeer, lookup_dropICEPeer]
  by_cases hp : pid' = pid
  · subst hp
    simp only [if_true]
    exact iff_of_true nofun howns
  · simp only [if_neg hp]

/-- The loop of `CloseAll` over the ICE peers. -/
theorem dropICEPeers (drain : PeerRef → Bool) (pids : List ℤ) (hs : pm.custody.Sound) :
    let pm' := pids.foldl (fun pm pid => pm.dropICEPeer drain pid) pm
    pm'.custody.Sound ∧
      (pm'.custody.NoOrphan ↔ pm.custody.NoOrphan ∧ ∀ pid ∈ pids, OwnsConn pm pid) ∧
      pm'.peers = pm.peers ∧
      ∀ pid, pm'.icePeers.lookup pid = if pid ∈ pids then none else pm.icePeers.lookup pid := by
  induction pids generalizing pm with
  | nil => simp [hs]
  | cons pid pids ih =>
    obtain ⟨hsound, hno, hpeers, hlookup⟩ := ih (sound_dropICEPeer hs drain pid)
    refine ⟨hsound, ?_, ?_, fun pid' => ?_⟩
    · rw [List.foldl_cons, hno, noOrphan_dropICEPeer hs, List.forall_mem_cons, and_assoc]
      refine and_congr_right fun _ => and_congr_right fun howns => ?_
      exact forall_congr' fun pid' => imp_congr_right fun _ => ownsConn_dropICEPeer drain howns pid'
    · rw [List.foldl_cons, hpeers]
      unfold dropICEPeer
      split <;> rfl
    · rw [List.foldl_cons, hlookup, lookup_dropICEPeer]
      by_cases hmem : pid' ∈ pids <;> by_cases hp : pid' = pid <;> simp [hmem, hp]

/-- The loop of `CloseAll` over the relay peers. -/
theorem dropPeers (pids : List ℤ) (hs : pm.custody.Sound) :
    let pm' := pids.foldl (fun pm pid => pm.dropPeer pid) pm
    pm'.custody.Sound ∧ (pm'.custody.NoOrphan ↔ pm.custody.NoOrphan) ∧
      (pm'.icePeers = pm.icePeers ∧ pm'.iceHeap = pm.iceHeap) ∧
      ∀ pid, pm'.peers.lookup pid = if pid ∈ pids then none else pm.peers.lookup pid := by
  induction pids generalizing pm with
  | nil => simp [hs]
  | cons pid pids ih =>
    have hstep := step_dropPeer hs pid
    obtain ⟨hsound, hno, ⟨hice, hheap⟩, hlookup⟩ := ih (hs.step hstep)
    refine ⟨hsound, hno.trans (Custody.noOrphan_step hs hstep), ?_, fun pid' => ?_⟩
    · exact ⟨hice.trans (dropPeer_ice pid pm).1, hheap.trans (dropPeer_ice pid pm).2⟩
    · rw [List.foldl_cons, hlookup, lookup_dropPeer]
      by_cases hmem : pid' ∈ pids <;> by_cases hp : pid' = pid <;> simp [hmem, hp]

/-! ## Runs of operations -/

inductive PeerOp
  | addPeer (pid : ℤ) (login : String) (setup : Setup)
  | addICEPeer (pid : ℤ) (login : String) (offerer : Bool) (onRestart : RestartID) (setup : Setup)
  | replaceICEPeer (pid : ℤ) (login : String) (offerer : Bool) (onRestart : RestartID) (setup : Setup)
      (drain : PeerRef → Bool) (initialMsg : Option FafIceMsg)
  | removePeer (drain : PeerRef → Bool) (pid : ℤ)
  | closeAll (order iceOrder : RangeOrder ℤ) (drain : PeerRef → Bool)

def step (pm : PeerManager) : PeerOp → PeerManager × Unit
  | .addPeer pid login setup => ((pm.addPeer pid login setup).1, ())
  | .addICEPeer pid login offerer onRestart setup =>
    ((pm.addICEPeer pid login offerer onRestart setup).1, ())
  | .replaceICEPeer pid login offerer onRestart setup drain initialMsg =>
    ((pm.replaceICEPeer pid login offerer onRestart setup drain initialMsg).1, ())
  | .removePeer drain pid => (pm.removePeer drain pid, ())
  | .closeAll order iceOrder drain => (pm.closeAll order iceOrder drain, ())

/-- Whoever is removed for good owns its socket: it was not made by a `ReplaceICEPeer` that took the
socket over. -/
def RemovesOwners (pm : PeerManager) : PeerOp → Prop
  | .removePeer _ pid => OwnsConn pm pid
  | .closeAll .. => ∀ pid, OwnsConn pm pid
  | _ => True

/-- The law of the game sockets. -/
structure SocketOwnership (pm : PeerManager) : Prop where
  atMostOne : ∀ h h' k, pm.socketOf h = some k → pm.socketOf h' = some k → h = h'
  openIff : ∀ k, closesOf pm.sockets k = some 0 ↔ ∃ h, pm.socketOf h = some k
  closedOnce : ∀ k n, closesOf pm.sockets k = some n → n ≤ 1

theorem socketOwnership_iff_noOrphan (hs : pm.custody.Sound) :
    SocketOwnership pm ↔ pm.custody.NoOrphan :=
  ⟨fun h k hk => (h.openIff k).mp hk,
    fun h => ⟨hs.unique, fun k => ⟨h k, fun ⟨holder, hh⟩ => hs.isOpen holder k hh⟩, hs.once⟩⟩

theorem Allocated.closeAll (h : Allocated pm) (order iceOrder : RangeOrder ℤ) (drain : PeerRef → Bool) :
    Allocated (pm.closeAll order iceOrder drain) := by
  have hrelay : ∀ (pids : List ℤ) (pm : PeerManager), Allocated pm →
      Allocated (pids.foldl (fun pm pid => pm.dropPeer pid) pm) := by
    intro pids
    induction pids with
    | nil => exact fun _ => id
    | cons pid pids ih => exact fun pm hpm => ih _ (hpm.dropPeer pid)
  have hice : ∀ (pids : List ℤ) (pm : PeerManager), Allocated pm →
      Allocated (pids.foldl (fun pm pid => pm.dropICEPeer drain pid) pm) := by
    intro pids
    induction pids with
    | nil => exact fun _ => id
    | cons pid pids ih => exact fun pm hpm => ih _ (hpm.dropICEPeer drain pid)
  exact hice _ _ (hrelay _ _ h)

theorem Allocated.step (h : Allocated pm) (op : PeerOp) : Allocated (pm.step op).1 := by
  cases op with
  | addPeer pid login setup =>
    simp only [PeerManager.step, PeerManager.addPeer]
    repeat' split
    all_goals exact h
  | addICEPeer pid login offerer onRestart setup => exact h.addICEPeer _ _ _ _ _
  | replaceICEPeer pid login offerer onRestart setup drain initialMsg =>
    exact h.replaceICEPeer _ _ _ _ _ _ _
  | removePeer drain pid => exact (h.dropPeer pid).dropICEPeer drain pid
  | closeAll order iceOrder drain => exact h.closeAll order iceOrder drain

/-! ### Closing everything -/

theorem closeAll_custody (hs : pm.custody.Sound) (order iceOrder : RangeOrder ℤ)
    (drain : PeerRef → Bool) :
    let pm' := pm.closeAll order iceOrder drain
    pm'.custody.Sound ∧ (pm'.custody.NoOrphan ↔ pm.custody.NoOrphan ∧ ∀ pid, OwnsConn pm pid) ∧
      ∀ h, pm'.socketOf h = none := by
  obtain ⟨hs₁, hno₁, ⟨hice₁, hheap₁⟩, hlookup₁⟩ := dropPeers (order.visit pm.peers.keys) hs
  unfold closeAll
  dsimp only
  generalize (order.visit pm.peers.keys).foldl (fun pm pid => pm.dropPeer pid) pm = pm₁ at *
  obtain ⟨hs₂, hno₂, hpeers₂, hlookup₂⟩ := dropICEPeers drain (iceOrder.visit pm₁.icePeers.keys) hs₁
  have howns : ∀ pid, OwnsConn pm₁ pid ↔ OwnsConn pm pid := fun pid => by
    unfold OwnsConn
    rw [hice₁, hheap₁]
  refine ⟨hs₂, ?_, fun h => ?_⟩
  · rw [hno₂, hno₁]
    refine and_congr_right fun _ => ⟨fun hall pid r hr => ?_, fun hall pid _ => (howns pid).mpr (hall pid)⟩
    refine (howns pid).mp (hall pid ?_) r hr
    rw [RangeOrder.mem_visit, ← AList.mem_keys, hice₁]
    exact Table.mem_of_lookup hr
  · cases h with
    | relay pid =>
      simp only [socketOf, hpeers₂, hlookup₁]
      by_cases hp : pid ∈ order.visit pm.peers.keys
      · simp [hp]
      · rw [if_neg hp, AList.lookup_eq_none.mpr]
        · rfl
        · rwa [RangeOrder.mem_visit, ← AList.mem_keys] at hp
    | ice pid =>
      simp only [socketOf, hlookup₂]
      by_cases hp : pid ∈ iceOrder.visit pm₁.icePeers.keys
      · simp [hp]
      · rw [if_neg hp, AList.lookup_eq_none.mpr]
        · rfl
        · rwa [RangeOrder.mem_visit, ← AList.mem_keys] at hp

theorem sound_step (hs : pm.custody.Sound) (halloc : Allocated pm) (op : PeerOp) :
    (pm.step op).1.custody.Sound := by
  cases op with
  | addPeer pid login setup => exact hs.step (step_addPeer pid login setup pm)
  | addICEPeer pid login offerer onRestart setup => exact hs.step (step_addICEPeer halloc ..)
  | replaceICEPeer pid login offerer onRestart setup drain initialMsg =>
    exact hs.step (step_replaceICEPeer hs halloc ..)
  | removePeer drain pid => exact sound_dropICEPeer (hs.step (step_dropPeer hs pid)) drain pid
  | closeAll order iceOrder drain => exact (closeAll_custody hs order iceOrder drain).1

theorem noOrphan_removePeer (hs : pm.custody.Sound) (drain : PeerRef → Bool) (pid : ℤ) :
    (pm.removePeer drain pid).custody.NoOrphan ↔ pm.custody.NoOrphan ∧ OwnsConn pm pid := by
  have hstep := step_dropPeer hs pid
  obtain ⟨hice, hheap⟩ := dropPeer_ice pid pm
  have howns : OwnsConn (pm.dropPeer pid) pid ↔ OwnsConn pm pid := by
    unfold OwnsConn
    rw [hice, hheap]
  unfold removePeer
  rw [noOrphan_dropICEPeer (hs.step hstep), Custody.noOrphan_step hs hstep, howns]

theorem noOrphan_op (hs : pm.custody.Sound) (halloc : Allocated pm) (op : PeerOp) :
    (pm.step op).1.custody.NoOrphan ↔ pm.custody.NoOrphan ∧ pm.RemovesOwners op := by
  cases op with
  | addPeer pid login setup =>
    exact (Custody.noOrphan_step hs (step_addPeer pid login setup pm)).trans (and_iff_left trivial).symm
  | addICEPeer pid login offerer onRestart setup =>
    exact (Custody.noOrphan_step hs (step_addICEPeer halloc ..)).trans (and_iff_left trivial).symm
  | replaceICEPeer pid login offerer onRestart setup drain initialMsg =>
    exact (Custody.noOrphan_step hs (step_replaceICEPeer hs halloc ..)).trans
      (and_iff_left trivial).symm
  | removePeer drain pid => exact noOrphan_removePeer hs drain pid
  | closeAll order iceOrder drain => exact (closeAll_custody hs order iceOrder drain).2.1

theorem sound_init : (custody {}).Sound where
  unique := fun h h' k hk => by cases h <;> cases hk
  isOpen := fun h k hk => by cases h <;> cases hk
  once := fun k n hn => by simp [custody, closesOf] at hn

theorem noOrphan_init : (custody {}).NoOrphan := fun k hk => by simp [custody, closesOf] at hk

theorem sound_run (ops : List PeerOp) :
    (runState step {} ops).custody.Sound ∧ Allocated (runState step {} ops) :=
  run_invariant (I := fun pm => pm.custody.Sound ∧ Allocated pm)
    (fun _ op h => ⟨sound_step h.1 h.2 op, h.2.step op⟩) ⟨sound_init, nofun⟩ ops

/-- The law holds after a run exactly when every peer removed in it owned its socket; and then a last
`CloseAll` leaves no socket open. -/
theorem socketOwnership_iff (ops : List PeerOp) (order iceOrder : RangeOrder ℤ)
    (drain : PeerRef → Bool) :
    (SocketOwnership (runState step {} ops) ↔
      AllSteps step (fun pm op _ => pm.RemovesOwners op) {} ops) ∧
    (AllSteps step (fun pm op _ => pm.RemovesOwners op) {} (ops ++ [.closeAll order iceOrder drain]) →
      ∀ k, closesOf (runState step {} (ops ++ [.closeAll order iceOrder drain])).sockets k ≠ some 0) := by
  have hiff : ∀ ops, (runState step {} ops).custody.NoOrphan ↔
      AllSteps step (fun pm op _ => pm.RemovesOwners op) {} ops :=
    run_iff_allSteps_of_invariant (I := fun pm => pm.custody.Sound ∧ Allocated pm)
      (P := fun pm => pm.custody.NoOrphan) (fun _ op h => ⟨sound_step h.1 h.2 op, h.2.step op⟩)
      (fun _ op h => noOrphan_op h.1 h.2 op) ⟨sound_init, nofun⟩ noOrphan_init
  refine ⟨(socketOwnership_iff_noOrphan (sound_run ops).1).trans (hiff ops), fun hall k hopen => ?_⟩
  obtain ⟨h, hh⟩ := (hiff _).mpr hall k hopen
  have hnone := (closeAll_custody (sound_run ops).1 order iceOrder drain).2.2 h
  rw [runState_append] at hh
  exact absurd (hnone.symm.trans hh) nofun

/-- A player is connected, restarted once, and disconnected. -/
def restartThenRemove : List PeerOp :=
  [.addICEPeer 2 "peer" true 0 ⟨true, true, true⟩,
    .replaceICEPeer 2 "peer" true 0 ⟨true, true, true⟩ (fun _ => false) none, .removePeer (fun _ => false) 2]

theorem restarted_peer_leaks : ¬ SocketOwnership (runState step {} restartThenRemove) := by
  intro h
  have hsound := (sound_run (restartThenRemove.take 2)).1
  have hno := (noOrphan_removePeer hsound (fun _ => false) 2).mp fun k hk => (h.openIff k).mp hk
  have howns := hno.2 1 rfl
  cases howns

end PeerManager
end Adapter
end SturmRelay
