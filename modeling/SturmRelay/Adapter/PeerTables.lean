import SturmRelay.Adapter.PeerManager

/-! # What the operations of the peer manager do to its tables

Each operation changes the entries of one player only, never the closure of a peer that exists, and
adds to the goroutines it has started only restarts of peers it closes: `ChangesOnly`. `Installs` is
what `AddICEPeer` and `ReplaceICEPeer` have in common besides. -/

namespace SturmRelay
namespace Adapter
set_option autoImplicit false

namespace PeerManager
variable {pm pm' pm'' : PeerManager}

/-! ## Lookups -/

theorem dropPeer_ice (pid : ℤ) (pm : PeerManager) :
    (pm.dropPeer pid).icePeers = pm.icePeers ∧ (pm.dropPeer pid).iceHeap = pm.iceHeap := by
  unfold dropPeer
  split <;> exact ⟨rfl, rfl⟩

theorem lookup_dropPeer (pid pid' : ℤ) (pm : PeerManager) :
    (pm.dropPeer pid).peers.lookup pid' = if pid' = pid then none else pm.peers.lookup pid' := by
  unfold dropPeer
  split
  · exact Table.lookup_erase_eq_ite ..
  · next hnone =>
    split
    · next he => rw [he, hnone]
    · rfl

theorem lookup_dropICEPeer (drain : PeerRef → Bool) (pid pid' : ℤ) (pm : PeerManager) :
    (pm.dropICEPeer drain pid).icePeers.lookup pid' =
      if pid' = pid then none else pm.icePeers.lookup pid' := by
  unfold dropICEPeer
  split
  · exact Table.lookup_erase_eq_ite ..
  · next hnone =>
    split
    · next he => rw [he, hnone]
    · rfl

/-! ## Pointers -/

/-- The pointers in the table are pointers to peers. -/
def Allocated (pm : PeerManager) : Prop := ∀ pid r, pm.icePeers.lookup pid = some r → r < pm.iceHeap.next

theorem Allocated.mono (h : Allocated pm)
    (hsub : ∀ pid r, pm'.icePeers.lookup pid = some r → pm.icePeers.lookup pid = some r)
    (hnext : pm'.iceHeap.next = pm.iceHeap.next) : Allocated pm' := by
  intro pid r hr
  rw [hnext]
  exact h pid r (hsub pid r hr)

theorem Allocated.store (h : Allocated pm) (pid : ℤ) (p : ICEPeer) :
    Allocated (pm.storeICEPeer pid p) := by
  intro pid' r hr
  change (pm.icePeers.insert pid pm.iceHeap.next).lookup pid' = some r at hr
  rw [Table.lookup_insert_eq_ite] at hr
  split at hr
  · cases hr
    exact Nat.lt_succ_self _
  · exact Nat.lt_succ_of_lt (h pid' r hr)

theorem Allocated.newICEPeer (h : Allocated pm) {pid : ℤ} {login : String} {offerer : Bool}
    {onRestart : RestartID} {setup : Setup} {conn : Option SocketID}
    {result : Except PeerError ICEPeer}
    (hnew : pm.newICEPeer pid login offerer onRestart setup conn = (pm', result)) : Allocated pm' := by
  have hsame := sameTables_newICEPeer pid login offerer onRestart setup conn pm
  rw [hnew] at hsame
  exact h.mono (by rw [hsame.icePeers]; exact fun _ _ => id) (by rw [hsame.iceHeap])

theorem allocated_detach (halloc : Allocated pm) (drain : Bool) (pid : ℤ) (r : PeerRef) :
    Allocated (pm.detach drain pid r) := by
  intro pid' r' hlookup
  change (pm.icePeers.erase pid).lookup pid' = some r' at hlookup
  rw [Table.lookup_erase_eq_ite] at hlookup
  split at hlookup
  · cases hlookup
  · exact halloc pid' r' hlookup

theorem Allocated.addICEPeer (h : Allocated pm) (pid : ℤ) (login : String) (offerer : Bool)
    (onRestart : RestartID) (setup : Setup) :
    Allocated (pm.addICEPeer pid login offerer onRestart setup).1 := by
  unfold PeerManager.addICEPeer
  split
  · exact h
  · split
    · next hnew => exact h.newICEPeer hnew
    · next hnew => exact (h.newICEPeer hnew).store pid _

theorem Allocated.succeed (h : Allocated pm) (pid : ℤ) (login : String) (offerer : Bool)
    (onRestart : RestartID) (setup : Setup) (initialMsg : Option FafIceMsg) (inherited : Option ICEPeer) :
    Allocated (pm.succeed pid login offerer onRestart setup initialMsg inherited).1 := by
  unfold PeerManager.succeed
  split
  · next hnew =>
    have halloc := h.newICEPeer hnew
    split <;> exact halloc
  · next hnew => exact (h.newICEPeer hnew).store pid _

theorem Allocated.replaceICEPeer (h : Allocated pm) (pid : ℤ) (login : String) (offerer : Bool)
    (onRestart : RestartID) (setup : Setup) (drain : PeerRef → Bool) (initialMsg : Option FafIceMsg) :
    Allocated (pm.replaceICEPeer pid login offerer onRestart setup drain initialMsg).1 := by
  unfold PeerManager.replaceICEPeer
  split
  · exact (allocated_detach h _ pid _).succeed _ _ _ _ _ _ _
  · exact h.succeed _ _ _ _ _ _ _

theorem Allocated.dropPeer (h : Allocated pm) (pid : ℤ) : Allocated (pm.dropPeer pid) := by
  obtain ⟨hice, hheap⟩ := dropPeer_ice pid pm
  exact h.mono (by rw [hice]; exact fun _ _ => id) (by rw [hheap])

theorem Allocated.dropICEPeer (h : Allocated pm) (drain : PeerRef → Bool) (pid : ℤ) :
    Allocated (pm.dropICEPeer drain pid) := by
  refine h.mono (fun pid' r hr => ?_) ?_
  · rw [lookup_dropICEPeer] at hr
    split at hr
    · cases hr
    · exact hr
  · unfold PeerManager.dropICEPeer
    split <;> rfl

/-! ## Entries of one player -/

structure ChangesOnly (pid : ℤ) (pm pm' : PeerManager) : Prop where
  peers : ∀ pid', pid' ≠ pid → pm'.peers.lookup pid' = pm.peers.lookup pid'
  icePeers : ∀ pid', pid' ≠ pid → pm'.icePeers.lookup pid' = pm.icePeers.lookup pid'
  next : pm.iceHeap.next ≤ pm'.iceHeap.next
  onRestart : ∀ r, r < pm.iceHeap.next →
    (pm'.iceHeap.cell r).onRestart = (pm.iceHeap.cell r).onRestart
  restarts : ∃ new : List Restart, pm'.restarts = pm.restarts ++ new ∧
    ∀ x ∈ new, x.peer < pm.iceHeap.next ∧ x.msg = {}

theorem SameTables.changesOnly (h : SameTables pm pm') (pid : ℤ) : ChangesOnly pid pm pm' where
  peers := fun _ _ => by rw [h.peers]
  icePeers := fun _ _ => by rw [h.icePeers]
  next := by rw [h.iceHeap]
  onRestart := fun _ _ => by rw [h.iceHeap]
  restarts := ⟨[], by rw [h.restarts, List.append_nil], nofun⟩

theorem ChangesOnly.trans {pid : ℤ} (h : ChangesOnly pid pm pm') (h' : ChangesOnly pid pm' pm'')
    (hnext : pm'.iceHeap.next = pm.iceHeap.next) : ChangesOnly pid pm pm'' where
  peers := fun pid' hp => (h'.peers pid' hp).trans (h.peers pid' hp)
  icePeers := fun pid' hp => (h'.icePeers pid' hp).trans (h.icePeers pid' hp)
  next := h.next.trans h'.next
  onRestart := fun r hr => (h'.onRestart r (hr.trans_le h.next)).trans (h.onRestart r hr)
  restarts := by
    obtain ⟨new, hnew, hself⟩ := h.restarts
    obtain ⟨new', hnew', hself'⟩ := h'.restarts
    refine ⟨new ++ new', by rw [hnew', hnew, List.append_assoc], fun x hx => ?_⟩
    rcases List.mem_append.mp hx with hx | hx
    · exact hself x hx
    · exact hnext ▸ hself' x hx

theorem onRestart_shutdown (drain : Bool) (p : ICEPeer) : (p.shutdown drain).onRestart = p.onRestart := by
  unfold ICEPeer.shutdown ICEPeer.finishRun
  repeat' split
  all_goals rfl

theorem changesOnly_closeICEPeer {r : PeerRef} (hr : r < pm.iceHeap.next) (drain : Bool) (pid : ℤ) :
    ChangesOnly pid pm (pm.closeICEPeer drain r) where
  peers := fun _ _ => rfl
  icePeers := fun _ _ => rfl
  next := le_refl _
  onRestart := fun r' _ => by
    by_cases he : r' = r
    · subst he
      simp [closeICEPeer, onRestart_shutdown]
    · simp [closeICEPeer, Heap.modify_cell_ne _ _ he]
  restarts := by
    unfold closeICEPeer
    dsimp only
    split
    · refine ⟨[⟨r, {}⟩], rfl, fun x hx => ?_⟩
      rw [List.mem_singleton.mp hx]
      exact ⟨hr, rfl⟩
    · exact ⟨[], (List.append_nil _).symm, nofun⟩

theorem changesOnly_erase (pid : ℤ) (pm : PeerManager) :
    ChangesOnly pid pm { pm with icePeers := pm.icePeers.erase pid } where
  peers := fun _ _ => rfl
  icePeers := fun _ hp => AList.lookup_erase_ne hp
  next := le_refl _
  onRestart := fun _ _ => rfl
  restarts := ⟨[], (List.append_nil _).symm, nofun⟩

theorem changesOnly_store (pid : ℤ) (p : ICEPeer) (pm : PeerManager) :
    ChangesOnly pid pm (pm.storeICEPeer pid p) where
  peers := fun _ _ => rfl
  icePeers := fun _ hp => AList.lookup_insert_ne hp
  next := Nat.le_succ _
  onRestart := fun r hr => by
    unfold storeICEPeer
    rw [Heap.alloc_cell_of_lt _ _ hr]
  restarts := ⟨[], (List.append_nil _).symm, nofun⟩

theorem changesOnly_addPeer (pid : ℤ) (login : String) (setup : Setup) (pm : PeerManager) :
    ChangesOnly pid pm (pm.addPeer pid login setup).1 := by
  have hrefl : ChangesOnly pid pm pm := SameTables.changesOnly ⟨rfl, rfl, rfl, rfl⟩ pid
  unfold addPeer
  repeat' split
  · exact hrefl
  · exact { hrefl with peers := fun _ hp => AList.lookup_insert_ne hp }
  · exact hrefl

theorem changesOnly_dropPeer (pid : ℤ) (pm : PeerManager) : ChangesOnly pid pm (pm.dropPeer pid) := by
  have hrefl : ChangesOnly pid pm pm := SameTables.changesOnly ⟨rfl, rfl, rfl, rfl⟩ pid
  unfold dropPeer
  split
  · exact { hrefl with peers := fun _ hp => AList.lookup_erase_ne hp }
  · exact hrefl

theorem changesOnly_dropICEPeer (halloc : Allocated pm) (drain : PeerRef → Bool) (pid : ℤ) :
    ChangesOnly pid pm (pm.dropICEPeer drain pid) := by
  unfold dropICEPeer
  split
  · next r hlookup =>
    exact (changesOnly_closeICEPeer (halloc pid r hlookup) (drain r) pid).trans
      (changesOnly_erase pid _) rfl
  · exact SameTables.changesOnly ⟨rfl, rfl, rfl, rfl⟩ pid

theorem next_dropPeer (pid : ℤ) (pm : PeerManager) :
    (pm.dropPeer pid).iceHeap.next = pm.iceHeap.next := by
  rw [(dropPeer_ice pid pm).2]

theorem next_removePeer (drain : PeerRef → Bool) (pid : ℤ) (pm : PeerManager) :
    (pm.removePeer drain pid).iceHeap.next = pm.iceHeap.next := by
  unfold removePeer
  rw [← next_dropPeer pid pm]
  generalize pm.dropPeer pid = pm'
  unfold dropICEPeer
  split <;> rfl

theorem changesOnly_removePeer (halloc : Allocated pm) (drain : PeerRef → Bool) (pid : ℤ) :
    ChangesOnly pid pm (pm.removePeer drain pid) :=
  (changesOnly_dropPeer pid pm).trans (changesOnly_dropICEPeer (halloc.dropPeer pid) drain pid)
    (next_dropPeer pid pm)

theorem lookup_removePeer (drain : PeerRef → Bool) (pid : ℤ) (pm : PeerManager) :
    (pm.removePeer drain pid).peers.lookup pid = none ∧
      (pm.removePeer drain pid).icePeers.lookup pid = none := by
  unfold removePeer
  rw [lookup_dropICEPeer, if_pos rfl]
  refine ⟨?_, rfl⟩
  have hpeers : ∀ pm : PeerManager, (pm.dropICEPeer drain pid).peers = pm.peers := fun pm => by
    unfold dropICEPeer
    split <;> rfl
  rw [hpeers, lookup_dropPeer, if_pos rfl]

/-! ## New ICE peers -/

/-- What `AddICEPeer` and `ReplaceICEPeer` for `pid` with callback `onRestart` do. -/
structure Installs (pid : ℤ) (onRestart : RestartID) (pm : PeerManager)
    (out : PeerManager × Except PeerError PeerRef) : Prop where
  only : ChangesOnly pid pm out.1
  peers : out.1.peers = pm.peers
  fresh : ∀ r, pm.iceHeap.next ≤ r → r < out.1.iceHeap.next →
    (out.1.iceHeap.cell r).onRestart = onRestart
  entry : ∀ r, out.1.icePeers.lookup pid = some r →
    pm.icePeers.lookup pid = some r ∨ (pm.iceHeap.next ≤ r ∧ r < out.1.iceHeap.next)
  ok : ∀ r, out.2 = .ok r → out.1.icePeers.lookup pid = some r
  error : ∀ e, out.2 = .error e → out.1.icePeers.lookup pid = none

/-- A peer is stored over tables that have not changed. -/
theorem installs_store {pid : ℤ} {onRestart : RestartID} {p : ICEPeer} {n : ℕ}
    (hsame : SameTables pm pm') (hcallback : p.onRestart = onRestart) :
    Installs pid onRestart pm
      ({ pm' with nextOrder := n }.storeICEPeer pid p, .ok pm'.iceHeap.next) where
  only := by
    have hsame' : SameTables pm { pm' with nextOrder := n } :=
      ⟨hsame.peers, hsame.icePeers, hsame.iceHeap, hsame.restarts⟩
    exact (hsame'.changesOnly pid).trans (changesOnly_store pid p _) (congrArg Heap.next hsame.iceHeap)
  peers := hsame.peers
  fresh := fun r hle hlt => by
    have hr : r = pm'.iceHeap.next := by
      rw [← hsame.iceHeap] at hle
      exact Nat.le_antisymm (Nat.lt_succ_iff.mp hlt) hle
    subst hr
    exact (congrArg ICEPeer.onRestart (Heap.alloc_cell_self _ _)).trans hcallback
  entry := fun r hr => by
    change (pm'.icePeers.insert pid pm'.iceHeap.next).lookup pid = some r at hr
    rw [AList.lookup_insert] at hr
    cases hr
    exact Or.inr ⟨(congrArg Heap.next hsame.iceHeap).ge, Nat.lt_succ_self _⟩
  ok := fun r hr => by
    cases hr
    exact AList.lookup_insert _
  error := nofun

/-- No peer is stored, and the entry is empty. -/
theorem installs_error {pid : ℤ} {onRestart : RestartID} {e : PeerError} (hsame : SameTables pm pm')
    (hnone : pm.icePeers.lookup pid = none) : Installs pid onRestart pm (pm', .error e) where
  only := hsame.changesOnly pid
  peers := hsame.peers
  fresh := fun _ hle hlt => absurd (hsame.iceHeap ▸ hlt) (Nat.not_lt.mpr hle)
  entry := fun _ hr => Or.inl (hsame.icePeers ▸ hr)
  ok := nofun
  error := fun _ _ => hsame.icePeers ▸ hnone

theorem onRestart_newICEPeer {pid : ℤ} {login : String} {offerer : Bool} {onRestart : RestartID}
    {setup : Setup} {conn : Option SocketID} {p : ICEPeer}
    (hnew : pm.newICEPeer pid login offerer onRestart setup conn = (pm', .ok p)) :
    p.onRestart = onRestart := by
  unfold newICEPeer at hnew
  cases conn <;> dsimp only at hnew <;> repeat' split at hnew
  all_goals cases hnew
  all_goals rfl

theorem installs_addICEPeer (pid : ℤ) (login : String) (offerer : Bool) (onRestart : RestartID)
    (setup : Setup) (pm : PeerManager) :
    Installs pid onRestart pm (pm.addICEPeer pid login offerer onRestart setup) := by
  unfold addICEPeer
  cases hlookup : pm.icePeers.lookup pid with
  | some existing =>
    refine ⟨SameTables.changesOnly ⟨rfl, rfl, rfl, rfl⟩ pid, rfl, fun r hle hlt => ?_,
      fun r hr => Or.inl hr, fun r hr => ?_, nofun⟩
    · exact absurd hlt (Nat.not_lt.mpr hle)
    · cases hr
      exact hlookup
  | none =>
    have hsame := sameTables_newICEPeer pid login offerer onRestart setup none pm
    dsimp only
    split
    · next hnew =>
      rw [hnew] at hsame
      exact installs_error hsame hlookup
    · next hnew =>
      rw [hnew] at hsame
      have hcallback := onRestart_newICEPeer hnew
      exact installs_store hsame hcallback

/-- First the old peer goes, then the new one comes. -/
theorem Installs.after {pid : ℤ} {onRestart : RestartID}
    {out : PeerManager × Except PeerError PeerRef} (h : Installs pid onRestart pm' out)
    (honly : ChangesOnly pid pm pm') (hnext : pm'.iceHeap.next = pm.iceHeap.next)
    (hpeers : pm'.peers = pm.peers) (hnone : pm'.icePeers.lookup pid = none) :
    Installs pid onRestart pm out where
  only := honly.trans h.only hnext
  peers := h.peers.trans hpeers
  fresh := fun r hle hlt => h.fresh r (hnext ▸ hle) hlt
  entry := fun r hr => by
    rcases h.entry r hr with hold | ⟨hle, hlt⟩
    · rw [hnone] at hold
      cases hold
    · exact Or.inr ⟨hnext ▸ hle, hlt⟩
  ok := h.ok
  error := h.error

theorem installs_succeed {pid : ℤ} (hnone : pm.icePeers.lookup pid = none) (login : String)
    (offerer : Bool) (onRestart : RestartID) (setup : Setup) (initialMsg : Option FafIceMsg)
    (inherited : Option ICEPeer) :
    Installs pid onRestart pm (pm.succeed pid login offerer onRestart setup initialMsg inherited) := by
  have hsame := sameTables_newICEPeer pid login offerer onRestart setup
    (inherited.map ICEPeer.conn) pm
  unfold succeed
  split
  · next hnew =>
    rw [hnew] at hsame
    split
    · exact installs_error ⟨hsame.peers, hsame.icePeers, hsame.iceHeap, hsame.restarts⟩ hnone
    · exact installs_error hsame hnone
  · next hnew =>
    rw [hnew] at hsame
    have hcallback := onRestart_newICEPeer hnew
    exact installs_store hsame hcallback

theorem changesOnly_detach {r : PeerRef} (hr : r < pm.iceHeap.next) (drain : Bool) (pid : ℤ) :
    ChangesOnly pid pm (pm.detach drain pid r) := by
  have hmodify : ChangesOnly pid pm
      { pm with iceHeap := pm.iceHeap.modify r fun p => { p with ownsConn := false } } := by
    refine { SameTables.changesOnly ⟨rfl, rfl, rfl, rfl⟩ pid with
      next := le_refl _, onRestart := fun r' _ => ?_ }
    by_cases he : r' = r
    · subst he
      simp
    · simp [Heap.modify_cell_ne _ _ he]
  have hclose := hmodify.trans (changesOnly_closeICEPeer (by exact hr) drain pid) rfl
  exact hclose.trans (changesOnly_erase pid _) rfl

theorem installs_replaceICEPeer (halloc : Allocated pm) (pid : ℤ) (login : String) (offerer : Bool)
    (onRestart : RestartID) (setup : Setup) (drain : PeerRef → Bool) (initialMsg : Option FafIceMsg) :
    Installs pid onRestart pm
      (pm.replaceICEPeer pid login offerer onRestart setup drain initialMsg) := by
  unfold replaceICEPeer
  split
  · next r hlookup =>
    have hnone : (pm.detach (drain r) pid r).icePeers.lookup pid = none := AList.lookup_erase ..
    exact (installs_succeed hnone login offerer onRestart setup initialMsg _).after
      (changesOnly_detach (halloc pid r hlookup) (drain r) pid) rfl rfl hnone
  · next hnone => exact installs_succeed hnone login offerer onRestart setup initialMsg none

end PeerManager
end Adapter
end SturmRelay
