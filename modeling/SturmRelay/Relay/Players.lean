import SturmRelay.Relay.ReaperSafety
import SturmRelay.Relay.Routing

/-! # Properties of every player of every live session

`PlayersAll Q` says that `Q` holds of each entry in the players map of each session in the sessions
map. What an operation does to such a property depends on two things only: a player that joins gets
a fresh or a reset entry, and the sender of a packet gets an updated one. Everybody else keeps its
entry or loses it, so `Q` may change to `Q'` from one state to the next as long as it follows for
the players that are left alone. -/

namespace SturmRelay
set_option autoImplicit false

/-- Where a packet for the player would go. -/
def PlayerInfo.endpoint (p : PlayerInfo) : Option Endpoint :=
  match p.tcpConn with
  | some conn => some (.tcp conn)
  | none => p.addr.map .udp

namespace SessionManager

def PlayersAll (Q : SessionID → PlayerID → PlayerInfo → Prop) (sm : SessionManager) : Prop :=
  LiveAll (fun sid s => ∀ p info, s.players.lookup p = some info → Q sid p info) sm

/-- The player a call has put into a session, or put there again. -/
def joinedBy : Call → Except SessionError Unit → Option (SessionID × PlayerID)
  | .addPlayerToSession sid p _, .ok _ => some (sid, p)
  | _, _ => none

section PlayersAll
variable {Q Q' : SessionID → PlayerID → PlayerInfo → Prop} {sm : SessionManager}

theorem PlayersAll.mono (h : PlayersAll Q sm) (hQ : ∀ sid p info, Q sid p info → Q' sid p info) :
    PlayersAll Q' sm :=
  fun sid r hr p info hp => hQ sid p info (h sid r hr p info hp)

theorem PlayersAll.dropPlayer (h : PlayersAll Q sm) (r : SessionRef) (p : PlayerID) :
    PlayersAll Q (sm.dropPlayer r p) := by
  refine LiveAll.modifySession h r (f := fun s => (s.removePlayer p).2) ?_
  intro sid hs q info hq
  change ((sm.session r).players.erase p).lookup q = some info at hq
  rw [Table.lookup_erase_eq_ite] at hq
  split at hq
  · cases hq
  · exact hs q info hq

/-- The entry of one player of one live session is replaced, and the player is in no other
session. -/
theorem PlayersAll.insertPlayer (h : PlayersAll Q sm) (hc : Consistent sm) {sid : SessionID}
    {r : SessionRef} (hr : sm.sessions.lookup sid = some r) {p : PlayerID}
    (honly : ∀ sid', sm.playerIndex.lookup p = some sid' → sid' = sid) {info' : PlayerInfo}
    (hkeep : ∀ sid' q info, q ≠ p → Q sid' q info → Q' sid' q info) (hnew : Q' sid p info') :
    PlayersAll Q' (sm.modifySession r fun s => { s with players := s.players.insert p info' }) := by
  intro sid' r' hr' q info hq
  by_cases hrr : r' = r
  · subst hrr
    obtain rfl := hc.ref_inj hr hr'
    rw [modifySession_session_self] at hq
    change ((sm.session r').players.insert p info').lookup q = some info at hq
    rw [Table.lookup_insert_eq_ite] at hq
    by_cases hqp : q = p
    · rw [if_pos hqp] at hq
      cases hq
      exact hqp ▸ hnew
    · rw [if_neg hqp] at hq
      exact hkeep sid q info hqp (h sid r' hr q info hq)
  · rw [modifySession_session_ne _ _ _ hrr] at hq
    refine hkeep sid' q info ?_ (h sid' r' hr' q info hq)
    rintro rfl
    have hsid := honly sid' ((hc.mem_iff hr' q).mp (Table.mem_of_lookup hq))
    subst hsid
    change sm.sessions.lookup sid' = some r' at hr'
    rw [hr] at hr'
    exact hrr (Option.some.inj hr').symm

/-- A re-join: the player is in the session, so the reset replaces an entry. -/
theorem PlayersAll.resetPlayer (h : PlayersAll Q sm) (hc : Consistent sm) {sid : SessionID}
    {r : SessionRef} (hr : sm.sessions.lookup sid = some r) {p : PlayerID}
    (hi : sm.playerIndex.lookup p = some sid)
    (hkeep : ∀ sid' q info, q ≠ p → Q sid' q info → Q' sid' q info)
    (hreset : ∀ info : PlayerInfo, Q sid p info → Q' sid p info.resetTransport) :
    PlayersAll Q' (sm.modifySession r (·.resetPlayerTransport p)) := by
  obtain ⟨info, hinfo⟩ := Table.lookup_of_mem ((hc.mem_iff hr p).mpr hi)
  have honly : ∀ sid', sm.playerIndex.lookup p = some sid' → sid' = sid := by
    intro sid' hi'
    rw [hi] at hi'
    exact (Option.some.inj hi').symm
  have hins := h.insertPlayer hc hr honly hkeep (hreset info (h sid r hr p info hinfo))
  rwa [modifySession_congr (g := (·.resetPlayerTransport p))] at hins
  simp only [Session.resetPlayerTransport, Table.adjust, hinfo]

/-- A join of a player that is nowhere. -/
theorem PlayersAll.putPlayer (h : PlayersAll Q sm) (hc : Consistent sm) {sid : SessionID}
    {r : SessionRef} (hr : sm.sessions.lookup sid = some r) {p : PlayerID}
    (hi : sm.playerIndex.lookup p = none) {info' : PlayerInfo}
    (hkeep : ∀ sid' q info, q ≠ p → Q sid' q info → Q' sid' q info) (hnew : Q' sid p info') :
    PlayersAll Q' (sm.putPlayer r sid p info') := by
  refine h.insertPlayer hc hr (fun sid' hi' => ?_) hkeep hnew
  rw [hi] at hi'
  cases hi'

/-- A call: `Q'` must hold of whoever joins and follow from `Q` for everybody else. -/
theorem PlayersAll.outcome (h : PlayersAll Q sm) (hc : Consistent sm) {c : Call}
    {res : Except SessionError Unit} {sm' : SessionManager} (ho : CallOutcome sm c res sm')
    (hkeep : ∀ sid q info, (∀ sid', joinedBy c res ≠ some (sid', q)) → Q sid q info → Q' sid q info)
    (hjoin : ∀ sid p, joinedBy c res = some (sid, p) →
      (∀ login, Q' sid p { playerID := p, login := login }) ∧
      ∀ info : PlayerInfo, Q sid p info → Q' sid p info.resetTransport) :
    PlayersAll Q' sm' := by
  have hall : joinedBy c res = none → ∀ sid q info, Q sid q info → Q' sid q info := by
    intro hnone sid q info
    refine hkeep sid q info fun sid' he => ?_
    rw [hnone] at he
    cases he
  have hothers : ∀ sid p, joinedBy c res = some (sid, p) →
      ∀ sid' q info, q ≠ p → Q sid' q info → Q' sid' q info := by
    intro sid p hj sid' q info hne
    refine hkeep sid' q info fun sid'' he => hne ?_
    rw [hj] at he
    cases he
    rfl
  cases ho with
  | failed e => exact h.mono (hall (by cases c <;> rfl))
  | created _ _ =>
    refine LiveAll.insertSession (h.mono (hall rfl)) hc.ref_lt fun p info hp => ?_
    rw [newSession, AList.lookup_empty] at hp
    cases hp
  | deleted hr => exact LiveAll.eraseSession (h.mono (hall rfl)) _
  | rejoined hr hi => exact h.resetPlayer hc hr hi (hothers _ _ rfl) (hjoin _ _ rfl).2
  | joined hr hi => exact h.putPlayer hc hr hi (hothers _ _ rfl) ((hjoin _ _ rfl).1 _)
  | refused e _ _ _ => exact (h.dropPlayer _ _).mono (hall rfl)
  | migrated hr _ _ hold hp =>
    exact (h.dropPlayer _ _).putPlayer (hc.dropPlayer hold hp) hr (AList.lookup_erase _ _)
      (hothers _ _ rfl) ((hjoin _ _ rfl).1 _)
  | left hr hp => exact PlayersAll.dropPlayer (h.mono (hall rfl)) _ _

/-- Phase 2 of the reaper only takes entries away. -/
theorem PlayersAll.reapApply (h : PlayersAll Q sm) {clk : ReapClock} {candidates : List ReapCandidate}
    (hd : Distinct candidates) : PlayersAll Q (reapApply clk candidates sm).sm := by
  intro sid r hr p info hp
  have e := reapEffect_reapApply clk hd sm
  have hr' := ((lookup_reapApply_sessions hd sid r).mp hr).2
  refine h sid r hr' p info ?_
  by_cases hcand : ∃ c ∈ candidates, r = c.session
  · obtain ⟨c, hcm, rfl⟩ := hcand
    rw [e.session_mem c hcm, Table.lookup_eraseAll] at hp
    split at hp
    · cases hp
    · exact hp
  · rw [e.session_other r fun c hcm he => hcand ⟨c, hcm, he⟩] at hp
    exact hp

theorem SameTables.playersAll {sm' : SessionManager} (hs : SameTables sm sm') (h : PlayersAll Q sm) :
    PlayersAll Q sm' := hs.liveAll h

end PlayersAll

/-! ## The sender of a packet -/

/-- What a packet with verdict `v` does to its sender: it is remembered if it is accepted, and
otherwise leaves no trace but the rate counter. -/
structure Heard (src : Endpoint) (now : Instant) (v : PacketVerdict) (p p' : PlayerInfo) : Prop where
  accepted : v.accepted = true → p'.endpoint = some src ∧ p'.lastSeen = some now
  rejected : v.accepted = false → p'.endpoint = p.endpoint ∧ p'.lastSeen = p.lastSeen

theorem heard_rejected (src : Endpoint) (now : Instant) {v : PacketVerdict} (hv : v.accepted = false)
    {p p' : PlayerInfo} (he : p'.endpoint = p.endpoint) (hl : p'.lastSeen = p.lastSeen) :
    Heard src now v p p' := by
  refine ⟨fun h => ?_, fun _ => ⟨he, hl⟩⟩
  rw [hv] at h
  cases h

theorem accepted_firstAddr_or_ok (b : Bool) :
    (if b then PacketVerdict.firstAddr else PacketVerdict.ok).accepted = true := by
  cases b <;> rfl

theorem heard_accepted (src : Endpoint) (now : Instant) (b : Bool) {p p' : PlayerInfo}
    (he : p'.endpoint = some src) (hl : p'.lastSeen = some now) :
    Heard src now (if b then .firstAddr else .ok) p p' := by
  refine ⟨fun _ => ⟨he, hl⟩, fun h => ?_⟩
  rw [accepted_firstAddr_or_ok] at h
  cases h

theorem checkRate_endpoint (p : PlayerInfo) (nowUnix : ℤ) :
    (p.checkRate nowUnix).2.endpoint = p.endpoint := by
  unfold PlayerInfo.checkRate
  dsimp only
  split <;> rfl

theorem checkRate_lastSeen (p : PlayerInfo) (nowUnix : ℤ) :
    (p.checkRate nowUnix).2.lastSeen = p.lastSeen := by
  unfold PlayerInfo.checkRate
  dsimp only
  split <;> rfl

theorem heard_receiveUDP (p : PlayerInfo) (addr : AddrPort) (now : Instant) :
    Heard (.udp addr) now (p.receiveUDP addr now).1 p (p.receiveUDP addr now).2 := by
  have haccept : Heard (.udp addr) now (PlayerInfo.receiveUDP.accept addr now p).1 p
      (PlayerInfo.receiveUDP.accept addr now p).2 := by
    have hend := checkRate_endpoint p (unix now)
    have hseen := checkRate_lastSeen p (unix now)
    unfold PlayerInfo.receiveUDP.accept
    cases hrate : p.checkRate (unix now) with
    | mk fine p1 =>
      rw [hrate] at hend hseen
      cases fine with
      | false => exact heard_rejected _ _ rfl hend hseen
      | true => exact heard_accepted _ _ _ rfl rfl
  unfold PlayerInfo.receiveUDP
  split
  · split
    · exact heard_rejected _ _ rfl rfl rfl
    · exact haccept
  · exact haccept

theorem heard_receiveTCP (p : PlayerInfo) (conn : Conn) (now : Instant) :
    Heard (.tcp conn) now (p.receiveTCP conn now).1 p (p.receiveTCP conn now).2.2 := by
  have hend := checkRate_endpoint p (unix now)
  have hseen := checkRate_lastSeen p (unix now)
  unfold PlayerInfo.receiveTCP
  split
  · exact heard_rejected _ _ rfl rfl rfl
  · cases hrate : p.checkRate (unix now) with
    | mk fine p1 =>
      rw [hrate] at hend hseen
      cases fine with
      | false => exact heard_rejected _ _ rfl hend hseen
      | true => exact heard_accepted _ _ _ rfl rfl

/-- The update of a player that is in the session replaces its entry. -/
theorem updatePlayer_of_lookup (src : Endpoint) {sm : SessionManager} {r : SessionRef} {p : PlayerID}
    {info : PlayerInfo} (hp : (sm.session r).players.lookup p = some info) (now : Instant) :
    ∃ v info', sm.updatePlayer src r p now =
        (v, sm.modifySession r fun s => { s with players := s.players.insert p info' }) ∧
      Heard src now v info info' := by
  cases src with
  | udp addr =>
    refine ⟨_, (info.receiveUDP addr now).2, ?_, heard_receiveUDP info addr now⟩
    simp only [updatePlayer, updatePlayerAddr]
    refine Prod.ext ?_ (modifySession_congr ?_)
    · simp only [Session.updatePlayerAddr, hp]
    · simp only [Session.updatePlayerAddr, hp]
  | tcp conn =>
    refine ⟨_, (info.receiveTCP conn now).2.2, ?_, heard_receiveTCP info conn now⟩
    simp only [updatePlayer, updatePlayerTCP]
    refine Prod.ext ?_ (modifySession_congr ?_)
    · simp only [Session.updatePlayerTCP, hp]
    · simp only [Session.updatePlayerTCP, hp]

/-- The update of a player that is not in the session does nothing. -/
theorem updatePlayer_of_notMem (src : Endpoint) {sm : SessionManager} {r : SessionRef} {p : PlayerID}
    (hp : (sm.session r).players.lookup p = none) (now : Instant) :
    sm.updatePlayer src r p now = (.unknown, sm) := by
  cases src with
  | udp addr =>
    simp only [updatePlayer, updatePlayerAddr]
    refine Prod.ext ?_ (modifySession_eq_self ?_)
    · simp only [Session.updatePlayerAddr, hp]
    · simp only [Session.updatePlayerAddr, hp]
  | tcp conn =>
    simp only [updatePlayer, updatePlayerTCP]
    refine Prod.ext ?_ (modifySession_eq_self ?_)
    · simp only [Session.updatePlayerTCP, hp]
    · simp only [Session.updatePlayerTCP, hp]

theorem Consistent.updatePlayer {sm : SessionManager} (hc : Consistent sm) (src : Endpoint)
    (r : SessionRef) (p : PlayerID) (now : Instant) : Consistent (sm.updatePlayer src r p now).2 := by
  cases src with
  | udp addr => exact hc.tableStep (.updatePlayerAddr r p addr now)
  | tcp conn => exact hc.tableStep (.updatePlayerTCP r p conn now)

end SessionManager
end SturmRelay
