import SturmRelay.Relay.Connections

/-! # Connections in the entries of players

Which connections the `TCPConn` fields of players name, and what the operations of the session manager do to
them. Only `UpdatePlayerTCP` names a connection that was not named before, and it names it for one player
of one session object (`Replaces`); everything else can only take names away (`Shrinks`). A session object
that has been deleted keeps its entries: a goroutine that has found it before still works on it. -/

namespace SturmRelay
set_option autoImplicit false

namespace SessionManager
variable {sm sm' : SessionManager} {r r' : SessionRef} {p q : PlayerID} {c conn : Conn}

/-- The connections named by the entries that `keep` picks, in all session objects there are. -/
def entryConns (keep : SessionRef → PlayerID → Bool) (sm : SessionManager) : List Conn :=
  (List.range sm.heap.next).flatMap fun r => (sm.session r).players.entries.filterMap fun e =>
    if keep r e.1 then e.2.tcpConn else none

/-- The session objects in the map. -/
def live (sm : SessionManager) : List SessionRef := sm.sessions.entries.map (·.2)

theorem mem_live : r ∈ sm.live ↔ ∃ sid, sm.sessions.lookup sid = some r := by
  unfold live
  simp only [List.mem_map, Sigma.exists, ← AList.mem_lookup_iff, Option.mem_def, exists_eq_right]

def Names (sm : SessionManager) (r : SessionRef) (p : PlayerID) (c : Conn) : Prop :=
  ∃ info, (sm.session r).players.lookup p = some info ∧ info.tcpConn = some c

theorem mem_entryConns {keep : SessionRef → PlayerID → Bool} : c ∈ sm.entryConns keep ↔
    ∃ r p, r < sm.heap.next ∧ keep r p = true ∧ sm.Names r p c := by
  unfold entryConns Names
  simp only [List.mem_flatMap, List.mem_range, List.mem_filterMap, Option.ite_none_right_eq_some,
    Sigma.exists, ← AList.mem_lookup_iff, Option.mem_def]
  constructor
  · rintro ⟨r, hr, p, info, hp, hkeep, hc⟩
    exact ⟨r, p, hr, hkeep, info, hp, hc⟩
  · rintro ⟨r, p, hr, hkeep, info, hp, hc⟩
    exact ⟨r, hr, p, info, hp, hkeep, hc⟩

/-- The operation names no connection that was not named before, and puts no session object back into the
map. -/
structure Shrinks (sm sm' : SessionManager) : Prop where
  consistent : Consistent sm'
  next : sm.heap.next ≤ sm'.heap.next
  live : ∀ r ∈ sm'.live, r < sm.heap.next → r ∈ sm.live
  names : ∀ r p c, r < sm'.heap.next → sm'.Names r p c → r < sm.heap.next ∧ sm.Names r p c

theorem SameTables.shrinks (h : SameTables sm sm') (hc : Consistent sm) : Shrinks sm sm' where
  consistent := h.consistent hc
  next := by rw [h.heap]
  live r hr _ := by
    unfold SessionManager.live at hr ⊢
    rwa [h.sessions] at hr
  names r p c hr hn := by
    unfold Names at hn
    rw [h.session] at hn
    exact ⟨h.heap ▸ hr, hn⟩

theorem Shrinks.trans {sm'' : SessionManager} (h : Shrinks sm sm') (h' : Shrinks sm' sm'') :
    Shrinks sm sm'' where
  consistent := h'.consistent
  next := h.next.trans h'.next
  live r hr hlt := h.live r (h'.live r hr (hlt.trans_le h.next)) hlt
  names r p c hr hn := by
    obtain ⟨hr', hn'⟩ := h'.names r p c hr hn
    exact h.names r p c hr' hn'

/-- A change of one session object. -/
theorem names_modifySession {f : Session → Session}
    (hf : ∀ p info, (f (sm.session r)).players.lookup p = some info → info.tcpConn = some c →
      sm.Names r p c) (h : (sm.modifySession r f).Names r' p c) : sm.Names r' p c := by
  by_cases hr : r' = r
  · subst hr
    obtain ⟨info, hp, hc⟩ := h
    rw [modifySession_session_self] at hp
    exact hf p info hp hc
  · unfold Names at h
    rw [modifySession_session_ne _ _ _ hr] at h
    exact h

theorem names_erase {players : Table PlayerID PlayerInfo} (hplayers : (sm.session r).players = players)
    {info : PlayerInfo} (hp : (players.erase q).lookup p = some info) (hc : info.tcpConn = some c) :
    sm.Names r p c := by
  rw [Table.lookup_erase_eq_ite] at hp
  split at hp
  · cases hp
  · exact ⟨info, hplayers ▸ hp, hc⟩

theorem names_dropPlayer (h : (sm.dropPlayer r q).Names r' p c) : sm.Names r' p c :=
  names_modifySession (f := fun s => (s.removePlayer q).2) (fun _ _ hp hc => names_erase rfl hp hc) h

theorem names_putPlayer {sid : SessionID} {login : String}
    (h : (sm.putPlayer r sid q { playerID := q, login := login }).Names r' p c) : sm.Names r' p c := by
  refine names_modifySession
    (f := fun s => { s with players := s.players.insert q { playerID := q, login := login } })
    (fun p info hp hc => ?_) h
  rw [Table.lookup_insert_eq_ite] at hp
  split at hp
  · cases hp
    cases hc
  · exact ⟨info, hp, hc⟩

theorem names_resetPlayer (h : (sm.modifySession r (·.resetPlayerTransport q)).Names r' p c) :
    sm.Names r' p c := by
  refine names_modifySession (fun p info hp hc => ?_) h
  unfold Session.resetPlayerTransport at hp
  rw [Table.lookup_adjust] at hp
  split at hp
  · obtain ⟨info', -, rfl⟩ := Option.map_eq_some_iff.mp hp
    cases hc
  · exact ⟨info, hp, hc⟩

theorem names_putSession {id : SessionID} {maxPlayers : ℤ} {now : Instant}
    (hr : r < (sm.putSession id maxPlayers now).heap.next) (h : (sm.putSession id maxPlayers now).Names r p c) :
    r < sm.heap.next ∧ sm.Names r p c := by
  obtain ⟨info, hp, hc⟩ := h
  change ((sm.heap.alloc (newSession id maxPlayers now)).cell r).players.lookup p = some info at hp
  rcases Nat.lt_succ_iff_lt_or_eq.mp hr with hlt | rfl
  · rw [Heap.alloc_cell_of_lt _ _ hlt] at hp
    exact ⟨hlt, info, hp, hc⟩
  · rw [Heap.alloc_cell_self, newSession, AList.lookup_empty] at hp
    cases hp

theorem shrinks_call (hc : Consistent sm) (call : Call) : Shrinks sm (sm.call call).2 := by
  have ho := call_outcome hc call
  generalize (sm.call call).1 = res at ho
  generalize (sm.call call).2 = sm' at ho
  refine ⟨hc.outcome ho, ?_, fun r hr hlt => ?_, fun r p c hr hn => ?_⟩
  · cases ho with
    | created hid hlen => exact Nat.le_succ _
    | _ => exact le_refl _
  · cases ho with
    | created hid hlen =>
      obtain ⟨sid, hsid⟩ := mem_live.mp hr
      change (sm.sessions.insert _ sm.heap.next).lookup sid = some r at hsid
      rw [Table.lookup_insert_eq_ite] at hsid
      split at hsid
      · cases hsid
        exact absurd hlt (Nat.lt_irrefl _)
      · exact mem_live.mpr ⟨sid, hsid⟩
    | deleted hlookup =>
      obtain ⟨sid, hsid⟩ := mem_live.mp hr
      change (sm.sessions.erase _).lookup sid = some r at hsid
      rw [Table.lookup_erase_eq_ite] at hsid
      split at hsid
      · cases hsid
      · exact mem_live.mpr ⟨sid, hsid⟩
    | _ => exact hr
  · cases ho with
    | failed e => exact ⟨hr, hn⟩
    | created hid hlen => exact names_putSession hr hn
    | deleted hlookup => exact ⟨hr, hn⟩
    | rejoined hlookup hi => exact ⟨hr, names_resetPlayer hn⟩
    | joined hlookup hi hcap hroom => exact ⟨hr, names_putPlayer hn⟩
    | refused e hi hold hp => exact ⟨hr, names_dropPlayer hn⟩
    | migrated hlookup hi hs hold hp hroom => exact ⟨hr, names_dropPlayer (names_putPlayer hn)⟩
    | left hlookup hp => exact ⟨hr, names_dropPlayer hn⟩

theorem shrinks_updatePlayerAddr (hc : Consistent sm) (r : SessionRef) (q : PlayerID) (addr : AddrPort)
    (now : Instant) : Shrinks sm (sm.updatePlayerAddr r q addr now).2 := by
  refine ⟨hc.updatePlayer (.udp addr) r q now, le_refl _, fun _ hr _ => hr, fun r' p c hr hn => ⟨hr, ?_⟩⟩
  refine names_modifySession (fun p info hp hconn => ?_) hn
  cases hq : (sm.session r).players.lookup q with
  | none =>
    simp only [Session.updatePlayerAddr, hq] at hp
    exact ⟨info, hp, hconn⟩
  | some info' =>
    simp only [Session.updatePlayerAddr, hq] at hp
    rw [Table.lookup_insert_eq_ite] at hp
    split at hp
    · next he =>
      cases hp
      rcases receiveUDP_tcpConn info' addr now with hkeep | hnone
      · exact ⟨info', he ▸ hq, hkeep ▸ hconn⟩
      · rw [hnone] at hconn
        cases hconn
    · exact ⟨info, hp, hconn⟩

/-- The player's pinned address is another one than the connection's. -/
def PinnedElsewhere (sm : SessionManager) (r : SessionRef) (p : PlayerID) (conn : Conn) : Prop :=
  ∃ info ∈ (sm.session r).players.lookup p, info.tcpIP.isSome ∧ info.tcpIP ≠ tcpConnIP conn

instance (sm : SessionManager) (r : SessionRef) (p : PlayerID) (conn : Conn) :
    Decidable (sm.PinnedElsewhere r p conn) := inferInstanceAs (Decidable (∃ info ∈ _, _))

/-- What `UpdatePlayerTCP` can do: refuse the frame, or replace the connection of its sender. -/
inductive Replaces (sm : SessionManager) (r : SessionRef) (q : PlayerID) (conn : Conn) :
    PacketVerdict × Option Conn × SessionManager → Prop
  | refused {v : PacketVerdict} {sm' : SessionManager} (hv : v.accepted = false)
      (hspoofed : v = .spoofed → sm.PinnedElsewhere r q conn) (hshrinks : Shrinks sm sm') :
      Replaces sm r q conn (v, none, sm')
  | installed {v : PacketVerdict} {sm' : SessionManager} {info : PlayerInfo} (hv : v.accepted = true)
      (hq : (sm.session r).players.lookup q = some info) (hconsistent : Consistent sm')
      (hnext : sm'.heap.next = sm.heap.next) (hlive : sm'.live = sm.live)
      (hnames : ∀ r' p c, sm'.Names r' p c → (r' = r ∧ p = q ∧ c = conn) ∨
        (¬ (r' = r ∧ p = q) ∧ sm.Names r' p c)) : Replaces sm r q conn (v, info.tcpConn, sm')

theorem receiveTCP_replaces (info : PlayerInfo) (conn : Conn) (now : Instant) :
    (∃ v info', info.receiveTCP conn now = (v, none, info') ∧ v.accepted = false ∧
      info'.tcpConn = info.tcpConn ∧
      (v = .spoofed → info.tcpIP.isSome ∧ info.tcpIP ≠ tcpConnIP conn)) ∨
    ∃ v info', info.receiveTCP conn now = (v, info.tcpConn, info') ∧ v.accepted = true ∧
      info'.tcpConn = some conn := by
  have hconn := (info.samePins_checkRate (unix now)).tcpConn
  unfold PlayerInfo.receiveTCP
  split
  · next hspoof => exact Or.inl ⟨_, _, rfl, rfl, rfl, fun _ => hspoof⟩
  · cases hrate : info.checkRate (unix now) with
    | mk fine info1 =>
      rw [hrate] at hconn
      cases fine with
      | false => exact Or.inl ⟨_, _, rfl, rfl, hconn, nofun⟩
      | true =>
        refine Or.inr ⟨_, _, Prod.ext rfl (Prod.ext hconn rfl), ?_, rfl⟩
        split <;> rfl

theorem names_insert {info' : PlayerInfo}
    (h : (sm.modifySession r fun s => { s with players := s.players.insert q info' }).Names r' p c) :
    (r' = r ∧ p = q ∧ info'.tcpConn = some c) ∨ (¬ (r' = r ∧ p = q) ∧ sm.Names r' p c) := by
  obtain ⟨info, hp, hc⟩ := h
  by_cases hr : r' = r
  · subst hr
    rw [modifySession_session_self] at hp
    dsimp only at hp
    rw [Table.lookup_insert_eq_ite] at hp
    split at hp
    · next he =>
      cases hp
      exact Or.inl ⟨rfl, he, hc⟩
    · next he => exact Or.inr ⟨fun hboth => he hboth.2, info, hp, hc⟩
  · rw [modifySession_session_ne _ _ _ hr] at hp
    exact Or.inr ⟨fun hboth => hr hboth.1, info, hp, hc⟩

theorem replaces_updatePlayerTCP (hc : Consistent sm) (r : SessionRef) (q : PlayerID) (conn : Conn)
    (now : Instant) : Replaces sm r q conn (sm.updatePlayerTCP r q conn now) := by
  have hconsistent : Consistent (sm.updatePlayerTCP r q conn now).2.2 := hc.updatePlayer (.tcp conn) r q now
  cases hq : (sm.session r).players.lookup q with
  | none =>
    have heq : sm.updatePlayerTCP r q conn now = (.unknown, none, sm) := by
      have hsame : (sm.modifySession r fun s => (s.updatePlayerTCP q conn now).2.2) = sm :=
        modifySession_eq_self (by simp only [Session.updatePlayerTCP, hq])
      rw [updatePlayerTCP, hsame]
      simp only [Session.updatePlayerTCP, hq]
    rw [heq]
    exact .refused rfl PacketVerdict.noConfusion ((SameTables.refl sm).shrinks hc)
  | some info =>
    obtain ⟨v, old, info', hrecv⟩ : ∃ v old info', info.receiveTCP conn now = (v, old, info') := ⟨_, _, _, rfl⟩
    have heq : sm.updatePlayerTCP r q conn now =
        (v, old, sm.modifySession r fun s => { s with players := s.players.insert q info' }) := by
      have hsame : (sm.modifySession r fun s => (s.updatePlayerTCP q conn now).2.2) =
          sm.modifySession r fun s => { s with players := s.players.insert q info' } :=
        modifySession_congr (by simp only [Session.updatePlayerTCP, hq, hrecv])
      rw [updatePlayerTCP, hsame]
      simp only [Session.updatePlayerTCP, hq, hrecv]
    rw [heq] at hconsistent ⊢
    rcases receiveTCP_replaces info conn now with ⟨v', info'', he, hv, hkeep, hspoof⟩ | ⟨v', info'', he, hv, hnew⟩
    · rw [hrecv] at he
      cases he
      refine .refused hv (fun hs => ⟨info, hq, hspoof hs⟩)
        ⟨hconsistent, le_refl _, fun _ hr _ => hr, fun r' p c hr hn => ⟨hr, ?_⟩⟩
      rcases names_insert hn with ⟨rfl, rfl, hconn⟩ | ⟨-, hold⟩
      · exact ⟨info, hq, hkeep ▸ hconn⟩
      · exact hold
    · rw [hrecv] at he
      cases he
      refine .installed hv hq hconsistent rfl rfl fun r' p c hn => ?_
      refine (names_insert hn).imp_left ?_
      rintro ⟨hr, hp, hconn⟩
      rw [hnew] at hconn
      exact ⟨hr, hp, (Option.some.inj hconn).symm⟩

/-! ## Players without a connection -/

theorem not_names_putPlayer {sid : SessionID} {login : String} :
    ¬ (sm.putPlayer r sid q { playerID := q, login := login }).Names r q c := by
  rintro ⟨info, hp, hc⟩
  change ((sm.modifySession r fun s =>
    { s with players := s.players.insert q { playerID := q, login := login } }).session r).players.lookup q =
      some info at hp
  rw [modifySession_session_self] at hp
  dsimp only at hp
  rw [AList.lookup_insert] at hp
  cases hp
  cases hc

/-- Who has joined is reached over no connection. -/
theorem not_names_of_joined (hc : Consistent sm) {sid : SessionID} {login : String}
    (hr : sm.sessions.lookup sid = some r) (hok : (sm.call (.addPlayerToSession sid q login)).1 = .ok ()) :
    ¬ (sm.call (.addPlayerToSession sid q login)).2.Names r q c := by
  have ho := call_outcome hc (.addPlayerToSession sid q login)
  rw [hok] at ho
  generalize (sm.call (.addPlayerToSession sid q login)).2 = sm' at ho
  cases ho with
  | rejoined hr' hi =>
    cases hr.symm.trans hr'
    rintro ⟨info, hp, hconn⟩
    rw [modifySession_session_self, Session.resetPlayerTransport, Table.lookup_adjust, if_pos rfl] at hp
    obtain ⟨info', -, rfl⟩ := Option.map_eq_some_iff.mp hp
    cases hconn
  | joined hr' hi hcap hroom =>
    cases hr.symm.trans hr'
    exact not_names_putPlayer
  | migrated hr' hi hs hold hp hroom =>
    cases hr.symm.trans hr'
    exact not_names_putPlayer

theorem receiveUDP_of_accepted {info : PlayerInfo} {addr : AddrPort} {now : Instant}
    (hv : (info.receiveUDP addr now).1.accepted = true) : (info.receiveUDP addr now).2.tcpConn = none := by
  have haccept : (PlayerInfo.receiveUDP.accept addr now info).1.accepted = true →
      (PlayerInfo.receiveUDP.accept addr now info).2.tcpConn = none := by
    unfold PlayerInfo.receiveUDP.accept
    cases hrate : info.checkRate (unix now) with
    | mk fine info1 =>
      cases fine with
      | false => exact fun h => absurd h Bool.false_ne_true
      | true => exact fun _ => rfl
  unfold PlayerInfo.receiveUDP at hv ⊢
  split at hv
  · split at hv
    · exact absurd hv Bool.false_ne_true
    · next pinned haddr hpin =>
      simp only [hpin, if_false]
      exact haccept hv
  · next haddr => exact haccept hv

/-- Who has been heard over UDP is reached over no connection. -/
theorem not_names_of_heard {addr : AddrPort} {now : Instant}
    (hv : (sm.updatePlayerAddr r q addr now).1.accepted = true) :
    ¬ (sm.updatePlayerAddr r q addr now).2.Names r q c := by
  rintro ⟨info, hp, hc⟩
  change ((sm.session r).updatePlayerAddr q addr now).1.accepted = true at hv
  change ((sm.modifySession r fun s => (s.updatePlayerAddr q addr now).2).session r).players.lookup q =
    some info at hp
  rw [modifySession_session_self] at hp
  cases hq : (sm.session r).players.lookup q with
  | none =>
    simp only [Session.updatePlayerAddr, hq] at hp
    cases hp
  | some info' =>
    simp only [Session.updatePlayerAddr, hq] at hp hv
    rw [AList.lookup_insert] at hp
    cases hp
    rw [receiveUDP_of_accepted hv] at hc
    cases hc

end SessionManager

/-! ## Packets -/

namespace SessionManager
variable {sm sm' : SessionManager} {net : Network} {data : Bytes} {sent : List Sent} {c : Conn}

theorem wire_of_writeTCPFrame {data bytes : Bytes} (h : writeTCPFrame data = .ok bytes) (conn : Conn) :
    (Endpoint.tcp conn).wire data = bytes := by
  by_cases hlen : data.length ≤ maxTCPFramePayload
  · rw [writeTCPFrame_of_le hlen conn] at h
    exact Except.ok.inj h
  · rw [writeTCPFrame_of_lt (Nat.lt_of_not_le hlen)] at h
    cases h

theorem sameTables_deliver {t : PlayerSendTarget} (h : sm.deliver net data t = .ok (sm', sent)) :
    SameTables sm sm' := by
  by_cases hfits : FitsFrame data t
  · obtain ⟨sm1, heq, hsame⟩ := deliver_of_fits net hfits sm
    rw [heq] at h
    cases h
    exact hsame
  · obtain ⟨f, heq⟩ := deliver_of_not_fits net hfits sm
    rw [heq] at h
    cases h

end SessionManager

end SturmRelay
