import SturmRelay.Relay.Delivery
import SturmRelay.Relay.Pinning

/-! # Connections the server has closed

Three places of the server close a connection: `handleConn` when it leaves its loop (a spoofed
frame, an echo that cannot be written), `handleConn` again for the connection its sender had before,
and the reaper for the players it evicts. A write to a closed connection fails. `Server` is the relay
together with the connections it has closed so far; how the network treats the writes that are left
is up to each event (`NetEvent`), since it may change from one packet to the next.

A `Close` that the code leaves to a goroutine is taken to have happened when the step ends. -/

namespace SturmRelay
set_option autoImplicit false

def Endpoint.conn? : Endpoint → Option Conn
  | .udp _ => none
  | .tcp conn => some conn

/-- Writes to closed connections fail. -/
def Network.without (net : Network) (closed : List Conn) : Network := fun e bytes =>
  match e with
  | .udp addr => net (.udp addr) bytes
  | .tcp conn => decide (conn ∉ closed) && net (.tcp conn) bytes

namespace SessionManager

/-! ## The server -/

namespace RelayReply

def closed : RelayReply → List Conn
  | .handled _ _ closed => closed
  | .reaped _ _ closed => closed
  | _ => []

def sent : RelayReply → List Sent
  | .handled _ sent _ => sent
  | _ => []

def verdict : RelayReply → Option PacketVerdict
  | .handled verdict _ _ => verdict
  | _ => none

end RelayReply

structure Server where
  relay : Relay := .start
  closed : List Conn := []

structure NetEvent where
  net : Network
  ev : RelayEvent

def netStep (s : Server) (e : NetEvent) : Server × RelayReply :=
  let out := relayStep (e.net.without s.closed) s.relay e.ev
  (⟨out.1, s.closed ++ out.2.closed⟩, out.2)

end SessionManager

/-! ## Packets -/

/-- The update of the sender, with the connection it had before. -/
def Session.updateSender (src : Endpoint) (p : PlayerID) (now : Instant) (s : Session) :
    PacketVerdict × Option Conn × Session :=
  match src with
  | .udp addr => ((s.updatePlayerAddr p addr now).1, none, (s.updatePlayerAddr p addr now).2)
  | .tcp conn => s.updatePlayerTCP p conn now

theorem receiveUDP_tcpConn (p : PlayerInfo) (addr : AddrPort) (now : Instant) :
    (p.receiveUDP addr now).2.tcpConn = p.tcpConn ∨ (p.receiveUDP addr now).2.tcpConn = none := by
  have haccept : (PlayerInfo.receiveUDP.accept addr now p).2.tcpConn = p.tcpConn ∨
      (PlayerInfo.receiveUDP.accept addr now p).2.tcpConn = none := by
    have hconn := (p.samePins_checkRate (unix now)).tcpConn
    unfold PlayerInfo.receiveUDP.accept
    cases hrate : p.checkRate (unix now) with
    | mk fine p1 =>
      rw [hrate] at hconn
      cases fine with
      | false => exact Or.inl hconn
      | true => exact Or.inr rfl
  unfold PlayerInfo.receiveUDP
  split
  · split
    · exact Or.inl rfl
    · exact haccept
  · exact haccept

theorem receiveTCP_tcpConn (p : PlayerInfo) (conn : Conn) (now : Instant) :
    ((p.receiveTCP conn now).2.2.tcpConn = p.tcpConn ∨
      (p.receiveTCP conn now).2.2.tcpConn = some conn) ∧
    ((p.receiveTCP conn now).2.1 = none ∨ (p.receiveTCP conn now).2.1 = p.tcpConn) := by
  have hconn := (p.samePins_checkRate (unix now)).tcpConn
  unfold PlayerInfo.receiveTCP
  split
  · exact ⟨Or.inl rfl, Or.inl rfl⟩
  · cases hrate : p.checkRate (unix now) with
    | mk fine p1 =>
      rw [hrate] at hconn
      cases fine with
      | false => exact ⟨Or.inl hconn, Or.inl rfl⟩
      | true => exact ⟨Or.inr rfl, Or.inr hconn⟩

/-- The entry the sender ends up with, as far as connections go. -/
theorem Session.updateSender_of_lookup (src : Endpoint) {p : PlayerID} {s : Session} {info : PlayerInfo}
    (hp : s.players.lookup p = some info) (now : Instant) :
    ∃ info', (s.updateSender src p now).2.2 = { s with players := s.players.insert p info' } ∧
      (∀ c, info'.tcpConn = some c → info.tcpConn = some c ∨ src = .tcp c) ∧
      ∀ c, (s.updateSender src p now).2.1 = some c → info.tcpConn = some c := by
  cases src with
  | udp addr =>
    refine ⟨(info.receiveUDP addr now).2, ?_, fun c hc => Or.inl ?_, fun c hc => ?_⟩
    · simp only [Session.updateSender, Session.updatePlayerAddr, hp]
    · rcases receiveUDP_tcpConn info addr now with h | h
      · exact h ▸ hc
      · rw [h] at hc
        cases hc
    · cases hc
  | tcp conn =>
    obtain ⟨hnew, hold⟩ := receiveTCP_tcpConn info conn now
    refine ⟨(info.receiveTCP conn now).2.2, ?_, fun c hc => ?_, fun c hc => ?_⟩
    · simp only [Session.updateSender, Session.updatePlayerTCP, hp]
    · rcases hnew with h | h
      · exact Or.inl (h ▸ hc)
      · rw [h] at hc
        cases hc
        exact Or.inr rfl
    · simp only [Session.updateSender, Session.updatePlayerTCP, hp] at hc
      rcases hold with h | h
      · rw [h] at hc
        cases hc
      · exact h ▸ hc

namespace SessionManager

/-- The copies of a packet with verdict `v`, in the sender's session after the update. -/
def copiesOf (net : Network) (o : RangeOrder PlayerID) (src : Endpoint) (data : Bytes)
    (v : PacketVerdict) (s : Session) : List Sent :=
  if v.accepted then (recipients o src data s).filterMap (copyFor net data) else []

/-- The packet does not fit the frame buffer of a player it goes to. -/
def Overruns (o : RangeOrder PlayerID) (src : Endpoint) (data : Bytes) (v : PacketVerdict)
    (s : Session) : Prop :=
  v.accepted = true ∧ ∃ t ∈ recipients o src data s, t.tcpConn.isSome ∧ maxTCPFramePayload < data.length

instance (o : RangeOrder PlayerID) (src : Endpoint) (data : Bytes) (v : PacketVerdict) (s : Session) :
    Decidable (Overruns o src data v s) := inferInstanceAs (Decidable (_ ∧ _))

/-- The connections the packet makes the server close; `old` is the one its sender had before. -/
def closedBy (net : Network) (src : Endpoint) (data : Bytes) (v : PacketVerdict) (old : Option Conn) :
    List Conn :=
  match src with
  | .udp _ => []
  | .tcp conn => (old.filter (· ≠ conn)).toList ++
      if v = .spoofed ∨ (v.accepted = true ∧ destOf data = senderOf data ∧
        net src (src.wire data) = false) then [conn] else []

theorem mem_closedBy {net : Network} {src : Endpoint} {data : Bytes} {v : PacketVerdict}
    {old : Option Conn} {c : Conn} (h : c ∈ closedBy net src data v old) : old = some c ∨ src = .tcp c := by
  cases src with
  | udp addr => exact absurd h List.not_mem_nil
  | tcp conn =>
    rcases List.mem_append.mp h with h | h
    · rw [Option.mem_toList, Option.filter_eq_some_iff] at h
      exact Or.inl h.1
    · split at h
      · rw [List.mem_singleton.mp h]
        exact Or.inr rfl
      · exact absurd h List.not_mem_nil

section Packet
variable {net : Network} {o : RangeOrder PlayerID} {src : Endpoint} {data : Bytes} {now : Instant}
  {sm : SessionManager} {r : SessionRef} {h : Handled}

theorem updatePlayer_eq_updateSender (p : PlayerID) : sm.updatePlayer src r p now =
    (((sm.session r).updateSender src p now).1, sm.modifySession r fun s => (s.updateSender src p now).2.2) := by
  cases src <;> rfl

theorem answerFrame_closed {conn : Conn} {v : PacketVerdict} {old : Option Conn}
    (hok : sm.answerFrame net o conn data (senderOf data) (destOf data) r v old = .ok h) :
    h.closed = closedBy net (.tcp conn) data v old := by
  unfold answerFrame at hok
  unfold closedBy
  dsimp only at hok ⊢
  by_cases hv : v.accepted = true
  · have hspoof : v ≠ .spoofed := by
      rintro rfl
      cases hv
    rw [if_pos hv] at hok
    by_cases hecho : destOf data = senderOf data
    · rw [if_pos hecho] at hok
      by_cases hlen : data.length ≤ maxTCPFramePayload
      · rw [writeTCPFrame_of_le hlen conn] at hok
        by_cases hnet : net (.tcp conn) ((Endpoint.tcp conn).wire data) = true
        · have hres := (if_pos hnet).symm.trans hok
          cases hres
          rw [if_neg (by simp [hspoof, hnet]), List.append_nil]
        · have hres := (if_neg hnet).symm.trans hok
          cases hres
          rw [if_pos (Or.inr ⟨hv, hecho, by simpa using hnet⟩)]
      · rw [writeTCPFrame_of_lt (Nat.lt_of_not_le hlen)] at hok
        cases hok
    · rw [if_neg hecho] at hok
      rw [if_neg (by simp [hspoof, hecho]), List.append_nil]
      cases hroute : sm.route net o r (senderOf data) (destOf data) data with
      | error f =>
        rw [hroute] at hok
        cases hok
      | ok out =>
        rw [hroute] at hok
        cases hok
        rfl
  · rw [if_neg hv] at hok
    cases hok
    simp [hv]

theorem answerDatagram_closed {remoteAddr : AddrPort} {v : PacketVerdict}
    (hok : sm.answerDatagram net o remoteAddr data (senderOf data) (destOf data) r v = .ok h) :
    h.closed = [] := by
  unfold answerDatagram at hok
  split at hok
  · split at hok
    · cases hok
      rfl
    · cases hroute : sm.route net o r (senderOf data) (destOf data) data with
      | error f =>
        rw [hroute] at hok
        cases hok
      | ok out =>
        rw [hroute] at hok
        cases hok
        rfl
  · cases hok
    rfl

theorem handlePacket_closed (hlen : relayHeaderSize ≤ data.length)
    (hr : sm.findSessionByPlayer (senderOf data) = some r)
    (hok : sm.handlePacket net o src data now = .ok h) :
    h.closed = closedBy net src data ((sm.session r).updateSender src (senderOf data) now).1
      ((sm.session r).updateSender src (senderOf data) now).2.1 := by
  cases src with
  | udp remoteAddr =>
    exact answerDatagram_closed ((withSender_of_found hlen hr _).symm.trans hok)
  | tcp conn =>
    have heq := withSender_of_found hlen hr fun senderID destID r =>
      (sm.updatePlayerTCP r senderID conn now).2.2.answerFrame net o conn data senderID destID r
        (sm.updatePlayerTCP r senderID conn now).1 (sm.updatePlayerTCP r senderID conn now).2.1
    exact answerFrame_closed (heq.symm.trans hok)

variable (net o) in
/-- What a packet with a registered sender does, in terms of the sender's session. -/
theorem handlePacket_found (hlen : relayHeaderSize ≤ data.length)
    (hr : sm.findSessionByPlayer (senderOf data) = some r) {v : PacketVerdict} {old : Option Conn}
    {s' : Session} (hrecv : (sm.session r).updateSender src (senderOf data) now = (v, old, s')) :
    (Overruns o src data v s' → ∃ f, sm.handlePacket net o src data now = .error f) ∧
    (¬ Overruns o src data v s' → ∃ h, sm.handlePacket net o src data now = .ok h ∧
      Handles (sm.modifySession r fun _ => s') v (copiesOf net o src data v s') h ∧
      h.closed = closedBy net src data v old) := by
  have hmod : (sm.modifySession r fun s => (s.updateSender src (senderOf data) now).2.2) =
      sm.modifySession r fun _ => s' := modifySession_congr (by rw [hrecv])
  have hu : sm.updatePlayer src r (senderOf data) now = (v, sm.modifySession r fun _ => s') := by
    rw [updatePlayer_eq_updateSender, hmod, hrecv]
  have ha := handlePacket_answer net o hlen hr hu
  have hsession : (sm.modifySession r fun _ => s').session r = s' := modifySession_session_self ..
  have hclosed : ∀ h, sm.handlePacket net o src data now = .ok h → h.closed = closedBy net src data v old := by
    intro h hok
    rw [handlePacket_closed hlen hr hok, hrecv]
  constructor
  · rintro ⟨hv, t, ht, htcp, hbig⟩
    refine ha.panics hv fun hall => ?_
    rw [hsession] at hall
    exact Nat.not_le.mpr hbig (hall t ht htcp)
  · intro hno
    unfold copiesOf
    cases hv : v.accepted with
    | false =>
      obtain ⟨h, hok, hh⟩ := ha.rejected hv
      exact ⟨h, hok, hh, hclosed h hok⟩
    | true =>
      obtain ⟨h, hok, hh⟩ := ha.accepted hv (by
        rw [hsession]
        exact fun t ht htcp => Nat.le_of_not_lt fun hbig => hno ⟨hv, t, ht, htcp, hbig⟩)
      rw [hsession] at hh
      exact ⟨h, hok, hh, hclosed h hok⟩

end Packet

/-- A recipient is the sender itself, or a player of the session under its own entry. -/
theorem mem_recipients {o : RangeOrder PlayerID} {src : Endpoint} {data : Bytes} {s : Session}
    {t : PlayerSendTarget} (h : t ∈ recipients o src data s) :
    t = echoTarget src (senderOf data) ∨
      ∃ info, s.players.lookup t.playerID = some info ∧ t = targetOf t.playerID info := by
  unfold recipients targets at h
  split at h
  · exact Or.inl (List.mem_singleton.mp h)
  · split at h
    · obtain ⟨p, info, hp, -, -, rfl⟩ := mem_forEachOtherPlayerTarget.mp h
      exact Or.inr ⟨info, hp, rfl⟩
    · obtain ⟨info, hp, rfl⟩ := Option.map_eq_some_iff.mp (Option.mem_toList.mp h)
      exact Or.inr ⟨info, hp, rfl⟩

theorem mem_copiesOf {net : Network} {o : RangeOrder PlayerID} {src : Endpoint} {data : Bytes}
    {v : PacketVerdict} {s : Session} {copy : Sent} (h : copy ∈ copiesOf net o src data v s) :
    copy.playerID = senderOf data ∨ copy.playerID ∈ s.players := by
  unfold copiesOf at h
  split at h
  · obtain ⟨t, ht, hcopy⟩ := List.mem_filterMap.mp h
    obtain ⟨e, -, he⟩ := Option.bind_eq_some_iff.mp hcopy
    have hid : copy.playerID = t.playerID := by
      split at he
      · cases he
        rfl
      · cases he
    rw [hid]
    rcases mem_recipients ht with rfl | ⟨info, hp, -⟩
    · exact Or.inl (echoTarget_playerID src _)
    · exact Or.inr (Table.mem_of_lookup hp)
  · exact absurd h List.not_mem_nil

/-! ## The reaper -/

/-- The connection of a player, if it has one. -/
def connOf (s : Session) (p : PlayerID) : List Conn :=
  ((s.players.lookup p).bind PlayerInfo.tcpConn).toList

theorem mem_connOf {s : Session} {p : PlayerID} {c : Conn} :
    c ∈ connOf s p ↔ ∃ info, s.players.lookup p = some info ∧ info.tcpConn = some c := by
  unfold connOf
  rw [Option.mem_toList, Option.bind_eq_some_iff]

theorem reapPlayer_closed (clk : ReapClock) (c : ReapCandidate) (st : ReapState) (p : PlayerID) :
    (reapPlayer clk c st p).closed = st.closed ++
      if (st.sm.session c.session).staleAt playerTimeout (clk.check c.sessionID p) p
        then connOf (st.sm.session c.session) p else [] := by
  unfold reapPlayer Session.removePlayerIfStale Session.staleAt connOf
  cases hp : (st.sm.session c.session).players.lookup p with
  | none => simp
  | some info =>
    by_cases hs : (st.sm.session c.session).isStale playerTimeout (clk.check c.sessionID p) info = true <;>
      simp [hs]

theorem connOf_dropPlayer_ne (sm : SessionManager) (r : SessionRef) {p q : PlayerID} (h : q ≠ p) :
    connOf ((sm.dropPlayer r p).session r) q = connOf (sm.session r) q := by
  unfold connOf
  rw [dropPlayer_session_self]
  dsimp only
  rw [AList.lookup_erase_ne h]

theorem reapPlayers_closed (clk : ReapClock) (c : ReapCandidate) (ps : List PlayerID) (hnd : ps.Nodup)
    (st : ReapState) :
    (ps.foldl (reapPlayer clk c) st).closed = st.closed ++ (ps.filter fun p =>
      (st.sm.session c.session).staleAt playerTimeout (clk.check c.sessionID p) p).flatMap
        (connOf (st.sm.session c.session)) := by
  induction ps generalizing st with
  | nil => simp
  | cons p ps ih =>
    obtain ⟨hp, hnd'⟩ := List.nodup_cons.mp hnd
    have hne : ∀ q ∈ ps, q ≠ p := fun q hq he => hp (he ▸ hq)
    have h1 := (reapPlayer_eq clk c st p).1
    rw [List.foldl_cons, ih hnd', reapPlayer_closed, List.filter_cons]
    by_cases hs : (st.sm.session c.session).staleAt playerTimeout (clk.check c.sessionID p) p = true
    · rw [if_pos hs] at h1
      have hfilter : ps.filter (fun q => ((reapPlayer clk c st p).sm.session c.session).staleAt
          playerTimeout (clk.check c.sessionID q) q) = ps.filter fun q =>
          (st.sm.session c.session).staleAt playerTimeout (clk.check c.sessionID q) q :=
        List.filter_congr fun q hq => by rw [h1, staleAt_dropPlayer_ne _ _ (hne q hq)]
      have hconns : ∀ qs : List PlayerID, (∀ q ∈ qs, q ≠ p) →
          qs.flatMap (connOf ((reapPlayer clk c st p).sm.session c.session)) =
            qs.flatMap (connOf (st.sm.session c.session)) := fun qs hqs => by
        rw [h1]
        exact List.flatMap_congr fun q hq => connOf_dropPlayer_ne _ _ (hqs q hq)
      rw [if_pos hs, if_pos hs, hfilter, hconns _ fun q hq => hne q (List.mem_of_mem_filter hq),
        List.flatMap_cons, List.append_assoc]
    · rw [if_neg hs] at h1
      rw [if_neg hs, if_neg hs, List.append_nil, h1]

/-- The connections of the players phase 2 evicts from one candidate. -/
def reapedConns (clk : ReapClock) (sm : SessionManager) (c : ReapCandidate) : List Conn :=
  (reaped clk sm c).flatMap (connOf (sm.session c.session))

theorem reapSession_closed (clk : ReapClock) (st : ReapState) {c : ReapCandidate}
    (hnd : c.stalePIDs.Nodup) : (reapSession clk st c).closed = st.closed ++ reapedConns clk st.sm c := by
  unfold reapSession reapedConns reaped
  dsimp only
  rw [← reapPlayers_closed clk c c.stalePIDs hnd st]
  split <;> rfl

theorem reapApply_closed_foldl (clk : ReapClock) (sm : SessionManager) (candidates : List ReapCandidate)
    (hd : Distinct candidates) (st : ReapState)
    (hst : ∀ c ∈ candidates, st.sm.session c.session = sm.session c.session) :
    (candidates.foldl (reapSession clk) st).closed =
      st.closed ++ candidates.flatMap (reapedConns clk sm) := by
  induction candidates generalizing st with
  | nil => simp
  | cons c rest ih =>
    have hnd := hd.stalePIDs c List.mem_cons_self
    have hhead : reapedConns clk st.sm c = reapedConns clk sm c := by
      unfold reapedConns
      rw [reaped_congr (hst c List.mem_cons_self), hst c List.mem_cons_self]
    rw [List.foldl_cons, ih hd.tail, reapSession_closed clk st hnd, hhead, List.flatMap_cons,
      List.append_assoc]
    intro c' hc'
    rw [reapSession_session_ne clk st hnd (hd.head_ne hc')]
    exact hst c' (List.mem_cons_of_mem c hc')

theorem reapApply_closed (clk : ReapClock) {candidates : List ReapCandidate} (hd : Distinct candidates)
    (sm : SessionManager) :
    (reapApply clk candidates sm).closed = candidates.flatMap (reapedConns clk sm) :=
  reapApply_closed_foldl clk sm candidates hd { sm := sm } fun _ _ => rfl

end SessionManager
end SturmRelay
