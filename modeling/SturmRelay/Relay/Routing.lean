import SturmRelay.Relay.Router

/-! # What routing does

Closed forms of the functions in `Router`. Routing changes nothing but counters (`SameTables`); the
copies written are a filter of the list of targets; and the process goes down exactly when one of
the targets has a TCP connection and the packet is larger than a frame buffer.

Every packet is either `Unroutable` or answered from the verdict on (`handlePacket_answer`), and
the answer is one of three (`AnswerOf.rejected`, `AnswerOf.accepted`, `AnswerOf.panics`). -/

namespace SturmRelay
namespace SessionManager
set_option autoImplicit false

/-! ## What routing leaves alone -/

/-- Nothing but packet counters differs. -/
structure SameTables (sm sm' : SessionManager) : Prop where
  sessions : sm'.sessions = sm.sessions
  playerIndex : sm'.playerIndex = sm.playerIndex
  heap : sm'.heap = sm.heap
  activePlayers : sm'.metrics.activePlayers = sm.metrics.activePlayers
  activeSessions : sm'.metrics.activeSessions = sm.metrics.activeSessions

namespace SameTables
variable {sm sm' sm'' : SessionManager}

theorem refl (sm : SessionManager) : SameTables sm sm := ⟨rfl, rfl, rfl, rfl, rfl⟩

theorem trans (h : SameTables sm sm') (h' : SameTables sm' sm'') : SameTables sm sm'' where
  sessions := h'.sessions.trans h.sessions
  playerIndex := h'.playerIndex.trans h.playerIndex
  heap := h'.heap.trans h.heap
  activePlayers := h'.activePlayers.trans h.activePlayers
  activeSessions := h'.activeSessions.trans h.activeSessions

theorem session (h : SameTables sm sm') (r : SessionRef) : sm'.session r = sm.session r := by
  unfold SessionManager.session
  rw [h.heap]

theorem liveAll {P : SessionID → Session → Prop} (h : SameTables sm sm') (hP : LiveAll P sm) :
    LiveAll P sm' := by
  intro sid r hr
  rw [h.sessions] at hr
  rw [h.session]
  exact hP sid r hr

theorem consistent (h : SameTables sm sm') (hc : Consistent sm) : Consistent sm' where
  index_iff p sid := by
    rw [h.playerIndex, h.sessions]
    simp only [h.session]
    exact hc.index_iff p sid
  active_players := by rw [h.activePlayers, h.playerIndex, hc.active_players]
  active_sessions := by rw [h.activeSessions, h.sessions, hc.active_sessions]
  ref_lt sid r hr := by
    rw [h.sessions] at hr
    rw [h.heap]
    exact hc.ref_lt sid r hr
  ref_id := h.liveAll hc.ref_id

end SameTables

theorem sameTables_countDropped (sm : SessionManager) : SameTables sm sm.countDropped :=
  ⟨rfl, rfl, rfl, rfl, rfl⟩

theorem sameTables_countEchoed (sm : SessionManager) : SameTables sm sm.countEchoed :=
  ⟨rfl, rfl, rfl, rfl, rfl⟩

theorem sameTables_countRouted (n : ℕ) (sm : SessionManager) : SameTables sm (sm.countRouted n) :=
  ⟨rfl, rfl, rfl, rfl, rfl⟩

theorem sameTables_countRejected (v : PacketVerdict) (sm : SessionManager) :
    SameTables sm (sm.countRejected v) := by
  cases v <;> exact ⟨rfl, rfl, rfl, rfl, rfl⟩

/-! ## Closed forms -/

/-- The copy a target gets, if it gets one. -/
def copyFor (net : Network) (data : Bytes) (t : PlayerSendTarget) : Option Sent :=
  t.endpoint.bind fun e =>
    if net e (e.wire data) then some ⟨t.playerID, e, e.wire data⟩ else none

/-- A packet for the target fits into a pool buffer, if it needs one. -/
def FitsFrame (data : Bytes) (t : PlayerSendTarget) : Prop :=
  t.tcpConn.isSome → data.length ≤ maxTCPFramePayload

theorem writeTCPFrame_of_le {data : Bytes} (h : data.length ≤ maxTCPFramePayload) (conn : Conn) :
    writeTCPFrame data = .ok ((Endpoint.tcp conn).wire data) :=
  if_pos (Nat.add_le_add_left h 2)

theorem writeTCPFrame_of_lt {data : Bytes} (h : maxTCPFramePayload < data.length) :
    writeTCPFrame data = .error (.sliceBounds (2 + data.length) tcpFramePoolSize) :=
  if_neg (Nat.not_le.mpr (Nat.add_lt_add_left h 2))

section Sending
variable (net : Network) {data : Bytes}

theorem sendToTarget_of_fits {t : PlayerSendTarget} (h : FitsFrame data t) :
    sendToTarget net t data = .ok (copyFor net data t) := by
  unfold sendToTarget copyFor PlayerSendTarget.endpoint
  cases hc : t.tcpConn with
  | some conn =>
    have hlen := h (by rw [hc]; rfl)
    simp only [writeTCPFrame_of_le hlen conn]
    rfl
  | none =>
    cases ha : t.udpAddr with
    | some addr => rfl
    | none => rfl

theorem sendToTarget_of_not_fits {t : PlayerSendTarget} (h : ¬ FitsFrame data t) :
    ∃ f, sendToTarget net t data = .error f := by
  obtain ⟨hsome, hlen⟩ := Classical.not_imp.mp h
  obtain ⟨conn, hc⟩ := Option.isSome_iff_exists.mp hsome
  refine ⟨.sliceBounds (2 + data.length) tcpFramePoolSize, ?_⟩
  unfold sendToTarget
  simp only [hc, writeTCPFrame_of_lt (Nat.lt_of_not_le hlen)]
  rfl

theorem deliver_of_fits {t : PlayerSendTarget} (h : FitsFrame data t) (sm : SessionManager) :
    ∃ sm', deliver net data t sm = .ok (sm', (copyFor net data t).toList) ∧ SameTables sm sm' := by
  unfold deliver
  rw [sendToTarget_of_fits net h]
  cases hcopy : copyFor net data t with
  | none => exact ⟨_, rfl, sameTables_countDropped sm⟩
  | some copy => exact ⟨_, rfl, sameTables_countRouted data.length sm⟩

theorem deliver_of_not_fits {t : PlayerSendTarget} (h : ¬ FitsFrame data t) (sm : SessionManager) :
    ∃ f, deliver net data t sm = .error f := by
  obtain ⟨f, hf⟩ := sendToTarget_of_not_fits net h
  refine ⟨f, ?_⟩
  unfold deliver
  rw [hf]
  rfl

theorem deliverAll_of_fits {ts : List PlayerSendTarget} (h : ∀ t ∈ ts, FitsFrame data t)
    (sm : SessionManager) :
    ∃ sm', deliverAll net data ts sm = .ok (sm', ts.filterMap (copyFor net data)) ∧
      SameTables sm sm' := by
  induction ts generalizing sm with
  | nil => exact ⟨sm, rfl, .refl sm⟩
  | cons t ts ih =>
    obtain ⟨sm1, h1, hs1⟩ := deliver_of_fits net (h t (List.mem_cons_self ..)) sm
    obtain ⟨sm2, h2, hs2⟩ := ih (fun t' ht' => h t' (List.mem_cons_of_mem t ht')) sm1
    refine ⟨sm2, ?_, hs1.trans hs2⟩
    rw [deliverAll, h1]
    change (deliverAll net data ts sm1 >>= _) = _
    rw [h2, List.filterMap_cons]
    cases copyFor net data t with
    | none => rfl
    | some copy => rfl

/-- The first target that does not fit brings the process down. -/
theorem deliverAll_of_not_fits {ts : List PlayerSendTarget} (h : ¬ ∀ t ∈ ts, FitsFrame data t)
    (sm : SessionManager) : ∃ f, deliverAll net data ts sm = .error f := by
  induction ts generalizing sm with
  | nil => exact absurd (fun t ht => nomatch ht) h
  | cons t ts ih =>
    by_cases ht : FitsFrame data t
    · obtain ⟨sm1, h1, -⟩ := deliver_of_fits net ht sm
      have hrest : ¬ ∀ t' ∈ ts, FitsFrame data t' := fun hall =>
        h (List.forall_mem_cons.mpr ⟨ht, hall⟩)
      obtain ⟨f, hf⟩ := ih hrest sm1
      refine ⟨f, ?_⟩
      rw [deliverAll, h1]
      change (deliverAll net data ts sm1 >>= _) = _
      rw [hf]
      rfl
    · obtain ⟨f, hf⟩ := deliver_of_not_fits net ht sm
      refine ⟨f, ?_⟩
      rw [deliverAll, hf]
      rfl

end Sending

/-- The targets of a packet that is not an echo. -/
def targets (o : RangeOrder PlayerID) (senderID destID : PlayerID) (s : Session) :
    List PlayerSendTarget :=
  if destID = broadcastDest then s.forEachOtherPlayerTarget o senderID
  else (s.getPlayerTarget destID).toList

section Route
variable (net : Network) {o : RangeOrder PlayerID} {r : SessionRef} {senderID destID : PlayerID}
  {data : Bytes} {sm : SessionManager}

theorem route_of_fits (h : ∀ t ∈ targets o senderID destID (sm.session r), FitsFrame data t) :
    ∃ sm', sm.route net o r senderID destID data =
      .ok (sm', (targets o senderID destID (sm.session r)).filterMap (copyFor net data)) ∧
      SameTables sm sm' := by
  unfold route targets at *
  split
  · next hd =>
    rw [if_pos hd] at h
    exact deliverAll_of_fits net h sm
  · next hd =>
    rw [if_neg hd] at h
    unfold unicast
    cases ht : (sm.session r).getPlayerTarget destID with
    | none => exact ⟨_, rfl, sameTables_countDropped sm⟩
    | some t =>
      obtain ⟨sm', hsm', hs⟩ := deliver_of_fits net (h t (by rw [ht]; simp)) sm
      refine ⟨sm', ?_, hs⟩
      rw [Option.toList_some, List.filterMap_cons]
      dsimp only
      rw [hsm']
      cases copyFor net data t with
      | none => rfl
      | some copy => rfl

theorem route_of_not_fits (h : ¬ ∀ t ∈ targets o senderID destID (sm.session r), FitsFrame data t) :
    ∃ f, sm.route net o r senderID destID data = .error f := by
  unfold route targets at *
  split
  · next hd =>
    rw [if_pos hd] at h
    exact deliverAll_of_not_fits net h sm
  · next hd =>
    rw [if_neg hd] at h
    unfold unicast
    cases ht : (sm.session r).getPlayerTarget destID with
    | none =>
      rw [ht] at h
      exact absurd (fun t ht => nomatch ht) h
    | some t =>
      rw [ht, Option.toList_some, List.forall_mem_singleton] at h
      exact deliver_of_not_fits net h sm

end Route

/-! ## One packet -/

/-- The target of an echo. -/
def echoTarget (src : Endpoint) (senderID : PlayerID) : PlayerSendTarget :=
  match src with
  | .udp addr => { playerID := senderID, udpAddr := some addr, tcpConn := none }
  | .tcp conn => { playerID := senderID, udpAddr := none, tcpConn := some conn }

/-- Whom an accepted packet goes to, in the sender's session after the update. -/
def recipients (o : RangeOrder PlayerID) (src : Endpoint) (data : Bytes) (s : Session) :
    List PlayerSendTarget :=
  if destOf data = senderOf data then [echoTarget src (senderOf data)]
  else targets o (senderOf data) (destOf data) s

section Packet
variable {net : Network} {o : RangeOrder PlayerID} {src : Endpoint} {data : Bytes} {now : Instant}
  {sm : SessionManager} {r : SessionRef}

theorem withSender_of_found (hlen : relayHeaderSize ≤ data.length)
    (hr : sm.findSessionByPlayer (senderOf data) = some r)
    (k : PlayerID → PlayerID → SessionRef → Except Fault Handled) :
    sm.withSender data k = k (senderOf data) (destOf data) r := by
  unfold withSender
  rw [if_neg (Nat.not_lt.mpr hlen), decodeRelayHeader_of_le hlen]
  simp only [bind, Except.bind, hr]

/-- A packet that is too short, or whose sender is nowhere. -/
def Unroutable (data : Bytes) (sm : SessionManager) : Prop :=
  data.length < relayHeaderSize ∨ sm.findSessionByPlayer (senderOf data) = none

theorem withSender_of_unroutable (h : Unroutable data sm)
    (k : PlayerID → PlayerID → SessionRef → Except Fault Handled) :
    sm.withSender data k = .ok { sm := sm.countDropped } := by
  unfold withSender
  by_cases hlen : data.length < relayHeaderSize
  · rw [if_pos hlen]
  · have hnone := h.resolve_left hlen
    rw [if_neg hlen, decodeRelayHeader_of_le (Nat.le_of_not_lt hlen)]
    simp only [bind, Except.bind, hnone]
    rfl

theorem handlePacket_dropped (h : Unroutable data sm) :
    sm.handlePacket net o src data now = .ok { sm := sm.countDropped } := by
  cases src with
  | udp remoteAddr => exact withSender_of_unroutable h _
  | tcp conn => exact withSender_of_unroutable h _

/-- What a handled packet reports, besides the connections it closes. -/
structure Handles (sm' : SessionManager) (v : PacketVerdict) (sent : List Sent) (h : Handled) : Prop where
  tables : SameTables sm' h.sm
  verdict : h.verdict = some v
  sent : h.sent = sent

/-- The answer to a packet whose sender has been found. -/
inductive AnswerOf (net : Network) (o : RangeOrder PlayerID) (data : Bytes) (r : SessionRef)
    (v : PacketVerdict) (sm' : SessionManager) : Endpoint → Except Fault Handled → Prop
  | datagram (remoteAddr : AddrPort) : AnswerOf net o data r v sm' (.udp remoteAddr)
      (sm'.answerDatagram net o remoteAddr data (senderOf data) (destOf data) r v)
  | frame (conn : Conn) (old : Option Conn) : AnswerOf net o data r v sm' (.tcp conn)
      (sm'.answerFrame net o conn data (senderOf data) (destOf data) r v old)

variable (net o) in
theorem handlePacket_answer (hlen : relayHeaderSize ≤ data.length)
    (hr : sm.findSessionByPlayer (senderOf data) = some r) {v : PacketVerdict} {sm' : SessionManager}
    (hu : sm.updatePlayer src r (senderOf data) now = (v, sm')) :
    AnswerOf net o data r v sm' src (sm.handlePacket net o src data now) := by
  cases src with
  | udp remoteAddr =>
    have heq : sm.handlePacket net o (.udp remoteAddr) data now =
        sm'.answerDatagram net o remoteAddr data (senderOf data) (destOf data) r v := by
      refine (withSender_of_found hlen hr _).trans ?_
      change sm.updatePlayerAddr r (senderOf data) remoteAddr now = (v, sm') at hu
      rw [hu]
    rw [heq]
    exact .datagram remoteAddr
  | tcp conn =>
    cases hu
    have heq := withSender_of_found hlen hr fun senderID destID r =>
      (sm.updatePlayerTCP r senderID conn now).2.2.answerFrame net o conn data senderID destID r
        (sm.updatePlayerTCP r senderID conn now).1 (sm.updatePlayerTCP r senderID conn now).2.1
    change sm.handlePacket net o (.tcp conn) data now = _ at heq
    rw [heq]
    exact .frame conn _

section Answer
variable {v : PacketVerdict} {res : Except Fault Handled}

theorem AnswerOf.rejected (ha : AnswerOf net o data r v sm src res) (hv : v.accepted = false) :
    ∃ h, res = .ok h ∧ Handles sm v [] h := by
  cases ha with
  | datagram remoteAddr =>
    unfold answerDatagram
    rw [hv]
    exact ⟨_, rfl, sameTables_countRejected v sm, rfl, rfl⟩
  | frame conn old =>
    unfold answerFrame
    rw [hv]
    exact ⟨_, rfl, sameTables_countRejected v sm, rfl, rfl⟩

theorem AnswerOf.accepted (ha : AnswerOf net o data r v sm src res) (hv : v.accepted = true)
    (hfits : ∀ t ∈ recipients o src data (sm.session r), FitsFrame data t) :
    ∃ h, res = .ok h ∧
      Handles sm v ((recipients o src data (sm.session r)).filterMap (copyFor net data)) h := by
  unfold recipients at *
  cases ha with
  | datagram remoteAddr =>
    unfold answerDatagram
    rw [if_pos hv]
    by_cases hd : destOf data = senderOf data
    · rw [if_pos hd, if_pos hd]
      refine ⟨_, rfl, sameTables_countEchoed sm, rfl, ?_⟩
      by_cases hnet : net (.udp remoteAddr) data = true <;>
        simp [echoTarget, copyFor, PlayerSendTarget.endpoint, Endpoint.wire, hnet]
    · rw [if_neg hd] at hfits
      rw [if_neg hd, if_neg hd]
      obtain ⟨sm1, hroute, hs⟩ := route_of_fits net hfits
      rw [hroute]
      exact ⟨_, rfl, hs, rfl, rfl⟩
  | frame conn old =>
    unfold answerFrame
    rw [if_pos hv]
    by_cases hd : destOf data = senderOf data
    · rw [if_pos hd, List.forall_mem_singleton] at hfits
      rw [if_pos hd, if_pos hd, writeTCPFrame_of_le (hfits rfl) conn]
      by_cases hnet : net (.tcp conn) ((Endpoint.tcp conn).wire data) = true
      · refine ⟨_, if_pos hnet, sameTables_countEchoed sm, rfl, ?_⟩
        simp [echoTarget, copyFor, PlayerSendTarget.endpoint, hnet]
      · refine ⟨_, if_neg hnet, .refl sm, rfl, ?_⟩
        simp [echoTarget, copyFor, PlayerSendTarget.endpoint, hnet]
    · rw [if_neg hd] at hfits
      rw [if_neg hd, if_neg hd]
      obtain ⟨sm1, hroute, hs⟩ := route_of_fits net hfits
      rw [hroute]
      exact ⟨_, rfl, hs, rfl, rfl⟩

theorem AnswerOf.panics (ha : AnswerOf net o data r v sm src res) (hv : v.accepted = true)
    (hfits : ¬ ∀ t ∈ recipients o src data (sm.session r), FitsFrame data t) :
    ∃ f, res = .error f := by
  unfold recipients at hfits
  cases ha with
  | datagram remoteAddr =>
    unfold answerDatagram
    rw [if_pos hv]
    by_cases hd : destOf data = senderOf data
    · simp [if_pos hd, FitsFrame, echoTarget] at hfits
    · rw [if_neg hd] at hfits
      obtain ⟨f, hroute⟩ := route_of_not_fits net hfits
      rw [if_neg hd, hroute]
      exact ⟨f, rfl⟩
  | frame conn old =>
    unfold answerFrame
    rw [if_pos hv]
    by_cases hd : destOf data = senderOf data
    · rw [if_pos hd, List.forall_mem_singleton] at hfits
      rw [if_pos hd, writeTCPFrame_of_lt (Nat.lt_of_not_le (Classical.not_imp.mp hfits).2)]
      exact ⟨_, rfl⟩
    · rw [if_neg hd] at hfits
      obtain ⟨f, hroute⟩ := route_of_not_fits net hfits
      rw [if_neg hd, hroute]
      exact ⟨f, rfl⟩

end Answer

end Packet

end SessionManager
end SturmRelay
