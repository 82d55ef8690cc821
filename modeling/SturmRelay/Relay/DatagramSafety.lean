import SturmRelay.Relay.Delivery

/-! # Which datagrams the router survives

A datagram may be as large as the read buffer, 1500 bytes, but the buffers a TCP frame is built in
hold a packet of 1400 bytes. `handleDatagram_safe_iff` says exactly when that matters: an accepted
datagram of more than 1400 bytes that is addressed to a player with a TCP connection takes the
slice `(*bp)[:total]` out of range. No other datagram makes the router panic. -/

namespace SturmRelay
namespace SessionManager
set_option autoImplicit false

/-- The router survives the datagram, and what it writes to TCP connections is the datagram in a
frame that fits the pool buffer and starts with the datagram's length. -/
def DatagramSafe (net : Network) (o : RangeOrder PlayerID) (remoteAddr : AddrPort) (data : Bytes)
    (now : Instant) (sm : SessionManager) : Prop :=
  ∃ h, sm.handleDatagram net o remoteAddr data now = .ok h ∧
    ∀ copy ∈ h.sent, ∀ conn, copy.endpoint = .tcp conn →
      2 + data.length ≤ tcpFramePoolSize ∧ copy.bytes.length = 2 + data.length ∧
        beDecode (copy.bytes.take 2) = data.length ∧ copy.bytes.drop 2 = data

/-- The datagram is accepted, it is no echo, and a player it is addressed to has a TCP
connection. -/
def ReachesTCP (remoteAddr : AddrPort) (data : Bytes) (now : Instant) (sm : SessionManager) : Prop :=
  relayHeaderSize ≤ data.length ∧ destOf data ≠ senderOf data ∧
    ∃ r, sm.findSessionByPlayer (senderOf data) = some r ∧
      (sm.updatePlayerAddr r (senderOf data) remoteAddr now).1.accepted = true ∧
      ∃ q info, (sm.session r).players.lookup q = some info ∧ q ≠ senderOf data ∧
        (destOf data = broadcastDest ∨ destOf data = q) ∧ info.tcpConn.isSome

instance (data : Bytes) (s : Session) : Decidable (∃ q info, s.players.lookup q = some info ∧
    q ≠ senderOf data ∧ (destOf data = broadcastDest ∨ destOf data = q) ∧ info.tcpConn.isSome) :=
  decidable_of_iff (∃ e ∈ s.players.entries, e.1 ≠ senderOf data ∧
      (destOf data = broadcastDest ∨ destOf data = e.1) ∧ e.2.tcpConn.isSome)
    ⟨fun ⟨e, he, h⟩ => ⟨e.1, e.2, AList.mem_lookup_iff.mpr he, h⟩,
      fun ⟨q, info, hq, h⟩ => ⟨⟨q, info⟩, AList.mem_lookup_iff.mp hq, h⟩⟩

instance (remoteAddr : AddrPort) (data : Bytes) (now : Instant) (sm : SessionManager) :
    Decidable (ReachesTCP remoteAddr data now sm) :=
  inferInstanceAs (Decidable (relayHeaderSize ≤ data.length ∧ destOf data ≠ senderOf data ∧
    ∃ r ∈ sm.findSessionByPlayer (senderOf data),
      (sm.updatePlayerAddr r (senderOf data) remoteAddr now).1.accepted = true ∧
      ∃ q info, (sm.session r).players.lookup q = some info ∧ q ≠ senderOf data ∧
        (destOf data = broadcastDest ∨ destOf data = q) ∧ info.tcpConn.isSome))

section Safety
variable {net : Network} {o : RangeOrder PlayerID} {data : Bytes} {now : Instant} {sm : SessionManager}

theorem isSome_tcpConn_info (info : PlayerInfo) :
    info.tcpConn.isSome ↔ ∃ conn, info.endpoint = some (.tcp conn) := by
  unfold PlayerInfo.endpoint
  cases info.tcpConn <;> simp

variable (o) in
/-- A recipient with a TCP connection is one of the other players, with the entry it had before the
sender's update. -/
theorem tcp_recipient_iff {r : SessionRef} (info' : PlayerInfo) (remoteAddr : AddrPort)
    (hecho : destOf data ≠ senderOf data) :
    (∃ t ∈ recipients o (.udp remoteAddr) data ((sm.modifySession r fun s =>
        { s with players := s.players.insert (senderOf data) info' }).session r), t.tcpConn.isSome) ↔
      ∃ q info, (sm.session r).players.lookup q = some info ∧ q ≠ senderOf data ∧
        (destOf data = broadcastDest ∨ destOf data = q) ∧ info.tcpConn.isSome := by
  simp only [isSome_tcpConn_target, isSome_tcpConn_info]
  constructor
  · rintro ⟨t, htm, conn, he⟩
    obtain ⟨hne, hor, info, hq, hend⟩ := (recipient_iff sm r o _ info' hecho _ _).mp ⟨t, htm, rfl, he⟩
    exact ⟨t.playerID, info, hq, hne, hor, conn, hend⟩
  · rintro ⟨q, info, hq, hne, hor, conn, hend⟩
    obtain ⟨t, htm, -, he⟩ := (recipient_iff sm r o (.udp remoteAddr) info' hecho q _).mpr
      ⟨hne, hor, info, hq, hend⟩
    exact ⟨t, htm, conn, he⟩

theorem copyFor_tcp {t : PlayerSendTarget} {copy : Sent} {conn : Conn}
    (h : copyFor net data t = some copy) (he : copy.endpoint = .tcp conn) :
    t.tcpConn = some conn ∧ copy.bytes = beEncode 2 data.length ++ data := by
  unfold copyFor PlayerSendTarget.endpoint at h
  cases hc : t.tcpConn with
  | some conn' =>
    simp only [hc, Option.bind_some] at h
    split at h
    · cases h
      cases he
      exact ⟨rfl, rfl⟩
    · cases h
  | none =>
    cases ha : t.udpAddr with
    | none => simp [hc, ha] at h
    | some addr =>
      simp only [hc, ha, Option.map_some, Option.bind_some] at h
      split at h
      · cases h
        cases he
      · cases h

theorem frame_of_le (h : data.length ≤ maxTCPFramePayload) :
    2 + data.length ≤ tcpFramePoolSize ∧ (beEncode 2 data.length ++ data).length = 2 + data.length ∧
      beDecode ((beEncode 2 data.length ++ data).take 2) = data.length ∧
      (beEncode 2 data.length ++ data).drop 2 = data := by
  have h1400 : data.length ≤ 1400 := h
  have hlen : (beEncode 2 data.length).length = 2 := length_beEncode 2 _
  refine ⟨Nat.add_le_add_left h 2, by rw [List.length_append, hlen], ?_, List.drop_left' hlen⟩
  rw [List.take_left' hlen, beDecode_beEncode]
  omega

/-- Copies of recipients that fit are well-formed frames. -/
theorem frames_of_fits {ts : List PlayerSendTarget} (hfits : ∀ t ∈ ts, FitsFrame data t) :
    ∀ copy ∈ ts.filterMap (copyFor net data), ∀ conn, copy.endpoint = .tcp conn →
      2 + data.length ≤ tcpFramePoolSize ∧ copy.bytes.length = 2 + data.length ∧
        beDecode (copy.bytes.take 2) = data.length ∧ copy.bytes.drop 2 = data := by
  intro copy hcm conn he
  obtain ⟨t, htm, hcopy⟩ := List.mem_filterMap.mp hcm
  obtain ⟨htcp, hbytes⟩ := copyFor_tcp hcopy he
  rw [hbytes]
  exact frame_of_le (hfits t htm (by rw [htcp]; rfl))

/-- The packet fits for every recipient unless it is too long and one of the other players it is
addressed to has a TCP connection. -/
theorem fits_recipients_iff {r : SessionRef} {info' : PlayerInfo} {remoteAddr : AddrPort} :
    (∀ t ∈ recipients o (.udp remoteAddr) data ((sm.modifySession r fun s =>
        { s with players := s.players.insert (senderOf data) info' }).session r), FitsFrame data t) ↔
      (data.length ≤ maxTCPFramePayload ∨ ¬ (destOf data ≠ senderOf data ∧
        ∃ q info, (sm.session r).players.lookup q = some info ∧ q ≠ senderOf data ∧
          (destOf data = broadcastDest ∨ destOf data = q) ∧ info.tcpConn.isSome)) := by
  by_cases hlen : data.length ≤ maxTCPFramePayload
  · exact iff_of_true (fun _ _ _ => hlen) (Or.inl hlen)
  · have hnofit : ∀ t : PlayerSendTarget, FitsFrame data t ↔ ¬ t.tcpConn.isSome := fun t =>
      ⟨fun h htcp => hlen (h htcp), fun h htcp => absurd htcp h⟩
    simp only [hnofit, hlen, false_or]
    by_cases hecho : destOf data = senderOf data
    · refine iff_of_true ?_ (fun h => h.1 hecho)
      unfold recipients
      rw [if_pos hecho, List.forall_mem_singleton]
      exact Bool.false_ne_true
    · rw [← tcp_recipient_iff o info' remoteAddr hecho]
      constructor
      · rintro h ⟨-, t, htm, htcp⟩
        exact h t htm htcp
      · intro h t htm htcp
        exact h ⟨hecho, t, htm, htcp⟩

theorem safe_of_accepted {r : SessionRef} {remoteAddr : AddrPort}
    (hlen : relayHeaderSize ≤ data.length) (hr : sm.findSessionByPlayer (senderOf data) = some r)
    {v : PacketVerdict} {sm' : SessionManager}
    (hu : sm.updatePlayer (.udp remoteAddr) r (senderOf data) now = (v, sm')) (hv : v.accepted = true) :
    DatagramSafe net o remoteAddr data now sm ↔
      ∀ t ∈ recipients o (.udp remoteAddr) data (sm'.session r), FitsFrame data t := by
  have ha := handlePacket_answer net o hlen hr hu
  constructor
  · rintro ⟨h, hok, -⟩
    by_contra hfits
    obtain ⟨f, hf⟩ := ha.panics hv hfits
    change sm.handlePacket net o (.udp remoteAddr) data now = .ok h at hok
    rw [hf] at hok
    cases hok
  · intro hfits
    obtain ⟨h, hok, hh⟩ := ha.accepted hv hfits
    refine ⟨h, hok, ?_⟩
    rw [hh.sent]
    exact frames_of_fits hfits

/-- A datagram that gets no further than the verdict. -/
theorem safe_of_unsent {remoteAddr : AddrPort} {h : Handled}
    (hok : sm.handlePacket net o (.udp remoteAddr) data now = .ok h) (hsent : h.sent = []) :
    DatagramSafe net o remoteAddr data now sm := by
  refine ⟨h, hok, fun copy hcm => ?_⟩
  rw [hsent] at hcm
  cases hcm

theorem not_reachesTCP_of_unroutable {remoteAddr : AddrPort} (hun : Unroutable data sm) :
    ¬ ReachesTCP remoteAddr data now sm := by
  rintro ⟨hlen, -, r, hr, -⟩
  rcases hun with hshort | hnone
  · exact absurd hlen (Nat.not_le.mpr hshort)
  · rw [hnone] at hr
    cases hr

theorem reachesTCP_iff {remoteAddr : AddrPort} {r : SessionRef} (hlen : relayHeaderSize ≤ data.length)
    (hr : sm.findSessionByPlayer (senderOf data) = some r) :
    ReachesTCP remoteAddr data now sm ↔
      (sm.updatePlayerAddr r (senderOf data) remoteAddr now).1.accepted = true ∧
        destOf data ≠ senderOf data ∧
        ∃ q info, (sm.session r).players.lookup q = some info ∧ q ≠ senderOf data ∧
          (destOf data = broadcastDest ∨ destOf data = q) ∧ info.tcpConn.isSome := by
  constructor
  · rintro ⟨-, hecho, r', hr', hacc, hq⟩
    rw [hr] at hr'
    cases hr'
    exact ⟨hacc, hecho, hq⟩
  · rintro ⟨hacc, hecho, hq⟩
    exact ⟨hlen, hecho, r, hr, hacc, hq⟩

end Safety

/-- The router survives a datagram exactly when it is at most 1400 bytes long or reaches no player
with a TCP connection. -/
theorem handleDatagram_safe_iff (net : Network) (o : RangeOrder PlayerID) (remoteAddr : AddrPort)
    (data : Bytes) (now : Instant) (sm : SessionManager) :
    DatagramSafe net o remoteAddr data now sm ↔
      (data.length ≤ maxTCPFramePayload ∨ ¬ ReachesTCP remoteAddr data now sm) := by
  by_cases hun : Unroutable data sm
  · exact iff_of_true (safe_of_unsent (handlePacket_dropped hun) rfl)
      (Or.inr (not_reachesTCP_of_unroutable hun))
  obtain ⟨hlen, hfound⟩ := not_or.mp hun
  obtain ⟨r, hr⟩ := Option.ne_none_iff_exists'.mp hfound
  have hlen' := Nat.le_of_not_lt hlen
  obtain ⟨v, sm', hu⟩ : ∃ v sm', sm.updatePlayer (.udp remoteAddr) r (senderOf data) now = (v, sm') :=
    ⟨_, _, rfl⟩
  have hverdict : (sm.updatePlayerAddr r (senderOf data) remoteAddr now).1 = v := congrArg Prod.fst hu
  rw [reachesTCP_iff hlen' hr, hverdict]
  cases hv : v.accepted with
  | false =>
    obtain ⟨h, hok, hh⟩ := (handlePacket_answer net o hlen' hr hu).rejected hv
    refine iff_of_true (safe_of_unsent hok hh.sent) (Or.inr fun hreach => ?_)
    cases hreach.1
  | true =>
    cases hp : (sm.session r).players.lookup (senderOf data) with
    | none =>
      rw [updatePlayer_of_notMem _ hp] at hu
      cases hu
      cases hv
    | some info =>
      rw [safe_of_accepted hlen' hr hu hv]
      obtain ⟨v', info', hu', -⟩ := updatePlayer_of_lookup (.udp remoteAddr) hp now
      rw [hu] at hu'
      cases hu'
      rw [fits_recipients_iff]
      simp only [true_and]

/-! ### The failing datagram -/

/-- A datagram of 1401 bytes from player 1 to player 2. -/
def oversized : Bytes := putUint32BE 1 ++ putUint32BE 2 ++ List.replicate 1393 0

theorem length_oversized : oversized.length = 1401 := by
  unfold oversized putUint32BE
  rw [List.length_append, List.length_append, length_beEncode, length_beEncode, List.length_replicate]

/-- The datagram fits the read buffer, player 2 of the lobby is connected over TCP, and the router
panics. -/
theorem oversized_unsafe : oversized.length ≤ readBufferSize ∧
    ¬ DatagramSafe .reliable .listed hostAddr oversized second
      (runState (relayStep .reliable) .start lobby).sm := by
  have hlen := length_oversized
  refine ⟨hlen.trans_le (by decide), fun hsafe => ?_⟩
  have hfits := (safe_of_accepted (r := 0) (v := .firstAddr) (hlen.symm ▸ by decide) (by decide +kernel)
    (Prod.ext (by decide +kernel) rfl) rfl).mp hsafe
  -- player 2 is the one recipient, and its connection needs a frame
  have hfit := hfits { playerID := 2, udpAddr := none, tcpConn := some guestConn } (by decide +kernel) rfl
  rw [hlen] at hfit
  exact absurd hfit (by decide)

end SessionManager
end SturmRelay
