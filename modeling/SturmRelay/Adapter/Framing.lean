import SturmRelay.Adapter.RelayConnection
import SturmRelay.Relay.Server

/-! # The framed channel between adapter and server

Two encoders and two decoders for the same frames, written separately. A frame either side writes is
`tcpFrame` of its packet; a frame of a packet of 8 to 1400 bytes reads back as the packet on either
side, however the stream is cut. So the channel is faithful in both directions, and what one adapter
sends arrives at the next one's `dispatchTopeer` unchanged, over any pair of transports
(`framing_faithful`). -/

namespace SturmRelay
namespace Adapter
set_option autoImplicit false

/-- The frame of a packet. -/
def tcpFrame (data : Bytes) : Bytes := beEncode 2 data.length ++ data

/-! ## The readers -/

/-- The server's `readTCPFrame`, as a script. -/
def serverFrame (bufSize : ℕ) : ReadScript UInt8 FrameError Bytes :=
  .readFull 2 .io fun hdr =>
    let n := beDecode hdr
    if n = 0 then .fail .emptyFrame
    else if maxTCPFramePayload < n then .fail (.frameTooLarge n)
    else if bufSize < n then .fail .shortBuffer
    else .readFull n .io .ret

theorem onStream_serverFrame (bufSize : ℕ) :
    (serverFrame bufSize).onStream = SturmRelay.readTCPFrame bufSize := by
  rw [serverFrame, ReadScript.onStream_readFull]
  simp only [ReadScript.onStream_ite, ReadScript.onStream_fail, ReadScript.onStream_readFull_ret]
  rfl

theorem beDecode_length {data : Bytes} (h : data.length ≤ maxTCPFramePayload) :
    beDecode (beEncode 2 data.length) = data.length := by
  have h1400 : data.length ≤ 1400 := h
  rw [beDecode_beEncode]
  omega

theorem serverFrame_tcpFrame {data : Bytes} (hpos : 0 < data.length)
    (hmax : data.length ≤ maxTCPFramePayload) (rest : Bytes) :
    (serverFrame readBufferSize).onStream (tcpFrame data ++ rest) = .ok data rest := by
  rw [onStream_serverFrame]
  exact @readTCPFrame_wire ⟨0, none⟩ data hpos hmax rest

theorem readFull_append (pre rest : Bytes) :
    (StreamReader.readFull pre.length : StreamReader UInt8 EOF Bytes) (pre ++ rest) = .ok pre rest :=
  (StreamReader.accepts_readFull pre.length _ _ _).mpr ⟨pre, rfl, rfl, rfl⟩

theorem readTCPFrame_tcpFrame {data : Bytes} (hmax : data.length ≤ maxTCPFramePayload) (rest : Bytes) :
    (readTCPFrame packetBufferSize).onStream (tcpFrame data ++ rest) = .ok data rest := by
  have hhdr := readFull_append (beEncode 2 data.length) (data ++ rest)
  have hbuf : ¬ packetBufferSize < data.length := by
    have h1400 : data.length ≤ 1400 := hmax
    unfold packetBufferSize
    omega
  rw [length_beEncode] at hhdr
  rw [tcpFrame, List.append_assoc, readTCPFrame, ReadScript.onStream, hhdr]
  dsimp only
  rw [beDecode_length hmax, if_neg hbuf, ReadScript.onStream, readFull_append]
  rfl

theorem readTCPFrame_nil (bufSize : ℕ) : (readTCPFrame bufSize).onStream [] = .err (.io .eof) := rfl

theorem serverFrame_nil (bufSize : ℕ) : (serverFrame bufSize).onStream [] = .err (.io .eof) := rfl

/-! ## The writers -/

namespace RelayConnection

/-- Only the buffers differ. -/
structure SameSettings (rc rc' : RelayConnection) : Prop where
  localID : rc'.localID = rc.localID
  relayAddr : rc'.relayAddr = rc.relayAddr
  useTCP : rc'.useTCP = rc.useTCP

/-- Nothing of what the buffer held before gets into the frame. -/
theorem writeTCPFrame_eq {data : Bytes} (h : data.length ≤ maxRelayPacket) (rc : RelayConnection) :
    ∃ rc', rc.writeTCPFrame data = .ok (tcpFrame data, rc') ∧ SameSettings rc rc' := by
  have hsize : 2 + data.length ≤ 2 + maxRelayPacket := Nat.add_le_add_left h 2
  have hhdr : (beEncode 2 data.length).length = 2 := length_beEncode 2 _
  obtain ⟨buf1, hbuf1, hval1⟩ :=
    rc.tcpFrameBuf.copyAt_exact 0 2 (beEncode 2 data.length) (by omega) hhdr
  obtain ⟨buf2, hbuf2, hval2⟩ :=
    buf1.copyAt_exact 2 (2 + data.length) data hsize (by omega)
  have hout : (buf2.1.take (2 + data.length)).drop 0 = tcpFrame data := by
    rw [List.drop_zero, hval2, hval1, List.take_zero, List.nil_append, List.take_left' hhdr]
    exact List.take_left' (by rw [List.length_append, hhdr])
  refine ⟨{ rc with tcpFrameBuf := buf2 }, ?_, rfl, rfl, rfl⟩
  unfold writeTCPFrame
  rw [hbuf1]
  change (buf1.copyAt 2 (2 + data.length) data >>= _) = _
  rw [hbuf2]
  change (buf2.slice 0 (2 + data.length) >>= _) = _
  rw [buf2.slice_of_le (Nat.zero_le _) hsize, hout]
  rfl

/-- What a packet is put on the network as. -/
def wireOf (rc : RelayConnection) (data : Bytes) : Wire :=
  if rc.useTCP then .frame (tcpFrame data) else .datagram data

theorem transmit_eq {data : Bytes} (h : data.length ≤ maxRelayPacket) (rc : RelayConnection) :
    ∃ rc', rc.transmit data = .ok (rc.wireOf data, rc') ∧ SameSettings rc rc' := by
  unfold transmit wireOf
  by_cases htcp : rc.useTCP = true
  · obtain ⟨rc', hwrite, hsame⟩ := rc.writeTCPFrame_eq h
    rw [if_pos htcp, if_pos htcp, hwrite]
    exact ⟨rc', rfl, hsame⟩
  · rw [if_neg htcp, if_neg htcp]
    exact ⟨rc, rfl, rfl, rfl, rfl⟩

theorem wireOf_congr {rc rc' : RelayConnection} (h : rc'.useTCP = rc.useTCP) (data : Bytes) :
    rc'.wireOf data = rc.wireOf data := by
  rw [wireOf, wireOf, h]

/-- A header at the front of a slice of the send buffer. -/
theorem header_sendBuf (rc : RelayConnection) {total : ℕ} (hlo : relayHeaderSize ≤ total)
    (hhi : total ≤ packetBufferSize) (destID : UInt32) :
    ∃ buf, rc.sendBuf.slice 0 total = .ok buf ∧ buf.length = total ∧
      encodeRelayHeader buf rc.localID destID =
        .ok (relayPacketBytes rc.localID destID (buf.drop relayHeaderSize)) := by
  have hlen : ((rc.sendBuf.1.take total).drop 0).length = total := by
    rw [List.drop_zero, List.length_take, rc.sendBuf.2]
    omega
  exact ⟨_, rc.sendBuf.slice_of_le (Nat.zero_le _) hhi, hlen,
    encodeRelayHeader_of_le (by rw [hlen]; exact hlo) _ _⟩

theorem send_eq {payload : Bytes} (h : payload.length ≤ maxRelayPayload) (destID : UInt32)
    (rc : RelayConnection) :
    ∃ rc', rc.send destID payload =
      .ok (.ok (rc.wireOf (relayPacketBytes rc.localID destID payload)), rc') ∧
      SameSettings rc rc' := by
  have hsum : maxRelayPacket = relayHeaderSize + maxRelayPayload := rfl
  have hmax : relayHeaderSize + payload.length ≤ maxRelayPacket := by omega
  have hbuf : relayHeaderSize + payload.length ≤ packetBufferSize := hmax.trans (by decide)
  obtain ⟨buf, hslice, hlen, hhdr⟩ := rc.header_sendBuf (Nat.le_add_right _ _) hbuf destID
  have hcopy : copyInto (relayPacketBytes rc.localID destID (buf.drop relayHeaderSize))
      relayHeaderSize (relayHeaderSize + payload.length) payload =
        .ok (relayPacketBytes rc.localID destID payload) := by
    have hfull : (relayPacketBytes rc.localID destID (buf.drop relayHeaderSize)).length =
        relayHeaderSize + payload.length := by
      rw [length_relayPacketBytes, List.length_drop, hlen]
      omega
    rw [copyInto_exact hfull.ge (Nat.add_comm _ _), List.drop_of_length_le hfull.le, List.append_nil,
      take_relayPacketBytes, ← relayPacketBytes]
  have hpkt : (relayPacketBytes rc.localID destID payload).length =
      relayHeaderSize + payload.length := length_relayPacketBytes _ _ _
  obtain ⟨sendBuf, hsend, -⟩ := rc.sendBuf.copyAt_exact 0 (relayHeaderSize + payload.length)
    (relayPacketBytes rc.localID destID payload) hbuf hpkt
  obtain ⟨rc', htrans, hsame⟩ := ({ rc with sendBuf := sendBuf } : RelayConnection).transmit_eq
    (hpkt.trans_le hmax)
  refine ⟨rc', ?_, hsame.localID, hsame.relayAddr, hsame.useTCP⟩
  unfold send
  dsimp only
  rw [if_neg (Nat.not_lt.mpr hmax), hslice]
  change (encodeRelayHeader buf rc.localID destID >>= _) = _
  rw [hhdr]
  change (copyInto _ _ _ payload >>= _) = _
  rw [hcopy]
  change (rc.sendBuf.copyAt 0 _ _ >>= _) = _
  rw [hsend]
  change (transmit _ { rc with sendBuf := sendBuf } >>= _) = _
  rw [htrans]
  rfl

/-- `Send` builds in its buffer the packet that `EncodeRelayPacket` allocates, and refuses the payloads
that `EncodeRelayPacket` refuses. -/
theorem send_encodeRelayPacket (destID : UInt32) (payload : Bytes) (rc : RelayConnection) :
    (∀ data, encodeRelayPacket rc.localID destID payload = .ok data →
      ∃ rc', rc.send destID payload = .ok (.ok (rc.wireOf data), rc') ∧ SameSettings rc rc') ∧
    ∀ e, encodeRelayPacket rc.localID destID payload = .error e →
      rc.send destID payload = .ok (.error (.payloadTooLarge payload.length), rc) := by
  unfold encodeRelayPacket
  by_cases hmax : maxRelayPacket < relayHeaderSize + payload.length
  · rw [if_pos hmax]
    refine ⟨fun _ hdata => ?_, fun _ _ => if_pos hmax⟩
    cases hdata
  · have hlen : payload.length ≤ maxRelayPayload := by
      unfold maxRelayPayload
      omega
    rw [if_neg hmax]
    refine ⟨fun _ hdata => ?_, fun _ he => ?_⟩
    · cases hdata
      exact send_eq hlen destID rc
    · cases he

theorem sendHello_eq (rc : RelayConnection) :
    ∃ rc', rc.sendHello = .ok (rc.wireOf (relayPacketBytes rc.localID rc.localID []), rc') ∧
      SameSettings rc rc' := by
  obtain ⟨buf, hslice, hlen, hhdr⟩ := rc.header_sendBuf (Nat.le_refl relayHeaderSize) (by decide)
    rc.localID
  rw [List.drop_of_length_le (by omega)] at hhdr
  have hpkt : (relayPacketBytes rc.localID rc.localID []).length = relayHeaderSize :=
    length_relayPacketBytes _ _ _
  obtain ⟨sendBuf, hsend, -⟩ := rc.sendBuf.copyAt_exact 0 relayHeaderSize
    (relayPacketBytes rc.localID rc.localID []) (by decide) hpkt
  obtain ⟨rc', htrans, hsame⟩ := ({ rc with sendBuf := sendBuf } : RelayConnection).transmit_eq
    (hpkt.trans_le (by decide))
  refine ⟨rc', ?_, hsame.localID, hsame.relayAddr, hsame.useTCP⟩
  unfold sendHello
  rw [hslice]
  change (encodeRelayHeader buf rc.localID rc.localID >>= _) = _
  rw [hhdr]
  change (rc.sendBuf.copyAt 0 _ _ >>= _) = _
  rw [hsend]
  exact htrans

/-! ## Calls -/

/-- A call of `Send` or `SendHello`. -/
inductive SendCall
  | send (destID : UInt32) (payload : Bytes)
  | hello
  deriving DecidableEq, Repr

def SendCall.payload : SendCall → Bytes
  | .send _ payload => payload
  | .hello => []

/-- The packet a call stands for. -/
def SendCall.packet (localID : UInt32) : SendCall → RelayPacket
  | .send destID payload => ⟨localID, destID, payload⟩
  | .hello => ⟨localID, localID, []⟩

def perform (rc : RelayConnection) : SendCall → Except Fault (Except SendError Wire × RelayConnection)
  | .send destID payload => rc.send destID payload
  | .hello => do
    let (wire, rc) ← rc.sendHello
    return (.ok wire, rc)

def performAll : List SendCall → RelayConnection →
    Except Fault (List (Except SendError Wire) × RelayConnection)
  | [], rc => .ok ([], rc)
  | c :: cs, rc => do
    let (res, rc) ← rc.perform c
    let (rest, rc) ← performAll cs rc
    return (res :: rest, rc)

/-- The bytes of a packet. -/
def packetBytes (p : RelayPacket) : Bytes := relayPacketBytes p.senderID p.destID p.payload

theorem perform_eq {c : SendCall} (h : c.payload.length ≤ maxRelayPayload) (rc : RelayConnection) :
    ∃ rc', rc.perform c = .ok (.ok (rc.wireOf (packetBytes (c.packet rc.localID))), rc') ∧
      SameSettings rc rc' := by
  cases c with
  | send destID payload => exact send_eq h destID rc
  | hello =>
    obtain ⟨rc', hhello, hsame⟩ := rc.sendHello_eq
    refine ⟨rc', ?_, hsame⟩
    unfold perform
    rw [hhello]
    rfl

theorem performAll_eq {calls : List SendCall} (h : ∀ c ∈ calls, c.payload.length ≤ maxRelayPayload)
    (rc : RelayConnection) :
    ∃ rc', performAll calls rc =
      .ok (calls.map fun c => .ok (rc.wireOf (packetBytes (c.packet rc.localID))), rc') := by
  induction calls generalizing rc with
  | nil => exact ⟨rc, rfl⟩
  | cons c calls ih =>
    obtain ⟨rc1, hfirst, hsame⟩ := perform_eq (h c (List.mem_cons_self ..)) rc
    obtain ⟨rc2, hrest⟩ := ih (fun c' hc' => h c' (List.mem_cons_of_mem c hc')) rc1
    refine ⟨rc2, ?_⟩
    simp only [wireOf_congr hsame.useTCP, hsame.localID] at hrest
    rw [performAll, hfirst]
    change (performAll calls rc1 >>= _) = _
    rw [hrest]
    rfl

end RelayConnection
/-! ## The server in between -/

section Server
open SessionManager
variable {net : Network} {o : RangeOrder PlayerID} {src : Endpoint} {data : Bytes} {now : Instant}
  {sm : SessionManager}

theorem wire_of_copyFor {t : PlayerSendTarget} {copy : Sent} (h : copyFor net data t = some copy) :
    copy.bytes = copy.endpoint.wire data := by
  unfold copyFor at h
  obtain ⟨e, -, hcopy⟩ := Option.bind_eq_some_iff.mp h
  split at hcopy
  · cases hcopy
    rfl
  · cases hcopy

variable (net o src now sm) in
/-- A packet that fits into a frame is handled without a panic, and every copy written is the packet
as it goes over the wire to its endpoint. -/
theorem handlePacket_copies (hmax : data.length ≤ maxTCPFramePayload) :
    ∃ h, sm.handlePacket net o src data now = .ok h ∧
      ∀ copy ∈ h.sent, copy.bytes = copy.endpoint.wire data := by
  by_cases hun : Unroutable data sm
  · refine ⟨_, handlePacket_dropped hun, ?_⟩
    intro copy hcopy
    exact absurd hcopy (List.not_mem_nil)
  · obtain ⟨hlen, hfound⟩ := not_or.mp hun
    obtain ⟨r, hr⟩ := Option.ne_none_iff_exists'.mp hfound
    have ha : AnswerOf net o data r _ _ src (sm.handlePacket net o src data now) :=
      handlePacket_answer net o (Nat.le_of_not_lt hlen) hr rfl
    have hfits : ∀ t ∈ recipients o src data
        ((sm.updatePlayer src r (senderOf data) now).2.session r), FitsFrame data t :=
      fun _ _ _ => hmax
    cases hv : (sm.updatePlayer src r (senderOf data) now).1.accepted with
    | false =>
      obtain ⟨h, he, hh⟩ := ha.rejected hv
      refine ⟨h, he, ?_⟩
      rw [hh.sent]
      exact fun copy hcopy => absurd hcopy (List.not_mem_nil)
    | true =>
      obtain ⟨h, he, hh⟩ := ha.accepted hv hfits
      refine ⟨h, he, ?_⟩
      intro copy hcopy
      rw [hh.sent] at hcopy
      obtain ⟨t, -, ht⟩ := List.mem_filterMap.mp hcopy
      exact wire_of_copyFor ht

end Server

/-! ## The channel -/

/-- The server reads `data` from what was put on the network, whatever follows on the connection and
however it is cut. -/
def ServerReads (data : Bytes) : Wire → Prop
  | .datagram bytes => bytes.take readBufferSize = data
  | .frame bytes => ∀ later segs, segs.flatten = bytes ++ later →
      ∃ segs', (serverFrame readBufferSize).onSegments segs = .ok data segs' ∧ segs'.flatten = later

/-- The adapter gives the copy to `dispatchTopeer` under this sender, with this payload. -/
def Dispatches (rc : RelayConnection) (senderID : UInt32) (payload : Bytes) (copy : Sent) : Prop :=
  let call := RelayConnection.Received.dispatch senderID payload (relayHeaderSize + payload.length)
  match copy.endpoint with
  | .udp _ => rc.receiveUDP rc.relayAddr copy.bytes = .ok call
  | .tcp _ => ∀ later segs, segs.flatten = copy.bytes ++ later →
      ∃ data segs', (readTCPFrame packetBufferSize).onSegments segs = .ok data segs' ∧
        segs'.flatten = later ∧ rc.receive data = .ok call

theorem receive_eq (rc : RelayConnection) {senderID : UInt32} (h : senderID ≠ rc.localID)
    (destID : UInt32) (payload : Bytes) :
    rc.receive (relayPacketBytes senderID destID payload) =
      .ok (.dispatch senderID payload (relayHeaderSize + payload.length)) := by
  have hlen : relayHeaderSize ≤ (relayPacketBytes senderID destID payload).length := by
    rw [length_relayPacketBytes]
    omega
  unfold RelayConnection.receive
  rw [if_neg (Nat.not_lt.mpr hlen), decodeRelayHeader_of_le hlen, senderOf_relayPacketBytes]
  change (if senderID = rc.localID then _ else _) = _
  rw [if_neg h, slice_of_le hlen (Nat.le_refl _), List.take_length, drop_relayPacketBytes,
    length_relayPacketBytes]
  rfl

theorem serverReads_wireOf (rc : RelayConnection) {data : Bytes} (hpos : 0 < data.length)
    (hmax : data.length ≤ maxTCPFramePayload) : ServerReads data (rc.wireOf data) := by
  unfold RelayConnection.wireOf
  split
  · intro later segs hsegs
    exact ReadScript.onSegments_eq_ok (by rw [hsegs]; exact serverFrame_tcpFrame hpos hmax later)
  · exact List.take_of_length_le (hmax.trans (by decide))

theorem dispatches_copy (rc : RelayConnection) {senderID : UInt32} (h : senderID ≠ rc.localID)
    (destID : UInt32) {payload : Bytes} (hmax : payload.length ≤ maxRelayPayload) {copy : Sent}
    (hcopy : copy.bytes = copy.endpoint.wire (relayPacketBytes senderID destID payload)) :
    Dispatches rc senderID payload copy := by
  have hlen : (relayPacketBytes senderID destID payload).length ≤ maxTCPFramePayload := by
    rw [length_relayPacketBytes]
    exact Nat.add_le_add_left hmax relayHeaderSize
  unfold Dispatches
  cases he : copy.endpoint with
  | udp addr =>
    rw [he] at hcopy
    change copy.bytes = relayPacketBytes senderID destID payload at hcopy
    change rc.receiveUDP rc.relayAddr copy.bytes = _
    unfold RelayConnection.receiveUDP
    rw [if_neg (not_not_intro rfl), hcopy, List.take_of_length_le (hlen.trans (by decide))]
    exact receive_eq rc h destID payload
  | tcp conn =>
    rw [he] at hcopy
    change copy.bytes = tcpFrame (relayPacketBytes senderID destID payload) at hcopy
    intro call later segs hsegs
    rw [hcopy] at hsegs
    obtain ⟨segs', hread, hrest⟩ := ReadScript.onSegments_eq_ok
      (hsegs ▸ readTCPFrame_tcpFrame hlen later)
    exact ⟨_, segs', hread, hrest, receive_eq rc h destID payload⟩

/-- The server's reader recovers what the calls of an adapter in TCP mode stand for. -/
theorem adapter_to_server {rc : RelayConnection} (htcp : rc.useTCP = true)
    {calls : List RelayConnection.SendCall}
    (hcalls : ∀ c ∈ calls, c.payload.length ≤ maxRelayPayload) :
    ∃ (wires : List Wire) (rc' : RelayConnection), RelayConnection.performAll calls rc = .ok (wires.map .ok, rc') ∧
      ∀ segs fuel, segs.flatten = wires.flatMap Wire.bytes → calls.length < fuel →
        ∃ packets, (serverFrame readBufferSize).readAll fuel segs = (packets, some (.io .eof)) ∧
          packets.map decodeRelayPacket = calls.map fun c => .ok (.ok (c.packet rc.localID)) := by
  obtain ⟨rc', hperform⟩ := RelayConnection.performAll_eq hcalls rc
  let packets := calls.map fun c => RelayConnection.packetBytes (c.packet rc.localID)
  refine ⟨packets.map rc.wireOf, rc', ?_, ?_⟩
  · rw [hperform, List.map_map, List.map_map]
    rfl
  · intro segs fuel hsegs hfuel
    refine ⟨packets, ReadScript.readAll_encoded tcpFrame ?_ (serverFrame_nil _)
      (by rwa [List.length_map]) ?_, ?_⟩
    · intro data hdata rest
      obtain ⟨c, hc, rfl⟩ := List.mem_map.mp hdata
      have hpayload : (c.packet rc.localID).payload = c.payload := by cases c <;> rfl
      have hlen := length_relayPacketBytes (c.packet rc.localID).senderID
        (c.packet rc.localID).destID (c.packet rc.localID).payload
      refine serverFrame_tcpFrame ?_ ?_ rest
      · unfold RelayConnection.packetBytes
        rw [hlen]
        exact Nat.add_pos_left (by decide) _
      · unfold RelayConnection.packetBytes
        rw [hlen, hpayload]
        exact Nat.add_le_add_left (hcalls c hc) relayHeaderSize
    · rw [hsegs, List.flatMap_def, List.map_map]
      congr 1
      refine List.map_congr_left fun data _ => ?_
      simp only [Function.comp_apply, RelayConnection.wireOf, if_pos htcp]
      rfl
    · rw [List.map_map]
      refine List.map_congr_left fun c _ => ?_
      exact decodeRelayPacket_relayPacketBytes _ _ _

/-- The adapter's reader recovers the packets the server has written. -/
theorem server_to_adapter {packets : List Bytes}
    (hpackets : ∀ d ∈ packets, relayHeaderSize ≤ d.length ∧ d.length ≤ maxRelayPacket) :
    ∃ frames, packets.mapM writeTCPFrame = .ok frames ∧
      ∀ segs fuel, segs.flatten = frames.flatten → packets.length < fuel →
        (readTCPFrame packetBufferSize).readAll fuel segs = (packets, some (.io .eof)) ∧
        ∀ d ∈ packets, ∃ p, decodeRelayPacket d = .ok (.ok p) ∧ RelayConnection.packetBytes p = d := by
  refine ⟨packets.map tcpFrame, ?_, ?_⟩
  · induction packets with
    | nil => rfl
    | cons d packets ih =>
      have hd := (hpackets d (List.mem_cons_self ..)).2
      rw [List.mapM_cons, SessionManager.writeTCPFrame_of_le hd ⟨0, none⟩]
      change (packets.mapM writeTCPFrame >>= _) = _
      rw [ih fun d' hd' => hpackets d' (List.mem_cons_of_mem d hd')]
      rfl
  · intro segs fuel hsegs hfuel
    refine ⟨ReadScript.readAll_encoded tcpFrame ?_ (readTCPFrame_nil _) hfuel hsegs, ?_⟩
    · exact fun d hd rest => readTCPFrame_tcpFrame (hpackets d hd).2 rest
    · intro d hd
      have hlen := (hpackets d hd).1
      exact ⟨_, decodeRelayPacket_of_le hlen, relayPacketBytes_eq hlen⟩

/-- Both directions of the TCP channel, and the way from one adapter to the other. -/
theorem framing_faithful :
    (∀ (rc : RelayConnection) (calls : List RelayConnection.SendCall), rc.useTCP = true →
      (∀ c ∈ calls, c.payload.length ≤ maxRelayPayload) →
      ∃ (wires : List Wire) (rc' : RelayConnection),
        RelayConnection.performAll calls rc = .ok (wires.map .ok, rc') ∧
        ∀ segs fuel, segs.flatten = wires.flatMap Wire.bytes → calls.length < fuel →
          ∃ packets, (serverFrame readBufferSize).readAll fuel segs = (packets, some (.io .eof)) ∧
            packets.map decodeRelayPacket = calls.map fun c => .ok (.ok (c.packet rc.localID))) ∧
    (∀ packets : List Bytes,
      (∀ d ∈ packets, relayHeaderSize ≤ d.length ∧ d.length ≤ maxRelayPacket) →
      ∃ frames, packets.mapM writeTCPFrame = .ok frames ∧
        ∀ segs fuel, segs.flatten = frames.flatten → packets.length < fuel →
          (readTCPFrame packetBufferSize).readAll fuel segs = (packets, some (.io .eof)) ∧
          ∀ d ∈ packets, ∃ p, decodeRelayPacket d = .ok (.ok p) ∧
            RelayConnection.packetBytes p = d) ∧
    (∀ (a b : RelayConnection) (destID : UInt32) (payload : Bytes),
      payload.length ≤ maxRelayPayload → a.localID ≠ b.localID →
      ∃ wire a', a.send destID payload = .ok (.ok wire, a') ∧
        ∃ data, ServerReads data wire ∧
          ∀ (net : Network) (o : RangeOrder PlayerID) (src : Endpoint) (now : Instant)
            (sm : SessionManager), ∃ h, sm.handlePacket net o src data now = .ok h ∧
              ∀ copy ∈ h.sent, Dispatches b a.localID payload copy) := by
  refine ⟨fun rc calls htcp hcalls => adapter_to_server htcp hcalls,
    fun packets hpackets => server_to_adapter hpackets, ?_⟩
  intro a b destID payload hmax hne
  obtain ⟨a', hsend, -⟩ := RelayConnection.send_eq hmax destID a
  have hlen := length_relayPacketBytes a.localID destID payload
  have hpos : 0 < (relayPacketBytes a.localID destID payload).length := by
    rw [hlen]
    exact Nat.add_pos_left (by decide) _
  have hfit : (relayPacketBytes a.localID destID payload).length ≤ maxTCPFramePayload := by
    rw [hlen]
    exact Nat.add_le_add_left hmax relayHeaderSize
  refine ⟨_, a', hsend, _, serverReads_wireOf a hpos hfit, ?_⟩
  intro net o src now sm
  obtain ⟨h, hok, hcopies⟩ := handlePacket_copies net o src now sm hfit
  exact ⟨h, hok, fun copy hcopy => dispatches_copy b hne destID hmax (hcopies copy hcopy)⟩

/-- An adapter in TCP mode. -/
def tcpAdapter : RelayConnection :=
  { newRelayConnection ⟨.v4 0x0A000001#32, 10000⟩ 1 with useTCP := true }

theorem helloThenChat_framed : ∃ (wires : List Wire) (rc' : RelayConnection),
    RelayConnection.performAll [.hello, .send 2 [0x68, 0x69]] tcpAdapter = .ok (wires.map .ok, rc') ∧
    ∀ segs fuel, segs.flatten = wires.flatMap Wire.bytes → 2 < fuel →
      ∃ packets, (serverFrame readBufferSize).readAll fuel segs = (packets, some (.io .eof)) ∧
        packets.map decodeRelayPacket = [.ok (.ok ⟨1, 1, []⟩), .ok (.ok ⟨1, 2, [0x68, 0x69]⟩)] :=
  framing_faithful.1 tcpAdapter [.hello, .send 2 [0x68, 0x69]] rfl (by decide)

end Adapter
end SturmRelay
