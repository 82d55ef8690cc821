import SturmRelay.Foundations.Bytes

/-! # The relay packet header

`internal/protocol/relay_wire.go`: a packet is a sender ID and a destination ID, four bytes each,
most significant byte first, and the payload. -/

namespace SturmRelay
set_option autoImplicit false

def relayHeaderSize : ℕ := 8
def maxRelayPacket : ℕ := 1400
def maxRelayPayload : ℕ := maxRelayPacket - relayHeaderSize

/-- The destination that stands for all peers. -/
def broadcastDest : UInt32 := 0xFFFFFFFF

inductive RelayWireError
  | packetTooSmall
  | packetTooLarge
  deriving DecidableEq, Repr

def RelayWireError.message : RelayWireError → String
  | .packetTooSmall => "packet too small for relay header"
  | .packetTooLarge => "packet exceeds maximum relay size"

/-- `binary.BigEndian.Uint32`. -/
def uint32BE (b : Bytes) : UInt32 := UInt32.ofNat (beDecode b)

/-- `binary.BigEndian.PutUint32`. -/
def putUint32BE (n : UInt32) : Bytes := beEncode 4 n.toNat

def encodeRelayPacket (senderID destID : UInt32) (payload : Bytes) : Except RelayWireError Bytes :=
  if maxRelayPacket < relayHeaderSize + payload.length then .error .packetTooLarge
  else .ok (putUint32BE senderID ++ putUint32BE destID ++ payload)

/-- The outer layer is a panic of one of the slices, the inner one the error result. -/
def decodeRelayHeader (data : Bytes) : Except Fault (Except RelayWireError (UInt32 × UInt32)) :=
  if data.length < relayHeaderSize then .ok (.error .packetTooSmall)
  else do
    let sender ← slice data 0 4
    let dest ← slice data 4 8
    return .ok (uint32BE sender, uint32BE dest)

structure RelayPacket where
  senderID : UInt32
  destID : UInt32
  payload : Bytes
  deriving DecidableEq, Repr

def decodeRelayPacket (data : Bytes) : Except Fault (Except RelayWireError RelayPacket) :=
  if data.length < relayHeaderSize then .ok (.error .packetTooSmall)
  else do
    let sender ← slice data 0 4
    let dest ← slice data 4 8
    let payload ← slice data relayHeaderSize data.length
    return .ok ⟨uint32BE sender, uint32BE dest, payload⟩

/-- Write the header over the first bytes of `dst`. -/
def encodeRelayHeader (dst : Bytes) (senderID destID : UInt32) : Except Fault Bytes := do
  let dst ← copyInto dst 0 4 (putUint32BE senderID)
  copyInto dst 4 8 (putUint32BE destID)

/-- The sender ID a packet bears. -/
def senderOf (data : Bytes) : UInt32 := uint32BE (data.take 4)

/-- The destination ID a packet bears. -/
def destOf (data : Bytes) : UInt32 := uint32BE ((data.take 8).drop 4)

theorem decodeRelayHeader_of_le {data : Bytes} (h : relayHeaderSize ≤ data.length) :
    decodeRelayHeader data = .ok (.ok (senderOf data, destOf data)) := by
  have h8 : 8 ≤ data.length := h
  rw [decodeRelayHeader, if_neg (Nat.not_lt.mpr h), slice_of_le (Nat.zero_le 4) (by omega),
    slice_of_le (by decide) h8]
  rfl

theorem decodeRelayPacket_of_le {data : Bytes} (h : relayHeaderSize ≤ data.length) :
    decodeRelayPacket data = .ok (.ok ⟨senderOf data, destOf data, data.drop relayHeaderSize⟩) := by
  have h8 : 8 ≤ data.length := h
  rw [decodeRelayPacket, if_neg (Nat.not_lt.mpr h), slice_of_le (Nat.zero_le 4) (by omega),
    slice_of_le (by decide) h8, slice_of_le h (Nat.le_refl _), List.take_length]
  rfl

@[simp] theorem length_putUint32BE (n : UInt32) : (putUint32BE n).length = 4 := length_beEncode 4 _

theorem encodeRelayHeader_of_le {dst : Bytes} (h : relayHeaderSize ≤ dst.length)
    (senderID destID : UInt32) :
    encodeRelayHeader dst senderID destID =
      .ok (putUint32BE senderID ++ putUint32BE destID ++ dst.drop relayHeaderSize) := by
  have h8 : 8 ≤ dst.length := h
  have h4 : (dst.drop 4).drop 4 = dst.drop 8 := by rw [List.drop_drop]
  have hfirst : copyInto dst 0 4 (putUint32BE senderID) =
      .ok (putUint32BE senderID ++ dst.drop 4) :=
    copyInto_exact (by omega) (by simp)
  have hsecond : copyInto (putUint32BE senderID ++ dst.drop 4) 4 8 (putUint32BE destID) =
      .ok (putUint32BE senderID ++ putUint32BE destID ++ dst.drop 8) := by
    rw [copyInto_exact (by simp; omega) (by simp), List.take_left' (length_putUint32BE _),
      List.drop_append, List.drop_of_length_le (by simp), length_putUint32BE, h4, List.nil_append]
  unfold encodeRelayHeader
  rw [hfirst]
  exact hsecond

theorem uint32BE_putUint32BE (n : UInt32) : uint32BE (putUint32BE n) = n := by
  have hn : n.toNat < 256 ^ 4 := n.toNat_lt
  rw [uint32BE, putUint32BE, beDecode_beEncode, Nat.mod_eq_of_lt hn, UInt32.ofNat_toNat]

/-- A header and a payload, as they stand in a packet. -/
def relayPacketBytes (senderID destID : UInt32) (payload : Bytes) : Bytes :=
  putUint32BE senderID ++ putUint32BE destID ++ payload

section Fields
variable (senderID destID : UInt32) (payload : Bytes)

theorem length_relayPacketBytes :
    (relayPacketBytes senderID destID payload).length = relayHeaderSize + payload.length := by
  simp only [relayPacketBytes, relayHeaderSize, List.length_append, length_putUint32BE]

@[simp] theorem senderOf_relayPacketBytes :
    senderOf (relayPacketBytes senderID destID payload) = senderID := by
  rw [senderOf, relayPacketBytes, List.append_assoc, List.take_left' (length_putUint32BE _),
    uint32BE_putUint32BE]

@[simp] theorem destOf_relayPacketBytes :
    destOf (relayPacketBytes senderID destID payload) = destID := by
  rw [destOf, relayPacketBytes, List.take_left' (by simp), List.drop_left' (length_putUint32BE _),
    uint32BE_putUint32BE]

theorem take_relayPacketBytes : (relayPacketBytes senderID destID payload).take relayHeaderSize =
    putUint32BE senderID ++ putUint32BE destID :=
  List.take_left' (by simp [relayHeaderSize])

@[simp] theorem drop_relayPacketBytes :
    (relayPacketBytes senderID destID payload).drop relayHeaderSize = payload :=
  List.drop_left' (by simp [relayHeaderSize])

end Fields

theorem putUint32BE_uint32BE {b : Bytes} (h : b.length = 4) : putUint32BE (uint32BE b) = b := by
  have hlt : beDecode b < 2 ^ 32 := by
    have := beDecode_lt b
    rw [h] at this
    omega
  rw [putUint32BE, uint32BE, UInt32.toNat_ofNat_of_lt' hlt, ← h, beEncode_beDecode]

/-- A packet is its header and its payload. -/
theorem relayPacketBytes_eq {data : Bytes} (h : relayHeaderSize ≤ data.length) :
    relayPacketBytes (senderOf data) (destOf data) (data.drop relayHeaderSize) = data := by
  have h8 : 8 ≤ data.length := h
  have hmid : data.take 4 ++ (data.take 8).drop 4 = data.take 8 := by
    have h4 : data.take 4 = (data.take 8).take 4 := by rw [List.take_take]; rfl
    rw [h4, List.take_append_drop]
  rw [relayPacketBytes, senderOf, destOf, putUint32BE_uint32BE (by simp; omega),
    putUint32BE_uint32BE (by simp; omega), hmid]
  exact List.take_append_drop 8 data

theorem decodeRelayPacket_relayPacketBytes (senderID destID : UInt32) (payload : Bytes) :
    decodeRelayPacket (relayPacketBytes senderID destID payload) =
      .ok (.ok ⟨senderID, destID, payload⟩) := by
  rw [decodeRelayPacket_of_le (by rw [length_relayPacketBytes]; omega), senderOf_relayPacketBytes,
    destOf_relayPacketBytes, drop_relayPacketBytes]

end SturmRelay
