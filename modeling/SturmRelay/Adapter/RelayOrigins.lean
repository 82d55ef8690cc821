import SturmRelay.Adapter.Framing
import SturmRelay.Adapter.RelayPath

/-! # Where the packets on the relay path come from

`Put` says what reasons an adapter can have to send a payload to an ID, in terms of what the games and
the ping loops have started. The four sections below say that it holds of what a peer keeps and sends,
of the datagrams in both directions, and of what an adapter keeps and sends. -/

namespace SturmRelay
namespace Adapter
set_option autoImplicit false

open SessionManager

/-! ## Where packets come from -/

section Origins
variable {ι : Type} (rs : Roster ι) (log : Journal ι)

/-- The adapter has read the payload from its game, or made it in its ping loop, for this ID. -/
def Made (j : ι) (destID : UInt32) (payload : Bytes) : Prop :=
  ⟨j, destID, payload⟩ ∈ log.fromGame ∨ ∃ nowNs, payload = pingFrame nowNs ∧ ⟨j, destID, nowNs⟩ ∈ log.pings

/-- A packet with this destination is for adapter `i`. -/
def Roster.For (i : ι) (destID : UInt32) : Prop := destID = rs.id i ∨ destID = broadcastDest

/-- The adapter has a reason to send the payload to this ID: it was made there, or it answers a ping.
If the ping came from an adapter, it was made there. -/
inductive Put (j : ι) (destID : UInt32) (payload : Bytes) : Prop
  | made (h : Made log j destID payload)
  | answer (ping : Bytes) (hkind : frameKind ping = .ping) (hpong : payload = pongFrame ping)
      (hdest : destID ≠ broadcastDest)
      (hping : ∀ i, destID = rs.id i → ∃ d, rs.For j d ∧ Made log i d ping)

/-- The payload may have come from adapter `j` to adapter `i`. -/
def Arrived (j i : ι) (payload : Bytes) : Prop := ∃ d, rs.For i d ∧ Put rs log j d payload

/-- One journal continues another. -/
structure Journal.Extends (log' log : Journal ι) : Prop where
  fromGame : log.fromGame ⊆ log'.fromGame
  pings : log.pings ⊆ log'.pings

variable {rs log} {log' : Journal ι} {i j : ι} {destID : UInt32} {payload : Bytes}

theorem Made.extend (hl : log'.Extends log) (h : Made log j destID payload) : Made log' j destID payload :=
  h.imp (fun hm => hl.fromGame hm) fun ⟨nowNs, he, hm⟩ => ⟨nowNs, he, hl.pings hm⟩

theorem Put.extend (hl : log'.Extends log) (h : Put rs log j destID payload) :
    Put rs log' j destID payload := by
  cases h with
  | made h => exact .made (h.extend hl)
  | answer ping hkind hpong hdest hping =>
    refine .answer ping hkind hpong hdest fun i hi => ?_
    obtain ⟨d, hd, hm⟩ := hping i hi
    exact ⟨d, hd, hm.extend hl⟩

theorem Arrived.extend (hl : log'.Extends log) (h : Arrived rs log j i payload) :
    Arrived rs log' j i payload := by
  obtain ⟨d, hd, hp⟩ := h
  exact ⟨d, hd, hp.extend hl⟩

/-- Only game data reaches a game, and it was made by a game. -/
theorem Put.fromGame (h : Put rs log j destID payload) (hkind : frameKind payload = .gameData) :
    ⟨j, destID, payload⟩ ∈ log.fromGame := by
  cases h with
  | made h =>
    rcases h with h | ⟨nowNs, rfl, -⟩
    · exact h
    · rw [frameKind_pingFrame] at hkind
      cases hkind
  | answer ping hping hpong _ _ =>
    rw [hpong, frameKind_pongFrame hping] at hkind
    cases hkind

/-- A ping is no answer. -/
theorem Put.madePing (h : Put rs log j destID payload) (hkind : frameKind payload = .ping) :
    Made log j destID payload := by
  cases h with
  | made h => exact h
  | answer ping hping hpong _ _ =>
    rw [hpong, frameKind_pongFrame hping] at hkind
    cases hkind

theorem extends_note (i : ι) (p : RelayPeer) (t : PeerTask) : (log.note i p t).Extends log := by
  unfold Journal.note
  split
  · split
    · exact ⟨List.subset_append_left _ _, fun _ h => h⟩
    · exact ⟨fun _ h => h, fun _ h => h⟩
  · exact ⟨fun _ h => h, List.subset_append_left _ _⟩
  · exact ⟨fun _ h => h, fun _ h => h⟩

end Origins

/-! ## Peers -/

section Peers
variable {ι : Type} {rs : Roster ι} {log log' : Journal ι} {i : ι} {p : RelayPeer}

/-- A player's ID fits its 32 bits, so nothing is cut off. -/
theorem RelayPeer.destID_eq {id : UInt32} (h : p.playerID = id.toNat) : p.destID = id := by
  have hlt := id.toNat_lt
  rw [RelayPeer.destID, h, ← UInt32.toNat_inj, UInt32.ofInt, UInt32.toNat_ofNat']
  omega

/-- The payload waits in the channel or is being dealt with. -/
def RelayPeer.Holds (p : RelayPeer) (payload : Bytes) : Prop :=
  payload ∈ p.fromCh.items ∨ p.incoming = some payload

/-- Everything the peer holds has come from the player it is for. -/
structure PeerSound (rs : Roster ι) (log : Journal ι) (i : ι) (p : RelayPeer) : Prop where
  sender : ∀ payload, p.Holds payload → ∃ sender : UInt32, p.playerID = sender.toNat ∧ sender ≠ broadcastDest
  arrived : ∀ payload, p.Holds payload → ∀ j, p.playerID = (rs.id j).toNat → Arrived rs log j i payload
  outgoing : ∀ payload, p.outgoing = some payload → ⟨i, p.destID, payload⟩ ∈ log.fromGame

theorem PeerSound.extend (hl : log'.Extends log) (h : PeerSound rs log i p) : PeerSound rs log' i p where
  sender := h.sender
  arrived payload hp j hj := (h.arrived payload hp j hj).extend hl
  outgoing payload hp := hl.fromGame (h.outgoing payload hp)

theorem peerSound_new (playerID : ℤ) : PeerSound rs log i { playerID := playerID } where
  sender payload h := by
    rcases h with h | h
    · exact absurd h List.not_mem_nil
    · cases h
  arrived payload h := by
    rcases h with h | h
    · exact absurd h List.not_mem_nil
    · cases h
  outgoing payload h := by cases h

/-- A step that takes nothing new from the relay, and what it says to the relay and to the game. -/
structure Faithful (rs : Roster ι) (log : Journal ι) (i : ι) (p : RelayPeer) (out : RelayPeer × PeerReply) :
    Prop where
  sound : PeerSound rs log i out.1
  playerID : out.1.playerID = p.playerID
  sends : ∀ destID payload, out.2 = .send destID payload → Put rs log i destID payload
  writes : ∀ addr data, out.2 = .write addr data → frameKind data = .gameData ∧
    ∀ j, p.playerID = (rs.id j).toNat → Arrived rs log j i data
  measures : ∀ sentNs nowNs, out.2 = .measured sentNs nowNs → ∃ pong, frameKind pong = .pong ∧
    echoTimestamp pong = sentNs ∧ ∀ j, p.playerID = (rs.id j).toNat → Arrived rs log j i pong

/-- Nothing is said. -/
theorem faithful_silent {p' : RelayPeer} (h : PeerSound rs log i p') (hid : p'.playerID = p.playerID) :
    Faithful rs log i p (p', .silent) where
  sound := h
  playerID := hid
  sends _ _ he := by cases he
  writes _ _ he := by cases he
  measures _ _ he := by cases he

theorem PeerSound.deliverFromRelay (h : PeerSound rs log i p) {sender : UInt32} {payload : Bytes}
    (hid : p.playerID = sender.toNat) (hsender : sender ≠ broadcastDest)
    (hcome : ∀ j, sender = rs.id j → Arrived rs log j i payload) :
    PeerSound rs log i (p.deliverFromRelay payload) where
  sender _ _ := ⟨sender, hid, hsender⟩
  arrived q hq j hj := by
    have hcase : p.Holds q ∨ q = payload := by
      rcases hq with hq | hq
      · exact (Mailbox.mem_offer hq).imp Or.inl id
      · exact Or.inl (Or.inr hq)
    rcases hcase with hold | rfl
    · exact h.arrived q hold j hj
    · have hnat : sender.toNat = (rs.id j).toNat := by
        have := hid.symm.trans hj
        omega
      exact hcome j (UInt32.toNat_inj.mp hnat)
  outgoing := h.outgoing

theorem faithful_gamePacket (h : PeerSound rs log i p) (remoteAddr : AddrPort) (datagram : Bytes) :
    Faithful rs (log.note i p (.gamePacket remoteAddr datagram)) i p
      (p.perform (.gamePacket remoteAddr datagram)) := by
  have hext : (log.note i p (.gamePacket remoteAddr datagram)).Extends log := extends_note i p _
  simp only [RelayPeer.perform, RelayPeer.gamePacket]
  cases hout : p.outgoing with
  | some data => exact faithful_silent (h.extend hext) rfl
  | none =>
    refine faithful_silent ⟨h.sender, (h.extend hext).arrived, fun payload he => ?_⟩ rfl
    cases he
    rw [Journal.note, if_pos hout]
    exact List.mem_append_right _ (List.mem_singleton.mpr rfl)

theorem faithful_forward (h : PeerSound rs log i p) : Faithful rs log i p p.forward := by
  unfold RelayPeer.forward
  cases hout : p.outgoing with
  | none => exact faithful_silent h rfl
  | some data =>
    refine ⟨⟨h.sender, h.arrived, fun _ he => by cases he⟩, rfl, ?_, fun _ _ he => ?_, fun _ _ he => ?_⟩
    · intro destID payload he
      cases he
      exact .made (.inl (h.outgoing data hout))
    · cases he
    · cases he

theorem faithful_take (h : PeerSound rs log i p) : Faithful rs log i p (p.take, .silent) := by
  have hheld : ∀ payload, p.take.Holds payload → p.Holds payload := by
    unfold RelayPeer.take
    split
    · next data hin hhead =>
      rintro payload (hm | hm)
      · exact Or.inl (Mailbox.mem_rest hm)
      · cases hm
        exact Or.inl (List.mem_of_head? hhead)
    · exact fun _ hm => hm
  have hid : p.take.playerID = p.playerID := by
    unfold RelayPeer.take
    split <;> rfl
  have hout : p.take.outgoing = p.outgoing := by
    unfold RelayPeer.take
    split <;> rfl
  refine faithful_silent ⟨fun q hq => ?_, fun q hq j hj => ?_, fun q hq => ?_⟩ hid
  · rw [hid]
    exact h.sender q (hheld q hq)
  · rw [hid] at hj
    exact h.arrived q (hheld q hq) j hj
  · rw [hout] at hq
    rw [RelayPeer.destID, hid]
    exact h.outgoing q hq

/-- The answer to a ping goes to where the ping came from. -/
theorem put_answer (h : PeerSound rs log i p) {ping : Bytes} (hin : p.incoming = some ping)
    (hkind : frameKind ping = .ping) : Put rs log i p.destID (pongFrame ping) := by
  obtain ⟨sender, hid, hsender⟩ := h.sender ping (Or.inr hin)
  have hdest : p.destID = sender := RelayPeer.destID_eq hid
  refine .answer ping hkind rfl (hdest ▸ hsender) fun j hj => ?_
  obtain ⟨d, hd, hput⟩ := h.arrived ping (Or.inr hin) j (by rw [hid, ← hdest, hj])
  exact ⟨d, hd, hput.madePing hkind⟩

theorem faithful_handle (h : PeerSound rs log i p) (nowNs : ℤ) : Faithful rs log i p (p.handle nowNs) := by
  unfold RelayPeer.handle
  cases hin : p.incoming with
  | none => exact faithful_silent h rfl
  | some data =>
    have hdone : PeerSound rs log i { p with incoming := none } := by
      have hheld : ∀ q, RelayPeer.Holds { p with incoming := none } q → p.Holds q := by
        rintro q (hq | hq)
        · exact Or.inl hq
        · cases hq
      exact ⟨fun q hq => h.sender q (hheld q hq), fun q hq => h.arrived q (hheld q hq), h.outgoing⟩
    have hcome := h.arrived data (Or.inr hin)
    dsimp only
    cases hkind : frameKind data with
    | ping =>
      refine ⟨hdone, rfl, fun _ _ he => ?_, fun _ _ he => ?_, fun _ _ he => ?_⟩
      · cases he
        exact put_answer h hin hkind
      · cases he
      · cases he
    | pong =>
      dsimp only
      split
      · refine ⟨⟨hdone.sender, hdone.arrived, hdone.outgoing⟩, rfl, fun _ _ he => ?_, fun _ _ he => ?_,
          fun _ _ he => ?_⟩
        · cases he
        · cases he
        · exact ⟨data, hkind, (PeerReply.measured.inj he).1, hcome⟩
      · exact faithful_silent hdone rfl
    | gameData =>
      dsimp only
      split
      · exact faithful_silent hdone rfl
      · refine ⟨hdone, rfl, fun _ _ he => ?_, fun _ _ he => ?_, fun _ _ he => ?_⟩
        · cases he
        · cases he
          exact ⟨hkind, hcome⟩
        · cases he

theorem faithful_ping (h : PeerSound rs log i p) (nowNs : ℤ) :
    Faithful rs (log.note i p (.ping nowNs)) i p (p.perform (.ping nowNs)) := by
  refine ⟨h.extend (extends_note i p (.ping nowNs)), rfl, fun _ _ he => ?_, fun _ _ he => ?_,
    fun _ _ he => ?_⟩
  · cases he
    exact .made (.inr ⟨nowNs, rfl, List.mem_append_right _ (List.mem_singleton.mpr rfl)⟩)
  · cases he
  · cases he

theorem PeerSound.perform (h : PeerSound rs log i p) (t : PeerTask) :
    Faithful rs (log.note i p t) i p (p.perform t) := by
  cases t with
  | gamePacket remoteAddr datagram => exact faithful_gamePacket h remoteAddr datagram
  | forward => exact faithful_forward h
  | take => exact faithful_take h
  | handle nowNs => exact faithful_handle h nowNs
  | ping nowNs => exact faithful_ping h nowNs

end Peers

/-! ## Packets on the network -/

section Packets
variable {ι : Type} (rs : Roster ι) (log : Journal ι)

/-- What an adapter has sent to the server. -/
def Uplink (d : AddrPort × Bytes) : Prop :=
  ∃ j destID payload, d = (rs.addr j, relayPacketBytes (rs.id j) destID payload) ∧
    payload.length ≤ maxRelayPayload ∧ (destID = rs.id j ∨ Put rs log j destID payload)

/-- What the server has sent to adapter `i`. -/
structure Downlink (i : ι) (bytes : Bytes) : Prop where
  length_le : bytes.length ≤ packetBufferSize
  sender : relayHeaderSize ≤ bytes.length → senderOf bytes ≠ broadcastDest
  origin : ∀ j, relayHeaderSize ≤ bytes.length → senderOf bytes = rs.id j → j ≠ i →
    ∃ destID payload, bytes = relayPacketBytes (rs.id j) destID payload ∧
      rs.For i destID ∧ Put rs log j destID payload

/-- What the server reads: a datagram of an adapter, or a packet of a stranger. -/
inductive Ingress (pkt : Packet) : Prop
  | adapter (j : ι) (destID : UInt32) (payload : Bytes) (hsrc : pkt.src = .udp (rs.addr j))
      (hdata : pkt.data = relayPacketBytes (rs.id j) destID payload)
      (hput : destID = rs.id j ∨ Put rs log j destID payload)
  | stranger (hsrc : ∀ i, pkt.src ≠ .udp (rs.addr i))
      (hsender : relayHeaderSize ≤ pkt.data.length →
        senderOf pkt.data ≠ broadcastDest ∧ ∀ i, senderOf pkt.data ≠ rs.id i)

variable {rs log} {log' : Journal ι}

theorem Uplink.extend (hl : log'.Extends log) {d : AddrPort × Bytes} (h : Uplink rs log d) :
    Uplink rs log' d := by
  obtain ⟨j, destID, payload, hd, hlen, hput⟩ := h
  exact ⟨j, destID, payload, hd, hlen, hput.imp_right fun hp => hp.extend hl⟩

theorem Downlink.extend (hl : log'.Extends log) {i : ι} {bytes : Bytes} (h : Downlink rs log i bytes) :
    Downlink rs log' i bytes := by
  refine ⟨h.length_le, h.sender, fun j hlen hj hne => ?_⟩
  obtain ⟨destID, payload, hd, hfor, hput⟩ := h.origin j hlen hj hne
  exact ⟨destID, payload, hd, hfor, hput.extend hl⟩

theorem Uplink.ingress {d : AddrPort × Bytes} (h : Uplink rs log d) (now : Instant)
    (o : RangeOrder PlayerID) : Ingress rs log (datagramPacket d.1 d.2 now o) := by
  obtain ⟨j, destID, payload, rfl, hlen, hput⟩ := h
  refine .adapter j destID payload rfl ?_ hput
  have h1392 : payload.length ≤ 1392 := hlen
  refine List.take_of_length_le ?_
  rw [length_relayPacketBytes]
  unfold relayHeaderSize readBufferSize
  omega

/-- An endpoint at an adapter's address is known for that adapter's player only. -/
def Roster.Owns (p : PlayerID) (e : Endpoint) : Prop := ∀ i, e = .udp (rs.addr i) → p = rs.id i

theorem Ingress.owns {pkt : Packet} (h : Ingress rs log pkt) : rs.Owns (senderOf pkt.data) pkt.src := by
  intro i hi
  cases h with
  | adapter j destID payload hsrc hdata _ =>
    obtain rfl : j = i := rs.addr_injective (Endpoint.udp.inj (hsrc.symm.trans hi))
    rw [hdata, senderOf_relayPacketBytes]
  | stranger hsrc _ => exact absurd hi (hsrc i)

theorem Ingress.sender_ne {pkt : Packet} (h : Ingress rs log pkt)
    (hlen : relayHeaderSize ≤ pkt.data.length) : senderOf pkt.data ≠ broadcastDest := by
  cases h with
  | adapter j destID payload _ hdata _ =>
    rw [hdata, senderOf_relayPacketBytes]
    exact rs.id_ne_broadcast j
  | stranger _ hsender => exact (hsender hlen).1

theorem Ingress.origin {pkt : Packet} (h : Ingress rs log pkt) (hlen : relayHeaderSize ≤ pkt.data.length)
    {j : ι} (hj : senderOf pkt.data = rs.id j) : ∃ destID payload,
      pkt.data = relayPacketBytes (rs.id j) destID payload ∧
        (destID = rs.id j ∨ Put rs log j destID payload) := by
  cases h with
  | adapter j' destID payload _ hdata hput =>
    rw [hdata, senderOf_relayPacketBytes] at hj
    obtain rfl := rs.id_injective hj
    exact ⟨destID, payload, hdata, hput⟩
  | stranger _ hsender => exact absurd hj ((hsender hlen).2 j)

theorem length_le_of_readable (pkt : Packet) : pkt.data.length ≤ packetBufferSize := by
  have hread := pkt.readable
  cases hsrc : pkt.src with
  | udp addr =>
    rw [hsrc] at hread
    exact hread
  | tcp conn =>
    rw [hsrc] at hread
    exact hread.2.trans (by decide)

/-- A copy that goes to an adapter's address is for that adapter. -/
theorem downlink_copy {sm : SessionManager} {net : Network} {pkt : Packet} {h : Handled}
    (hc : Consistent sm) (hend : EndpointsAll rs.Owns sm) (hin : Ingress rs log pkt)
    (hok : sm.handlePacket net pkt.order pkt.src pkt.data pkt.now = .ok h) {copy : Sent}
    (hcopy : copy ∈ h.sent) {i : ι} (hi : copy.endpoint = .udp (rs.addr i)) :
    Downlink rs log i copy.bytes := by
  obtain ⟨hlen, r, hr, hto⟩ := copyOf_sent hc hok hcopy
  have hbytes : copy.bytes = pkt.data := by
    rw [hto.bytes, hi]
    rfl
  rw [hbytes]
  refine ⟨length_le_of_readable pkt, hin.sender_ne, fun j _ hj hne => ?_⟩
  obtain ⟨destID, payload, hdata, hput⟩ := hin.origin hlen hj
  have hdest : destOf pkt.data = destID := by rw [hdata, destOf_relayPacketBytes]
  rcases hto.addressee with ⟨-, -, hsrc⟩ | ⟨hother, hfor, hknown⟩
  · -- an echo goes back to the adapter it came from
    have hown := hin.owns i (hsrc.symm.trans hi)
    exact absurd (rs.id_injective (hj.symm.trans hown)) hne
  · obtain ⟨sid, -, hsid, -⟩ := hc.of_findSessionByPlayer hr
    have hid : copy.playerID = rs.id i := hknown.allowed hend hsid i hi
    rw [hid, hdest] at hfor
    refine ⟨destID, payload, hdata, hfor.symm, hput.resolve_left ?_⟩
    rintro rfl
    rcases hfor with hb | he
    · exact rs.id_ne_broadcast j hb
    · exact hne (rs.id_injective he)

end Packets

/-! ## Adapters -/

section Adapters
variable {ι : Type} {rs : Roster ι} {log log' : Journal ι} {i : ι} {a : RelayAdapter}

structure AdapterSound (rs : Roster ι) (log : Journal ι) (i : ι) (a : RelayAdapter) : Prop where
  localID : a.rc.localID = rs.id i
  relayAddr : a.rc.relayAddr = rs.serverAddr
  udp : a.rc.useTCP = false
  table : ∀ playerID r, a.peers.lookup playerID = some r →
    r < a.heap.next ∧ (a.heap.cell r).playerID = playerID
  peers : ∀ r < a.heap.next, PeerSound rs log i (a.heap.cell r)

theorem AdapterSound.extend (hl : log'.Extends log) (h : AdapterSound rs log i a) :
    AdapterSound rs log' i a :=
  ⟨h.localID, h.relayAddr, h.udp, h.table, fun r hr => (h.peers r hr).extend hl⟩

theorem adapterSound_start : AdapterSound rs log i { rc := newRelayConnection rs.serverAddr (rs.id i) } where
  localID := rfl
  relayAddr := rfl
  udp := rfl
  table playerID r hr := by
    rw [AList.lookup_empty] at hr
    cases hr
  peers r hr := absurd hr (Nat.not_lt_zero r)

theorem AdapterSound.addPeer (h : AdapterSound rs log i a) (playerID : ℤ) :
    AdapterSound rs log i (a.addPeer playerID) := by
  unfold RelayAdapter.addPeer
  cases a.peers.lookup playerID with
  | some r => exact h
  | none =>
    refine ⟨h.localID, h.relayAddr, h.udp, fun pid r hr => ?_, fun r hr => ?_⟩
    · rw [Table.lookup_insert_eq_ite] at hr
      split at hr
      · next he =>
        cases hr
        refine ⟨Nat.lt_succ_self _, ?_⟩
        rw [Heap.alloc_cell_self]
        exact he.symm
      · obtain ⟨hlt, hid⟩ := h.table pid r hr
        refine ⟨Nat.lt_succ_of_lt hlt, ?_⟩
        rw [Heap.alloc_cell_of_lt _ _ hlt]
        exact hid
    · rcases Nat.lt_succ_iff_lt_or_eq.mp hr with hlt | rfl
      · rw [Heap.alloc_cell_of_lt _ _ hlt]
        exact h.peers r hlt
      · rw [Heap.alloc_cell_self]
        exact peerSound_new playerID

theorem AdapterSound.removePeer (h : AdapterSound rs log i a) (playerID : ℤ) :
    AdapterSound rs log i (a.removePeer playerID) := by
  refine ⟨h.localID, h.relayAddr, h.udp, fun pid r hr => ?_, h.peers⟩
  change (a.peers.erase playerID).lookup pid = some r at hr
  rw [Table.lookup_erase_eq_ite] at hr
  split at hr
  · cases hr
  · exact h.table pid r hr

theorem AdapterSound.setPeer (h : AdapterSound rs log i a) {r : PeerPtr} {p : RelayPeer}
    (hp : PeerSound rs log i p) (hid : p.playerID = (a.heap.cell r).playerID) :
    AdapterSound rs log i (a.setPeer r p) := by
  refine ⟨h.localID, h.relayAddr, h.udp, fun pid r' hr' => ?_, fun r' hr' => ?_⟩
  · obtain ⟨hlt, hpid⟩ := h.table pid r' hr'
    refine ⟨hlt, ?_⟩
    change ((a.heap.modify r fun _ => p).cell r').playerID = pid
    by_cases he : r' = r
    · subst he
      rw [Heap.modify_cell_self, hid, hpid]
    · rw [Heap.modify_cell_ne _ _ he, hpid]
  · change PeerSound rs log i ((a.heap.modify r fun _ => p).cell r')
    by_cases he : r' = r
    · subst he
      rw [Heap.modify_cell_self]
      exact hp
    · rw [Heap.modify_cell_ne _ _ he]
      exact h.peers r' hr'

theorem AdapterSound.setConnection (h : AdapterSound rs log i a) {rc : RelayConnection}
    (hs : RelayConnection.SameSettings a.rc rc) : AdapterSound rs log i { a with rc := rc } :=
  ⟨hs.localID.trans h.localID, hs.relayAddr.trans h.relayAddr, hs.useTCP.trans h.udp, h.table, h.peers⟩

/-- What a send leaves on the network. -/
structure Sends (rs : Roster ι) (log : Journal ι) (i : ι) (out : RelayAdapter × Option Bytes) : Prop where
  sound : AdapterSound rs log i out.1
  uplink : ∀ bytes, out.2 = some bytes → Uplink rs log (rs.addr i, bytes)

theorem sends_nothing (h : AdapterSound rs log i a) : Sends rs log i (a, none) :=
  ⟨h, fun _ he => by cases he⟩

theorem AdapterSound.send (h : AdapterSound rs log i a) {destID : UInt32} {payload : Bytes}
    (hput : Put rs log i destID payload) : Sends rs log i (a.send destID payload) := by
  unfold RelayAdapter.send
  by_cases hlen : payload.length ≤ maxRelayPayload
  · obtain ⟨rc', hsend, hsame⟩ := RelayConnection.send_eq hlen destID a.rc
    rw [hsend]
    refine ⟨h.setConnection hsame, fun bytes he => ⟨i, destID, payload, ?_, hlen, Or.inr hput⟩⟩
    cases he
    rw [RelayConnection.wireOf, h.udp, h.localID]
    rfl
  · have hbig : maxRelayPacket < relayHeaderSize + payload.length := by
      unfold maxRelayPayload relayHeaderSize maxRelayPacket at *
      omega
    rw [RelayConnection.send, if_pos hbig]
    exact sends_nothing h

theorem AdapterSound.sendHello (h : AdapterSound rs log i a) : Sends rs log i a.sendHello := by
  obtain ⟨rc', hsend, hsame⟩ := a.rc.sendHello_eq
  unfold RelayAdapter.sendHello
  rw [hsend]
  refine ⟨h.setConnection hsame, fun bytes he => ⟨i, rs.id i, [], ?_, Nat.zero_le _, Or.inl rfl⟩⟩
  cases he
  rw [RelayConnection.wireOf, h.udp, h.localID]
  rfl

theorem AdapterSound.runTask (h : AdapterSound rs log i a) {r : PeerPtr} (hr : r < a.heap.next)
    (t : PeerTask) : Sends rs (log.note i (a.heap.cell r) t) i (a.runTask r t) := by
  have hf := (h.peers r hr).perform t
  have hset := (h.extend (extends_note i (a.heap.cell r) t)).setPeer hf.sound hf.playerID
  unfold RelayAdapter.runTask
  dsimp only
  split
  · next destID payload he => exact hset.send (hf.sends destID payload he)
  · exact sends_nothing hset

/-- What `receive` hands on is the payload of the packet, under the ID of its sender. -/
theorem receive_dispatch {rc : RelayConnection} {data : Bytes} {senderID : UInt32} {payload : Bytes} {n : ℕ}
    (h : rc.receive data = .ok (.dispatch senderID payload n)) :
    relayHeaderSize ≤ data.length ∧ senderID = senderOf data ∧ senderID ≠ rc.localID ∧
      payload = data.drop relayHeaderSize := by
  unfold RelayConnection.receive at h
  split at h
  · cases h
  · next hlen =>
    have hle := Nat.le_of_not_lt hlen
    rw [decodeRelayHeader_of_le hle, slice_of_le hle (Nat.le_refl _), List.take_length] at h
    by_cases hlocal : senderOf data = rc.localID
    · simp [bind, Except.bind, hlocal] at h
      cases h
    · simp only [bind, Except.bind, hlocal, if_false, pure, Except.pure] at h
      cases h
      exact ⟨hle, rfl, hlocal, rfl⟩

theorem AdapterSound.receive (h : AdapterSound rs log i a) (src : AddrPort) {datagram : Bytes}
    (hdown : src.addr = rs.serverAddr.addr → Downlink rs log i datagram) :
    AdapterSound rs log i (a.receive src datagram) := by
  unfold RelayAdapter.receive
  split
  · next senderID payload n hrecv =>
    split
    · next r hr =>
      unfold RelayConnection.receiveUDP at hrecv
      split at hrecv
      · cases hrecv
      · next hsrc =>
        have hd := hdown (by rw [← h.relayAddr]; exact not_not.mp hsrc)
        rw [List.take_of_length_le hd.length_le] at hrecv
        obtain ⟨hlen, rfl, hother, rfl⟩ := receive_dispatch hrecv
        obtain ⟨hlt, hid⟩ := h.table _ r hr
        refine h.setPeer ((h.peers r hlt).deliverFromRelay hid (hd.sender hlen) fun j hj => ?_) rfl
        have hne : j ≠ i := by
          rintro rfl
          exact hother (hj.trans h.localID.symm)
        obtain ⟨destID, payload, hbytes, hfor, hput⟩ := hd.origin j hlen hj hne
        rw [hbytes, drop_relayPacketBytes]
        exact ⟨destID, hfor, hput⟩
    · exact h
  · exact h

end Adapters

end Adapter
end SturmRelay
