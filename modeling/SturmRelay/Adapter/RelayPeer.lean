import SturmRelay.Foundations.Mailbox
import SturmRelay.Foundations.Runs
import SturmRelay.Adapter.RelayConnection
import SturmRelay.Adapter.GameData

/-! # Relay peers

`internal/adapter/peer.go`: between the game's socket for one other player and the relay connection.
Three goroutines run for a peer, and the receive loop of the connection calls `DeliverFromRelay`:

* `gameToRelay` reads a packet and learns the game's address from the first one, then sends it;
* `relayToGame` takes a packet from `fromCh`, then answers it, measures with it or writes it;
* `pingLoop` sends a ping at every tick.

One event is one step of one of them. Between its two steps a goroutine holds its packet (`outgoing`,
`incoming`). An event that its goroutine cannot take where it stands changes nothing. -/

namespace SturmRelay
namespace Adapter
set_option autoImplicit false

/-! ## Echo frames -/

def echoMagicPing : Bytes := [0xAF, 0xEC, 0xFA, 0x00]
def echoMagicPong : Bytes := [0xAF, 0xED, 0xFA, 0x00]
def echoFrameSize : ℕ := 12
def fromChCap : ℕ := 256

inductive FrameKind
  | ping
  | pong
  | gameData
  deriving DecidableEq, Repr

/-- How `relayToGame` takes a packet. -/
def frameKind (data : Bytes) : FrameKind :=
  if data.length = echoFrameSize then
    if data.take 4 = echoMagicPing then .ping
    else if data.take 4 = echoMagicPong then .pong
    else .gameData
  else .gameData

/-- The frame `pingLoop` builds, with the time as a `uint64`. -/
def pingFrame (nowNs : ℤ) : Bytes := echoMagicPing ++ beEncode 8 (nowNs % 2 ^ 64).toNat

/-- The answer to a ping: its timestamp under the other magic. -/
def pongFrame (ping : Bytes) : Bytes := echoMagicPong ++ ping.drop 4

/-- The timestamp of a frame, as an `int64`. -/
def echoTimestamp (data : Bytes) : ℤ := GameLink.int64 (beDecode (data.drop 4))

theorem frameKind_pingFrame (nowNs : ℤ) : frameKind (pingFrame nowNs) = .ping := by
  have hlen : (pingFrame nowNs).length = echoFrameSize := by
    rw [pingFrame, List.length_append, length_beEncode]
    rfl
  have hmagic : (pingFrame nowNs).take 4 = echoMagicPing := List.take_left' rfl
  rw [frameKind, if_pos hlen, if_pos hmagic]

theorem length_of_frameKind {data : Bytes} (h : frameKind data ≠ .gameData) :
    data.length = echoFrameSize := by
  unfold frameKind at h
  split at h
  · assumption
  · exact absurd rfl h

theorem frameKind_pongFrame {ping : Bytes} (h : frameKind ping = .ping) :
    frameKind (pongFrame ping) = .pong := by
  have hping : ping.length = 12 := length_of_frameKind (by rw [h]; decide)
  have hlen : (pongFrame ping).length = echoFrameSize := by
    rw [pongFrame, List.length_append, List.length_drop, hping]
    rfl
  have hmagic : (pongFrame ping).take 4 = echoMagicPong := List.take_left' rfl
  rw [frameKind, if_pos hlen, hmagic]
  rfl

/-- A pong carries the timestamp of its ping. -/
theorem echoTimestamp_pongFrame (ping : Bytes) :
    echoTimestamp (pongFrame ping) = echoTimestamp ping := by
  have hdrop : (pongFrame ping).drop 4 = ping.drop 4 := List.drop_left' rfl
  rw [echoTimestamp, hdrop, echoTimestamp]

/-- And a ping the time it was built at. -/
theorem echoTimestamp_pingFrame (nowNs : ℤ) : echoTimestamp (pingFrame nowNs) = GameLink.int64 nowNs := by
  have hdrop : (pingFrame nowNs).drop 4 = beEncode 8 (nowNs % 2 ^ 64).toNat := List.drop_left' rfl
  have hnonneg : 0 ≤ nowNs % 2 ^ 64 := Int.emod_nonneg _ (by decide)
  have hval : ((beDecode (beEncode 8 (nowNs % 2 ^ 64).toNat) : ℕ) : ℤ) = nowNs % 2 ^ 64 := by
    rw [beDecode_beEncode]
    omega
  rw [echoTimestamp, hdrop, hval]
  unfold GameLink.int64
  exact Int.emod_bmod nowNs (2 ^ 64)

/-! ## The peer -/

structure RelayPeer where
  playerID : ℤ
  gameAddr : Option AddrPort := none
  fromCh : Mailbox Bytes fromChCap := .empty
  rttMs : ℤ := 0
  /-- What `gameToRelay` has read and not sent yet. -/
  outgoing : Option Bytes := none
  /-- What `relayToGame` has taken from the channel and not dealt with yet. -/
  incoming : Option Bytes := none

/-- A step of one of the peer's goroutines. -/
inductive PeerTask
  | gamePacket (remoteAddr : AddrPort) (datagram : Bytes)
  | forward
  | take
  | handle (nowNs : ℤ)
  | ping (nowNs : ℤ)

inductive PeerEvent
  | deliver (data : Bytes)
  | task (t : PeerTask)

/-- What a step does outside the peer: a call of `relay.Send`, a write to the game's address, or a
measurement that is stored. -/
inductive PeerReply
  | silent
  | send (destID : UInt32) (payload : Bytes)
  | write (addr : AddrPort) (data : Bytes)
  | measured (sentNs nowNs : ℤ)
  deriving DecidableEq, Repr

namespace RelayPeer

/-- `uint32(p.PlayerID)`. -/
def destID (p : RelayPeer) : UInt32 := UInt32.ofInt p.playerID

/-- The first half of a turn of `gameToRelay`. -/
def gamePacket (remoteAddr : AddrPort) (datagram : Bytes) (p : RelayPeer) : RelayPeer :=
  match p.outgoing with
  | some _ => p
  | none =>
    { p with
      gameAddr := p.gameAddr.or (some remoteAddr)
      outgoing := some (datagram.take packetBufferSize) }

def forward (p : RelayPeer) : RelayPeer × PeerReply :=
  match p.outgoing with
  | none => (p, .silent)
  | some data => ({ p with outgoing := none }, .send p.destID data)

/-- `DeliverFromRelay`. -/
def deliverFromRelay (data : Bytes) (p : RelayPeer) : RelayPeer :=
  { p with fromCh := p.fromCh.offer data }

def take (p : RelayPeer) : RelayPeer :=
  match p.incoming, p.fromCh.items.head? with
  | none, some data => { p with fromCh := p.fromCh.rest, incoming := some data }
  | _, _ => p

/-- The rest of a turn of `relayToGame`. -/
def handle (nowNs : ℤ) (p : RelayPeer) : RelayPeer × PeerReply :=
  match p.incoming with
  | none => (p, .silent)
  | some data =>
    let p := { p with incoming := none }
    match frameKind data with
    | .ping => (p, .send p.destID (pongFrame data))
    | .pong =>
      let rtt := GameLink.int64 (nowNs - echoTimestamp data)
      if 0 < rtt then ({ p with rttMs := rtt / 1000000 }, .measured (echoTimestamp data) nowNs)
      else (p, .silent)
    | .gameData =>
      match p.gameAddr with
      | none => (p, .silent)
      | some addr => (p, .write addr data)

def perform (p : RelayPeer) : PeerTask → RelayPeer × PeerReply
  | .gamePacket remoteAddr datagram => (p.gamePacket remoteAddr datagram, .silent)
  | .forward => p.forward
  | .take => (p.take, .silent)
  | .handle nowNs => p.handle nowNs
  | .ping nowNs => (p, .send p.destID (pingFrame nowNs))

def step (p : RelayPeer) : PeerEvent → RelayPeer × PeerReply
  | .deliver data => (p.deliverFromRelay data, .silent)
  | .task t => p.perform t

/-! ## What a run shows -/

abbrev Turn := RelayPeer × PeerEvent × PeerReply

/-- The packet that goes into the channel. -/
def accepted (x : Turn) : Option Bytes :=
  match x.2.1 with
  | .deliver data => x.1.fromCh.kept data
  | _ => none

/-- The packet that `relayToGame` deals with. -/
def handled (x : Turn) : Option Bytes :=
  match x.2.1 with
  | .task (.handle _) => x.1.incoming
  | _ => none

/-- It does so before any packet of the game has been read, or after. -/
def handledEarly (x : Turn) : Option Bytes := if x.1.gameAddr = none then handled x else none

def handledLate (x : Turn) : Option Bytes := if x.1.gameAddr = none then none else handled x

/-- The packet that `gameToRelay` reads from the game, and where it comes from. -/
def readFromGame (x : Turn) : Option (AddrPort × Bytes) :=
  match x.2.1, x.1.outgoing with
  | .task (.gamePacket remoteAddr datagram), none => some (remoteAddr, datagram.take packetBufferSize)
  | _, _ => none

def written (x : Turn) : Option (AddrPort × Bytes) :=
  match x.2.2 with
  | .write addr data => some (addr, data)
  | _ => none

/-- What `relayToGame`, and what `gameToRelay`, sends to the relay. -/
def answered (x : Turn) : Option (UInt32 × Bytes) :=
  match x.2.1, x.2.2 with
  | .task (.handle _), .send destID payload => some (destID, payload)
  | _, _ => none

def forwarded (x : Turn) : Option (UInt32 × Bytes) :=
  match x.2.1, x.2.2 with
  | .task .forward, .send destID payload => some (destID, payload)
  | _, _ => none

/-- Where the game's packets go to: the source of its first one. -/
def firstSource (tr : List Turn) : Option AddrPort := (tr.filterMap readFromGame).head?.map Prod.fst

/-- The peer forwards in both directions without losing, repeating or reordering anything, except
that what finds the channel full is dropped before it and that game data is dropped as long as the
game has not sent a packet. Pings are answered, one answer each, and no echo frame goes to the game.
The game's address is known in a turn if and only if a packet of the game has been read before it. -/
structure Forwards (tr : List Turn) (p : RelayPeer) : Prop where
  addr : p.gameAddr = firstSource tr
  known : Throughout (fun before x => x.1.gameAddr = firstSource before) tr
  fromRelay : tr.filterMap accepted =
    tr.filterMap handledEarly ++ tr.filterMap handledLate ++ p.incoming.toList ++ p.fromCh.items
  toGame : (tr.filterMap written).map some =
    ((tr.filterMap handledLate).filter (frameKind · = .gameData)).map
      fun data => (firstSource tr).map (·, data)
  answers : tr.filterMap answered =
    ((tr.filterMap handledEarly ++ tr.filterMap handledLate).filter (frameKind · = .ping)).map
      fun ping => (p.destID, pongFrame ping)
  toRelay : tr.filterMap forwarded ++ p.outgoing.toList.map (p.destID, ·) =
    (tr.filterMap readFromGame).map fun x => (p.destID, x.2)

/-! ## One step -/

/-- What a step shows, in terms of the peer before and after it. -/
structure Effect (x : Turn) (p' : RelayPeer) : Prop where
  playerID : p'.playerID = x.1.playerID
  fromRelay : x.1.incoming.toList ++ x.1.fromCh.items ++ (accepted x).toList =
    (handled x).toList ++ p'.incoming.toList ++ p'.fromCh.items
  toGame : written x = ((handled x).filter (frameKind · = .gameData)).bind fun data =>
    x.1.gameAddr.map (·, data)
  answers : answered x = ((handled x).filter (frameKind · = .ping)).map fun ping =>
    (x.1.destID, pongFrame ping)
  toRelay : (forwarded x).toList ++ p'.outgoing.toList.map (x.1.destID, ·) =
    x.1.outgoing.toList.map (x.1.destID, ·) ++ (readFromGame x).toList.map fun y => (x.1.destID, y.2)
  addr : p'.gameAddr = x.1.gameAddr.or ((readFromGame x).map Prod.fst)

theorem effect_gamePacket (remoteAddr : AddrPort) (datagram : Bytes) (p : RelayPeer) :
    Effect (p, .task (.gamePacket remoteAddr datagram), .silent) (p.gamePacket remoteAddr datagram) := by
  unfold gamePacket
  cases hout : p.outgoing with
  | some data => constructor <;> simp [accepted, handled, written, answered, forwarded, readFromGame, hout]
  | none => constructor <;> simp [accepted, handled, written, answered, forwarded, readFromGame, hout]

theorem effect_forward (p : RelayPeer) : Effect (p, .task .forward, p.forward.2) p.forward.1 := by
  unfold forward
  cases hout : p.outgoing with
  | none => constructor <;> simp [accepted, handled, written, answered, forwarded, readFromGame, hout]
  | some data => constructor <;> simp [accepted, handled, written, answered, forwarded, readFromGame, hout]

theorem effect_deliverFromRelay (data : Bytes) (p : RelayPeer) :
    Effect (p, .deliver data, .silent) (p.deliverFromRelay data) := by
  unfold deliverFromRelay
  constructor <;>
    simp [accepted, handled, written, answered, forwarded, readFromGame, Mailbox.offer_items]

theorem effect_take (p : RelayPeer) : Effect (p, .task .take, .silent) p.take := by
  unfold take
  split
  · next data hin hhead =>
    have hitems := Mailbox.head?_cons_rest hhead
    constructor <;> simp [accepted, handled, written, answered, forwarded, readFromGame, hin, hitems]
  · constructor <;> simp [accepted, handled, written, answered, forwarded, readFromGame]

theorem effect_handle (nowNs : ℤ) (p : RelayPeer) :
    Effect (p, .task (.handle nowNs), (p.handle nowNs).2) (p.handle nowNs).1 := by
  unfold handle
  cases hin : p.incoming with
  | none => constructor <;> simp [accepted, handled, written, answered, forwarded, readFromGame, hin]
  | some data =>
    dsimp only
    cases hkind : frameKind data with
    | ping =>
      constructor <;>
        simp [accepted, handled, written, answered, forwarded, readFromGame, hin, hkind, destID, Option.filter]
    | pong =>
      dsimp only
      split <;> constructor <;>
        simp [accepted, handled, written, answered, forwarded, readFromGame, hin, hkind, Option.filter]
    | gameData =>
      cases haddr : p.gameAddr with
      | none =>
        constructor <;>
          simp [accepted, handled, written, answered, forwarded, readFromGame, hin, hkind, haddr, Option.filter]
      | some addr =>
        constructor <;>
          simp [accepted, handled, written, answered, forwarded, readFromGame, hin, hkind, haddr, Option.filter]

theorem effect_ping (nowNs : ℤ) (p : RelayPeer) :
    Effect (p, .task (.ping nowNs), .send p.destID (pingFrame nowNs)) p := by
  constructor <;> simp [accepted, handled, written, answered, forwarded, readFromGame]

theorem effect_step (p : RelayPeer) (ev : PeerEvent) : Effect (p, ev, (p.step ev).2) (p.step ev).1 := by
  cases ev with
  | deliver data => exact effect_deliverFromRelay data p
  | task t =>
    cases t with
    | gamePacket remoteAddr datagram => exact effect_gamePacket remoteAddr datagram p
    | forward => exact effect_forward p
    | take => exact effect_take p
    | handle nowNs => exact effect_handle nowNs p
    | ping nowNs => exact effect_ping nowNs p

/-! ## Every run -/

/-- What was handled without the game's address came before everything that was handled with it. -/
structure Follows (tr : List Turn) (p : RelayPeer) : Prop extends Forwards tr p where
  unknown : p.gameAddr = none → tr.filterMap handledLate = []

theorem firstSource_concat (tr : List Turn) (x : Turn) :
    firstSource (tr ++ [x]) = (firstSource tr).or ((readFromGame x).map Prod.fst) := by
  unfold firstSource
  rw [filterMap_concat, List.head?_append]
  cases (tr.filterMap readFromGame).head? with
  | none => cases readFromGame x <;> rfl
  | some y => rfl

theorem toList_map_filter {α β : Type} (o : Option α) (q : α → Bool) (f : α → β) :
    ((o.filter q).map f).toList = (o.toList.filter q).map f := by
  cases o with
  | none => rfl
  | some a => by_cases h : q a <;> simp [Option.filter, h]

theorem handled_eq (x : Turn) :
    (handled x).toList = (handledEarly x).toList ++ (handledLate x).toList := by
  unfold handledEarly handledLate
  split
  · rw [Option.toList_none, List.append_nil]
  · rw [Option.toList_none, List.nil_append]

variable {tr : List Turn} {x : Turn} {p' : RelayPeer}

/-- Nothing is handled late before the address is known, so what is handled early comes first. -/
theorem Follows.handledEarly_concat (h : Follows tr x.1) :
    (tr ++ [x]).filterMap handledEarly ++ (tr ++ [x]).filterMap handledLate =
      tr.filterMap handledEarly ++ tr.filterMap handledLate ++ (handled x).toList := by
  rw [filterMap_concat, filterMap_concat, handled_eq]
  cases haddr : x.1.gameAddr with
  | none =>
    rw [h.unknown haddr]
    simp only [List.nil_append, List.append_nil, List.append_assoc]
  | some addr =>
    have hearly : handledEarly x = none := by
      rw [handledEarly, haddr]
      rfl
    rw [hearly, Option.toList_none, List.append_nil, List.nil_append, List.append_assoc]

theorem Follows.fromRelay_concat (h : Follows tr x.1) (e : Effect x p') :
    (tr ++ [x]).filterMap accepted = (tr ++ [x]).filterMap handledEarly ++
      (tr ++ [x]).filterMap handledLate ++ p'.incoming.toList ++ p'.fromCh.items := by
  rw [h.handledEarly_concat, filterMap_concat, h.fromRelay]
  simp only [List.append_assoc]
  rw [← List.append_assoc x.1.incoming.toList, e.fromRelay]
  simp only [List.append_assoc]

theorem Follows.toGame_concat (h : Follows tr x.1) (e : Effect x p') :
    ((tr ++ [x]).filterMap written).map some =
      (((tr ++ [x]).filterMap handledLate).filter (frameKind · = .gameData)).map
        fun data => (firstSource (tr ++ [x])).map (·, data) := by
  rw [filterMap_concat, filterMap_concat, firstSource_concat, ← h.addr, List.filter_append,
    List.map_append, List.map_append, h.toGame, ← h.addr, e.toGame]
  cases haddr : x.1.gameAddr with
  | none =>
    have hlate : handledLate x = none := by
      rw [handledLate, haddr]
      rfl
    rw [h.unknown haddr, hlate]
    simp
  | some addr =>
    have hlate : handledLate x = handled x := by
      rw [handledLate, haddr]
      rfl
    rw [hlate]
    cases handled x with
    | none => simp
    | some data => by_cases hk : frameKind data = .gameData <;> simp [Option.filter, hk]

theorem Follows.answers_concat (h : Follows tr x.1) (e : Effect x p') :
    (tr ++ [x]).filterMap answered =
      (((tr ++ [x]).filterMap handledEarly ++ (tr ++ [x]).filterMap handledLate).filter
        (frameKind · = .ping)).map fun ping => (p'.destID, pongFrame ping) := by
  have hdest : p'.destID = x.1.destID := congrArg UInt32.ofInt e.playerID
  rw [h.handledEarly_concat, filterMap_concat, h.answers, e.answers, toList_map_filter, hdest]
  simp only [List.filter_append, List.map_append]

theorem Follows.toRelay_concat (h : Follows tr x.1) (e : Effect x p') :
    (tr ++ [x]).filterMap forwarded ++ p'.outgoing.toList.map (p'.destID, ·) =
      ((tr ++ [x]).filterMap readFromGame).map fun y => (p'.destID, y.2) := by
  have hdest : p'.destID = x.1.destID := congrArg UInt32.ofInt e.playerID
  rw [filterMap_concat, filterMap_concat, List.map_append, hdest, ← h.toRelay, List.append_assoc,
    List.append_assoc, e.toRelay]

theorem Follows.unknown_concat (h : Follows tr x.1) (e : Effect x p') (haddr : p'.gameAddr = none) :
    (tr ++ [x]).filterMap handledLate = [] := by
  have hbefore : x.1.gameAddr = none := by
    rw [e.addr] at haddr
    exact (Option.or_eq_none_iff.mp haddr).1
  rw [filterMap_concat, h.unknown hbefore, handledLate, if_pos hbefore]
  rfl

theorem Follows.step (h : Follows tr x.1) (e : Effect x p') : Follows (tr ++ [x]) p' where
  addr := by rw [e.addr, firstSource_concat, h.addr]
  known := throughout_concat.mpr ⟨h.known, h.addr⟩
  fromRelay := h.fromRelay_concat e
  toGame := h.toGame_concat e
  answers := h.answers_concat e
  toRelay := h.toRelay_concat e
  unknown := h.unknown_concat e

theorem follows_start (playerID : ℤ) : Follows [] { playerID := playerID } :=
  ⟨⟨rfl, throughout_nil, rfl, rfl, rfl, rfl⟩, fun _ => rfl⟩

/-- A new peer forwards as `Forwards` says, whatever the order in which its goroutines and the receive
loop take their steps. -/
theorem forwards_runState (playerID : ℤ) (events : List PeerEvent) :
    Forwards (trace step { playerID := playerID } events)
      (runState step { playerID := playerID } events) :=
  (run_invariant_trace step (I := fun tr p => Follows tr p) (follows_start playerID)
    (fun _ p ev h => h.step (effect_step p ev)) events).toForwards

end RelayPeer
end Adapter
end SturmRelay
