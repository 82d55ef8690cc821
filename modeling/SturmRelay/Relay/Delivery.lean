import SturmRelay.Relay.Server

/-! # Delivery against the history

Who gets a copy of an accepted packet, and where it is sent, in terms of the history alone
(`Addressed`): an echo goes back to where the packet came from, a broadcast to every other member
of the sender's session that has been heard of since its latest join, anything else to the one
member it names. `relayStep_delivers` says that the running server does exactly this, for packets
of either transport. -/

namespace SturmRelay
namespace SessionManager
set_option autoImplicit false

def InSession (sm : SessionManager) (sid : SessionID) (p : PlayerID) : Prop :=
  ∃ r, sm.sessions.lookup sid = some r ∧ p ∈ (sm.session r).players

/-- Where the player's last accepted packet since its latest join of the session came from. -/
def lastEndpoint (facts : List Fact) (sid : SessionID) (p : PlayerID) : Option Endpoint :=
  (lastPacket facts sid p).map Prod.fst

/-- A packet from a member of session `sid` is meant for player `p` and must go to `e`. -/
inductive Addressed (facts : List Fact) (sm : SessionManager) (sid : SessionID) (pkt : Packet) :
    PlayerID → Endpoint → Prop
  | echo (hdest : destOf pkt.data = senderOf pkt.data) :
      Addressed facts sm sid pkt (senderOf pkt.data) pkt.src
  | broadcast {p : PlayerID} {e : Endpoint} (hecho : destOf pkt.data ≠ senderOf pkt.data)
      (hdest : destOf pkt.data = broadcastDest) (hp : p ≠ senderOf pkt.data)
      (hmem : InSession sm sid p) (he : lastEndpoint facts sid p = some e) :
      Addressed facts sm sid pkt p e
  | unicast {e : Endpoint} (hecho : destOf pkt.data ≠ senderOf pkt.data)
      (hdest : destOf pkt.data ≠ broadcastDest) (hmem : InSession sm sid (destOf pkt.data))
      (he : lastEndpoint facts sid (destOf pkt.data) = some e) :
      Addressed facts sm sid pkt (destOf pkt.data) e

theorem Addressed.inSession {facts : List Fact} {sm : SessionManager} {sid : SessionID} {pkt : Packet}
    {p : PlayerID} {e : Endpoint} (h : Addressed facts sm sid pkt p e)
    (hsender : InSession sm sid (senderOf pkt.data)) : InSession sm sid p := by
  cases h with
  | echo _ => exact hsender
  | broadcast _ _ _ hmem _ => exact hmem
  | unicast _ _ hmem _ => exact hmem

/-- The copies of a packet are the right ones: one for each player addressed, at its endpoint,
holding the packet as it is, and none outside the session. A frame carries the packet to whoever
reads it. -/
structure Delivered (facts : List Fact) (sm : SessionManager) (sid : SessionID) (pkt : Packet)
    (sent : List Sent) : Prop where
  one_each : (sent.map Sent.playerID).Nodup
  copies : ∀ copy, copy ∈ sent ↔
    Addressed facts sm sid pkt copy.playerID copy.endpoint ∧ copy.bytes = copy.endpoint.wire pkt.data
  same_session : ∀ copy ∈ sent, InSession sm sid copy.playerID
  frames : ∀ copy ∈ sent, ∀ conn, copy.endpoint = .tcp conn →
    readTCPFrame readBufferSize copy.bytes = .ok pkt.data []

/-! ## Targets -/

section Targets
variable {o : RangeOrder PlayerID} {s : Session} {data : Bytes}

/-- The target `ForEachOtherPlayerTarget` makes of an entry. -/
def targetOf (p : PlayerID) (info : PlayerInfo) : PlayerSendTarget :=
  { playerID := p, udpAddr := info.addr, tcpConn := info.tcpConn }

theorem endpoint_targetOf (p : PlayerID) (info : PlayerInfo) :
    (targetOf p info).endpoint = info.endpoint := rfl

theorem echoTarget_playerID (src : Endpoint) (p : PlayerID) : (echoTarget src p).playerID = p := by
  cases src <;> rfl

theorem echoTarget_endpoint (src : Endpoint) (p : PlayerID) : (echoTarget src p).endpoint = some src := by
  cases src <;> rfl

theorem isSome_tcpConn_target (t : PlayerSendTarget) :
    t.tcpConn.isSome ↔ ∃ conn, t.endpoint = some (.tcp conn) := by
  unfold PlayerSendTarget.endpoint
  cases t.tcpConn <;> simp

theorem isSome_endpoint (info : PlayerInfo) :
    info.endpoint.isSome ↔ info.tcpConn.isSome ∨ info.addr.isSome := by
  unfold PlayerInfo.endpoint
  cases info.tcpConn with
  | some conn => simp
  | none => simp

theorem mem_forEachOtherPlayerTarget {ex : PlayerID} {t : PlayerSendTarget} :
    t ∈ s.forEachOtherPlayerTarget o ex ↔ ∃ p info, s.players.lookup p = some info ∧ p ≠ ex ∧
      info.endpoint.isSome ∧ t = targetOf p info := by
  unfold Session.forEachOtherPlayerTarget
  rw [List.mem_filterMap]
  constructor
  · rintro ⟨p, -, h⟩
    cases hp : s.players.lookup p with
    | none => simp [hp] at h
    | some info =>
      simp only [hp] at h
      split at h
      · next hcond =>
        cases h
        exact ⟨p, info, hp, hcond.1, (isSome_endpoint info).mpr hcond.2, rfl⟩
      · cases h
  · rintro ⟨p, info, hp, hne, hsome, rfl⟩
    refine ⟨p, (o.mem_visit).mpr (AList.mem_keys.mp (Table.mem_of_lookup hp)), ?_⟩
    simp only [hp]
    exact if_pos ⟨hne, (isSome_endpoint info).mp hsome⟩

theorem sublist_map_filterMap {α β γ : Type} {f : α → Option β} {g : β → γ} {h : α → γ}
    (hf : ∀ a b, f a = some b → g b = h a) (l : List α) :
    ((l.filterMap f).map g).Sublist (l.map h) := by
  induction l with
  | nil => exact .refl _
  | cons a l ih =>
    cases ha : f a with
    | none =>
      rw [List.filterMap_cons_none ha, List.map_cons]
      exact ih.cons _
    | some b =>
      rw [List.filterMap_cons_some ha, List.map_cons, List.map_cons, hf a b ha]
      exact ih.cons_cons _

theorem nodup_forEachOtherPlayerTarget (ex : PlayerID) :
    ((s.forEachOtherPlayerTarget o ex).map PlayerSendTarget.playerID).Nodup := by
  have hvisit := o.nodup_visit s.players.keys_nodup
  rw [← List.map_id (o.visit s.players.keys)] at hvisit
  refine hvisit.sublist (sublist_map_filterMap (fun p t ht => ?_) _)
  cases hp : s.players.lookup p with
  | none => simp [hp] at ht
  | some info =>
    simp only [hp] at ht
    split at ht
    · cases ht
      rfl
    · cases ht

theorem nodup_recipients (src : Endpoint) :
    ((recipients o src data s).map PlayerSendTarget.playerID).Nodup := by
  unfold recipients targets
  split
  · exact List.nodup_singleton _
  · split
    · exact nodup_forEachOtherPlayerTarget _
    · cases s.getPlayerTarget (destOf data) with
      | none => exact List.nodup_nil
      | some t => exact List.nodup_singleton _

theorem sublist_copies (net : Network) (ts : List PlayerSendTarget) :
    ((ts.filterMap (copyFor net data)).map Sent.playerID).Sublist
      (ts.map PlayerSendTarget.playerID) := by
  refine sublist_map_filterMap (fun t copy hcopy => ?_) ts
  obtain ⟨e, -, he⟩ := Option.bind_eq_some_iff.mp hcopy
  split at he
  · cases he
    rfl
  · cases he

theorem copyFor_reliable {t : PlayerSendTarget} {copy : Sent} :
    copyFor .reliable data t = some copy ↔ t.playerID = copy.playerID ∧
      t.endpoint = some copy.endpoint ∧ copy.bytes = copy.endpoint.wire data := by
  obtain ⟨p, e, bytes⟩ := copy
  unfold copyFor
  cases t.endpoint with
  | none => simp
  | some e' =>
    simp only [Option.bind_some, Network.reliable, if_true, Option.some.injEq, Sent.mk.injEq]
    constructor
    · rintro ⟨rfl, rfl, rfl⟩
      exact ⟨rfl, rfl, rfl⟩
    · rintro ⟨rfl, rfl, rfl⟩
      exact ⟨rfl, rfl, rfl⟩

theorem mem_copies_reliable {ts : List PlayerSendTarget} {copy : Sent} :
    copy ∈ ts.filterMap (copyFor .reliable data) ↔
      (∃ t ∈ ts, t.playerID = copy.playerID ∧ t.endpoint = some copy.endpoint) ∧
        copy.bytes = copy.endpoint.wire data := by
  rw [List.mem_filterMap]
  simp only [copyFor_reliable]
  constructor
  · rintro ⟨t, ht, hid, he, hb⟩
    exact ⟨⟨t, ht, hid, he⟩, hb⟩
  · rintro ⟨⟨t, ht, hid, he⟩, hb⟩
    exact ⟨t, ht, hid, he, hb⟩

end Targets

/-! ## The server delivers -/

section Deliver
variable {facts : List Fact} {sm sm' : SessionManager} {sid : SessionID} {r : SessionRef} {pkt : Packet}
  {info' : PlayerInfo}

/-- An entry of another player in the session after the sender's update is its entry before. -/
theorem lookup_after_update {p q : PlayerID} (hne : q ≠ p) :
    ((sm.modifySession r fun s => { s with players := s.players.insert p info' }).session r).players.lookup q =
      (sm.session r).players.lookup q := by
  rw [modifySession_session_self]
  exact AList.lookup_insert_ne hne

theorem inSession_iff (hr : sm.sessions.lookup sid = some r) (p : PlayerID) :
    InSession sm sid p ↔ ∃ info, (sm.session r).players.lookup p = some info := by
  unfold InSession
  rw [hr]
  constructor
  · rintro ⟨r', he, hp⟩
    cases he
    exact Table.lookup_of_mem hp
  · rintro ⟨info, hp⟩
    exact ⟨r, rfl, Table.mem_of_lookup hp⟩

theorem echo_addressed (hecho : destOf pkt.data = senderOf pkt.data) (p : PlayerID) (e : Endpoint) :
    (∃ t ∈ [echoTarget pkt.src (senderOf pkt.data)], t.playerID = p ∧ t.endpoint = some e) ↔
      Addressed facts sm sid pkt p e := by
  constructor
  · rintro ⟨t, htm, rfl, he⟩
    rw [List.mem_singleton] at htm
    subst htm
    rw [echoTarget_endpoint] at he
    cases he
    rw [echoTarget_playerID]
    exact .echo hecho
  · intro ha
    cases ha with
    | echo _ => exact ⟨_, List.mem_singleton.mpr rfl, echoTarget_playerID _ _, echoTarget_endpoint _ _⟩
    | broadcast h _ _ _ _ => exact absurd hecho h
    | unicast h _ _ _ => exact absurd hecho h

/-- The endpoint the server has for a player of the session behind `r`. -/
def KnownEndpoint (sm : SessionManager) (r : SessionRef) (p : PlayerID) (e : Endpoint) : Prop :=
  ∃ info, (sm.session r).players.lookup p = some info ∧ info.endpoint = some e

instance (sm : SessionManager) (r : SessionRef) (p : PlayerID) (e : Endpoint) :
    Decidable (KnownEndpoint sm r p e) :=
  decidable_of_iff (((sm.session r).players.lookup p).bind PlayerInfo.endpoint = some e)
    Option.bind_eq_some_iff

theorem KnownEndpoint.unique {p : PlayerID} {e e' : Endpoint} (h : KnownEndpoint sm r p e)
    (h' : KnownEndpoint sm r p e') : e = e' := by
  obtain ⟨info, hp, he⟩ := h
  obtain ⟨info', hp', he'⟩ := h'
  cases hp.symm.trans hp'
  exact Option.some.inj (he.symm.trans he')

/-- Whom a packet that is no echo is written to: the other players of the session if it is a
broadcast, else the one that has the destination for its ID. -/
theorem recipient_iff {data : Bytes} (sm : SessionManager) (r : SessionRef) (o : RangeOrder PlayerID)
    (src : Endpoint) (info' : PlayerInfo) (hecho : destOf data ≠ senderOf data) (p : PlayerID) (e : Endpoint) :
    (∃ t ∈ recipients o src data ((sm.modifySession r fun s =>
        { s with players := s.players.insert (senderOf data) info' }).session r),
        t.playerID = p ∧ t.endpoint = some e) ↔
      p ≠ senderOf data ∧ (destOf data = broadcastDest ∨ destOf data = p) ∧
        KnownEndpoint sm r p e := by
  unfold recipients targets
  rw [if_neg hecho]
  by_cases hdest : destOf data = broadcastDest
  · rw [if_pos hdest]
    simp only [mem_forEachOtherPlayerTarget]
    constructor
    · rintro ⟨t, ⟨q, info, hq, hne, -, rfl⟩, rfl, he⟩
      rw [lookup_after_update hne] at hq
      exact ⟨hne, Or.inl hdest, info, hq, he⟩
    · rintro ⟨hne, -, info, hp, he⟩
      refine ⟨targetOf p info, ⟨p, info, ?_, hne, ?_, rfl⟩, rfl, he⟩
      · rw [lookup_after_update hne, hp]
      · rw [he]
        rfl
  · rw [if_neg hdest]
    unfold Session.getPlayerTarget
    simp only [lookup_after_update hecho, Option.mem_toList, Option.map_eq_some_iff]
    constructor
    · rintro ⟨t, ⟨info, hq, rfl⟩, rfl, he⟩
      exact ⟨hecho, Or.inr rfl, info, hq, he⟩
    · rintro ⟨-, hor, info, hp, he⟩
      obtain rfl := hor.resolve_left hdest
      exact ⟨_, ⟨info, hp, rfl⟩, rfl, he⟩

/-- The players addressed by a packet that is no echo, in the same terms. -/
theorem addressed_iff (hecho : destOf pkt.data ≠ senderOf pkt.data) (p : PlayerID) (e : Endpoint) :
    Addressed facts sm sid pkt p e ↔ p ≠ senderOf pkt.data ∧
      (destOf pkt.data = broadcastDest ∨ destOf pkt.data = p) ∧
      InSession sm sid p ∧ lastEndpoint facts sid p = some e := by
  constructor
  · intro ha
    cases ha with
    | echo h => exact absurd h hecho
    | broadcast _ hdest hp hmem he => exact ⟨hp, Or.inl hdest, hmem, he⟩
    | unicast _ _ hmem he => exact ⟨hecho, Or.inr rfl, hmem, he⟩
  · rintro ⟨hp, hor, hmem, he⟩
    by_cases hdest : destOf pkt.data = broadcastDest
    · exact .broadcast hecho hdest hp hmem he
    · obtain rfl := hor.resolve_left hdest
      exact .unicast hecho hdest hmem he

section Recipients
variable (ht : Tracked facts sm) (hr : sm.sessions.lookup sid = some r)
include ht hr

/-- The endpoint the server has for a player is the one the history has for it. -/
theorem knownEndpoint_iff (p : PlayerID) (e : Endpoint) :
    KnownEndpoint sm r p e ↔ InSession sm sid p ∧ lastEndpoint facts sid p = some e := by
  rw [inSession_iff hr]
  constructor
  · rintro ⟨info, hp, he⟩
    exact ⟨⟨info, hp⟩, (ht.players sid r hr p info hp).endpoint.symm.trans he⟩
  · rintro ⟨⟨info, hp⟩, he⟩
    exact ⟨info, hp, (ht.players sid r hr p info hp).endpoint.trans he⟩

/-- The recipients that have an endpoint are the players addressed. -/
theorem recipients_addressed (hsm' : sm' = sm.modifySession r fun s =>
      { s with players := s.players.insert (senderOf pkt.data) info' })
    (o : RangeOrder PlayerID) (p : PlayerID) (e : Endpoint) :
    (∃ t ∈ recipients o pkt.src pkt.data (sm'.session r), t.playerID = p ∧ t.endpoint = some e) ↔
      Addressed facts sm sid pkt p e := by
  by_cases hecho : destOf pkt.data = senderOf pkt.data
  · unfold recipients
    rw [if_pos hecho]
    exact echo_addressed hecho p e
  · rw [hsm', recipient_iff sm r o pkt.src info' hecho, addressed_iff hecho, knownEndpoint_iff ht hr]

end Recipients

theorem delivered_recipients (ht : Tracked facts sm) (hr : sm.sessions.lookup sid = some r)
    (hmem : senderOf pkt.data ∈ (sm.session r).players) (hlen : relayHeaderSize ≤ pkt.data.length)
    (hmax : pkt.data.length ≤ maxTCPFramePayload)
    (hsm' : sm' = sm.modifySession r fun s =>
      { s with players := s.players.insert (senderOf pkt.data) info' })
    (o : RangeOrder PlayerID) :
    Delivered facts sm sid pkt
      ((recipients o pkt.src pkt.data (sm'.session r)).filterMap (copyFor .reliable pkt.data)) := by
  have hcopies : ∀ copy, copy ∈ (recipients o pkt.src pkt.data (sm'.session r)).filterMap
      (copyFor .reliable pkt.data) ↔ Addressed facts sm sid pkt copy.playerID copy.endpoint ∧
        copy.bytes = copy.endpoint.wire pkt.data := by
    intro copy
    rw [mem_copies_reliable, recipients_addressed ht hr hsm' o]
  refine ⟨(nodup_recipients pkt.src).sublist (sublist_copies _ _), hcopies, ?_, ?_⟩
  · exact fun copy hcm => ((hcopies copy).mp hcm).1.inSession ⟨r, hr, hmem⟩
  · intro copy hcm conn he
    have hpos : 0 < pkt.data.length := lt_of_lt_of_le (by decide) hlen
    rw [((hcopies copy).mp hcm).2, he, ← List.append_nil (Endpoint.wire _ _)]
    exact readTCPFrame_wire hpos hmax []

end Deliver

/-- Routing is correct against the history. After any run that has not crashed, the next packet of
8 to 1400 bytes whose sender is registered and whose verdict lets it through is delivered as the
history says. -/
theorem relayStep_delivers (events : List RelayEvent) (s : Relay)
    (hs : s = runState (relayStep .reliable) .start events) (hup : s.fault = none) (pkt : Packet)
    (hlen : relayHeaderSize ≤ pkt.data.length) (hmax : pkt.data.length ≤ maxRelayPacket)
    (sid : SessionID) (r : SessionRef) (hr : s.sm.sessions.lookup sid = some r)
    (hmem : senderOf pkt.data ∈ (s.sm.session r).players) (v : PacketVerdict)
    (hv : (s.sm.updatePlayer pkt.src r (senderOf pkt.data) pkt.now).1 = v) (hacc : v.accepted = true) :
    ∃ s' sent closed, relayStep .reliable s (.packet pkt) = (s', .handled (some v) sent closed) ∧
      s'.fault = none ∧ Delivered (history .reliable events) s.sm sid pkt sent := by
  have ht : Tracked (history .reliable events) s.sm := by
    rw [hs]
    exact tracked_runState .reliable events
  have hfind : s.sm.findSessionByPlayer (senderOf pkt.data) = some r := by
    simp only [findSessionByPlayer, (ht.consistent.mem_iff hr _).mp hmem, hr]
  obtain ⟨info, hinfo⟩ := Table.lookup_of_mem hmem
  obtain ⟨v', info', hu, -⟩ := updatePlayer_of_lookup pkt.src hinfo pkt.now
  have hvv : v' = v := by
    rw [← hv, hu]
  subst hvv
  have hfits : ∀ sm' : SessionManager, ∀ t ∈ recipients pkt.order pkt.src pkt.data (sm'.session r),
      FitsFrame pkt.data t := fun _ _ _ _ => hmax
  obtain ⟨h, hok, hh⟩ := (handlePacket_answer .reliable pkt.order hlen hfind hu).accepted
    hacc (hfits _)
  refine ⟨{ s with sm := h.sm }, h.sent, h.closed, ?_, hup, ?_⟩
  · unfold relayStep
    simp only [hup, hok, hh.verdict]
  · rw [hh.sent]
    exact delivered_recipients ht hr hmem hlen hmax rfl pkt.order

/-! ### A packet from a UDP player to a TCP player -/

def hostAddr : AddrPort := ⟨.v4 0x0A000001#32, 6112⟩

def guestConn : Conn := ⟨7, some ⟨.v4 0x0A000002#32, 50000⟩⟩

/-- Player 2 says hello over its connection. -/
def guestHello : Packet where
  src := .tcp guestConn
  data := putUint32BE 2 ++ putUint32BE 2
  readable := by decide
  now := second
  order := .listed

/-- Player 1 sends one byte to player 2. -/
def hostToGuest : Packet where
  src := .udp hostAddr
  data := putUint32BE 1 ++ putUint32BE 2 ++ [42]
  readable := by decide
  now := 2 * second
  order := .listed

/-- A game with both players, the second of which has been heard of. -/
def lobby : List RelayEvent :=
  [.call (.createSession "game" 12 0) 0, .call (.addPlayerToSession "game" 1 "host") 0,
    .call (.addPlayerToSession "game" 2 "guest") 0, .packet guestHello]

theorem hostToGuest_delivered : ∃ s' sent closed,
    relayStep .reliable (runState (relayStep .reliable) .start lobby) (.packet hostToGuest) =
      (s', .handled (some .firstAddr) sent closed) ∧ s'.fault = none ∧
    Delivered (history .reliable lobby) (runState (relayStep .reliable) .start lobby).sm "game"
      hostToGuest sent :=
  relayStep_delivers lobby _ rfl (by decide) hostToGuest (by decide) (by decide) "game" 0 (by decide)
    (by decide) .firstAddr (by decide) rfl

end SessionManager
end SturmRelay
