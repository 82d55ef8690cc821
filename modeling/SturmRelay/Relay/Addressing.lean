import SturmRelay.Relay.Connections
import SturmRelay.Relay.Registration

/-! # Whom a packet is addressed to

The destination of a packet is a player ID, with one value set apart for broadcasts
(`broadcastDest`). The join handler refuses the ID 0 and no other, so a player can register under the
reserved value. Both ingress loops first compare the destination with the sender, then with
`broadcastDest`, and only then look for a player, so a packet to that player goes to everybody, and
a broadcast by that player is an echo.

`goesAsAddressed_iff` says for which accepted packets this matters; `not_ambiguous_of_noJoin` that
none is affected as long as nobody joins under the reserved ID. The other packets that miss their
addressee are those of more than 1400 bytes that should go out over TCP (see `DatagramSafety`). -/

namespace SturmRelay
set_option autoImplicit false

/-- What the path of a request asks to do to a session. -/
def Route.action : Route → Option String
  | .sessionByID path => some (splitAction path).2
  | _ => none

namespace SessionManager

/-! ## The server with its HTTP API -/

inductive APIEvent
  | request (route : Route) (method : Method) (body : Body) (now : Instant)
  | packet (pkt : Packet)
  | reap (o : ReapOrder) (clk : ReapClock)

inductive APIReply
  | response (resp : Response)
  | relay (reply : RelayReply)

def apiStep (net : Network) (s : Relay) : APIEvent → Relay × APIReply
  | .request route method body now =>
    match s.fault with
    | some f => (s, .relay (.crashed f))
    | none =>
      let served := s.sm.serveMux route method body now
      ({ s with sm := served.2 }, .response served.1)
  | .packet pkt =>
    let out := relayStep net s (.packet pkt)
    (out.1, .relay out.2)
  | .reap o clk =>
    let out := relayStep net s (.reap o clk)
    (out.1, .relay out.2)

/-- A join request for the player. -/
def APIEvent.Joins (p : PlayerID) : APIEvent → Prop
  | .request route method body _ =>
    route.action = some "join" ∧ method = .post ∧ body.join.map JoinRequest.playerID = some p
  | .packet _ => False
  | .reap _ _ => False

instance (p : PlayerID) (ev : APIEvent) : Decidable (ev.Joins p) :=
  match ev with
  | .request _ _ _ _ => inferInstanceAs (Decidable (_ ∧ _ ∧ _))
  | .packet _ => inferInstanceAs (Decidable False)
  | .reap _ _ => inferInstanceAs (Decidable False)

/-! ## Addressing -/

/-- The packet gets past the verdict, and `r` is its sender's session. -/
structure Accepted (s : Relay) (r : SessionRef) (pkt : Packet) : Prop where
  up : s.fault = none
  header : relayHeaderSize ≤ pkt.data.length
  session : s.sm.findSessionByPlayer (senderOf pkt.data) = some r
  verdict : (s.sm.updatePlayer pkt.src r (senderOf pkt.data) pkt.now).1.accepted = true

/-- What the destination of a packet promises its sender: a packet to another player goes to that
player and to nobody else, a packet to `broadcastDest` goes to every other player. -/
structure GoesAsAddressed (s : Relay) (r : SessionRef) (pkt : Packet) : Prop where
  named : ∀ p e, p ≠ senderOf pkt.data → KnownEndpoint s.sm r p e → destOf pkt.data = p →
    (relayStep .reliable s (.packet pkt)).2.sent = [⟨p, e, e.wire pkt.data⟩]
  everybody : ∀ p e, p ≠ senderOf pkt.data → KnownEndpoint s.sm r p e →
    destOf pkt.data = broadcastDest →
    ⟨p, e, e.wire pkt.data⟩ ∈ (relayStep .reliable s (.packet pkt)).2.sent

/-- The destination is reserved and at the same time the ID of a player, the sender or one with a
known endpoint, and there is a third player. -/
def Ambiguous (sm : SessionManager) (r : SessionRef) (data : Bytes) : Prop :=
  destOf data = broadcastDest ∧
    (senderOf data = broadcastDest ∨ ∃ e, KnownEndpoint sm r broadcastDest e) ∧
    ∃ p e, p ≠ senderOf data ∧ p ≠ broadcastDest ∧ KnownEndpoint sm r p e

/-- The packet is longer than a frame may be, and a player it goes to is connected over TCP. -/
def TooLong (sm : SessionManager) (r : SessionRef) (data : Bytes) : Prop :=
  maxTCPFramePayload < data.length ∧ destOf data ≠ senderOf data ∧
    ∃ p conn, p ≠ senderOf data ∧ (destOf data = broadcastDest ∨ destOf data = p) ∧
      KnownEndpoint sm r p (.tcp conn)

/-! ## The copies of an accepted packet -/

section Copies
variable {s : Relay} {r : SessionRef} {pkt : Packet}

/-- The recipients are those in the session after the sender's update, which leaves the other
players alone. -/
theorem Accepted.answer (h : Accepted s r pkt) (hc : Consistent s.sm) : ∃ v info',
    v.accepted = true ∧
    AnswerOf .reliable pkt.order pkt.data r v
      (s.sm.modifySession r fun s => { s with players := s.players.insert (senderOf pkt.data) info' })
      pkt.src (s.sm.handlePacket .reliable pkt.order pkt.src pkt.data pkt.now) := by
  obtain ⟨-, -, -, hmem⟩ := hc.of_findSessionByPlayer h.session
  obtain ⟨info, hinfo⟩ := Table.lookup_of_mem hmem
  obtain ⟨v, info', hu, -⟩ := updatePlayer_of_lookup pkt.src hinfo pkt.now
  have hv := h.verdict
  rw [hu] at hv
  exact ⟨v, info', hv, handlePacket_answer .reliable pkt.order h.header h.session hu⟩

theorem relayStep_sent_ok (hup : s.fault = none) {hd : Handled}
    (hok : s.sm.handlePacket .reliable pkt.order pkt.src pkt.data pkt.now = .ok hd) :
    (relayStep .reliable s (.packet pkt)).2.sent = hd.sent := by
  simp only [relayStep, hup, hok]
  rfl

theorem relayStep_sent_error (hup : s.fault = none) {f : Fault}
    (herr : s.sm.handlePacket .reliable pkt.order pkt.src pkt.data pkt.now = .error f) :
    (relayStep .reliable s (.packet pkt)).2.sent = [] := by
  simp only [relayStep, hup, herr]
  rfl

/-- A frame that was read is not too long to be written, so an echo always fits. -/
theorem fitsFrame_echo (pkt : Packet) (p : PlayerID) : FitsFrame pkt.data (echoTarget pkt.src p) := by
  have hread := pkt.readable
  cases hsrc : pkt.src with
  | udp addr => exact fun htcp => absurd htcp Bool.false_ne_true
  | tcp conn =>
    rw [hsrc] at hread
    exact fun _ => hread.2

theorem sent_echo (h : Accepted s r pkt) (hc : Consistent s.sm)
    (hecho : destOf pkt.data = senderOf pkt.data) :
    ∀ copy ∈ (relayStep .reliable s (.packet pkt)).2.sent, copy.playerID = senderOf pkt.data := by
  obtain ⟨v, info', hv, ha⟩ := h.answer hc
  have hrec : ∀ s', recipients pkt.order pkt.src pkt.data s' =
      [echoTarget pkt.src (senderOf pkt.data)] := fun _ => if_pos hecho
  obtain ⟨hd, hok, hh⟩ := ha.accepted hv (by
    rw [hrec, List.forall_mem_singleton]
    exact fitsFrame_echo pkt _)
  rw [relayStep_sent_ok h.up hok, hh.sent, hrec]
  intro copy hcopy
  obtain ⟨⟨t, ht, hid, -⟩, -⟩ := mem_copies_reliable.mp hcopy
  rw [← hid, List.mem_singleton.mp ht, echoTarget_playerID]

/-- One copy for each player the packet goes to. -/
theorem sent_routed (h : Accepted s r pkt) (hc : Consistent s.sm)
    (hecho : destOf pkt.data ≠ senderOf pkt.data) (hfits : ¬ TooLong s.sm r pkt.data) :
    ((relayStep .reliable s (.packet pkt)).2.sent.map Sent.playerID).Nodup ∧
    ∀ copy, copy ∈ (relayStep .reliable s (.packet pkt)).2.sent ↔
      (copy.playerID ≠ senderOf pkt.data ∧
        (destOf pkt.data = broadcastDest ∨ destOf pkt.data = copy.playerID) ∧
        KnownEndpoint s.sm r copy.playerID copy.endpoint) ∧
      copy.bytes = copy.endpoint.wire pkt.data := by
  obtain ⟨v, info', hv, ha⟩ := h.answer hc
  have hiff := recipient_iff s.sm r pkt.order pkt.src info' hecho
  obtain ⟨hd, hok, hh⟩ := ha.accepted hv (by
    intro t ht htcp
    by_contra hlong
    obtain ⟨conn, he⟩ := (isSome_tcpConn_target t).mp htcp
    exact hfits ⟨Nat.lt_of_not_le hlong, hecho, t.playerID, conn, (hiff _ _).mp ⟨t, ht, rfl, he⟩⟩)
  rw [relayStep_sent_ok h.up hok, hh.sent]
  refine ⟨(nodup_recipients pkt.src).sublist (sublist_copies _ _), fun copy => ?_⟩
  rw [mem_copies_reliable, hiff]

theorem sent_tooLong (h : Accepted s r pkt) (hc : Consistent s.sm) (hlong : TooLong s.sm r pkt.data) :
    (relayStep .reliable s (.packet pkt)).2.sent = [] := by
  obtain ⟨v, info', hv, ha⟩ := h.answer hc
  obtain ⟨hlen, hecho, p, conn, hpicked⟩ := hlong
  obtain ⟨t, ht, -, he⟩ := (recipient_iff s.sm r pkt.order pkt.src info' hecho p _).mpr hpicked
  obtain ⟨f, herr⟩ := ha.panics hv fun hall =>
    Nat.not_le.mpr hlen (hall t ht ((isSome_tcpConn_target t).mpr ⟨conn, he⟩))
  exact relayStep_sent_error h.up herr

end Copies

/-! ## Who reaches whom -/

section Addressing
variable {s : Relay} {r : SessionRef} {pkt : Packet}

/-- The two promises contradict each other: a copy for one player only, and a copy for each. -/
theorem GoesAsAddressed.not_ambiguous (hg : GoesAsAddressed s r pkt) (h : Accepted s r pkt)
    (hc : Consistent s.sm) : ¬ Ambiguous s.sm r pkt.data := by
  rintro ⟨hdest, hreserved, p, e, hne, hp, hknown⟩
  have hcopy := hg.everybody p e hne hknown hdest
  by_cases hsender : senderOf pkt.data = broadcastDest
  · exact hne (sent_echo h hc (hdest.trans hsender.symm) _ hcopy)
  · obtain ⟨e', hknown'⟩ := hreserved.resolve_left hsender
    rw [hg.named broadcastDest e' (Ne.symm hsender) hknown' hdest, List.mem_singleton] at hcopy
    exact hp (congrArg Sent.playerID hcopy)

theorem GoesAsAddressed.not_tooLong (hg : GoesAsAddressed s r pkt) (h : Accepted s r pkt)
    (hc : Consistent s.sm) : ¬ TooLong s.sm r pkt.data := by
  intro hlong
  have hnil := sent_tooLong h hc hlong
  obtain ⟨-, -, p, conn, hne, hdest | hdest, hknown⟩ := hlong
  · have hcopy := hg.everybody p _ hne hknown hdest
    rw [hnil] at hcopy
    exact absurd hcopy List.not_mem_nil
  · have hcopy := hg.named p _ hne hknown hdest
    rw [hnil] at hcopy
    exact absurd hcopy (List.cons_ne_nil _ _).symm

/-- Distinct copies that are all the same are one copy. -/
theorem eq_singleton_of_nodup {sent : List Sent} {copy : Sent} (hnodup : (sent.map Sent.playerID).Nodup)
    (hall : ∀ c, c ∈ sent ↔ c = copy) : sent = [copy] := by
  refine List.perm_singleton.mp ((List.perm_ext_iff_of_nodup (.of_map _ hnodup)
    (List.nodup_singleton _)).mpr fun c => ?_)
  rw [hall, List.mem_singleton]

/-- Somebody else gets a copy of a packet to `p` only if the destination is the reserved one. -/
theorem addressee_unique {sm : SessionManager} {data : Bytes} (hclear : ¬ Ambiguous sm r data)
    {p q : PlayerID} {e e' : Endpoint} (hdest : destOf data = p) (hp : KnownEndpoint sm r p e)
    (hne : q ≠ senderOf data) (hor : destOf data = broadcastDest ∨ destOf data = q)
    (hq : KnownEndpoint sm r q e') : q = p := by
  by_contra hother
  have hreserved : destOf data = broadcastDest :=
    hor.resolve_right fun he => hother (he.symm.trans hdest)
  obtain rfl : p = broadcastDest := hdest.symm.trans hreserved
  exact hclear ⟨hreserved, Or.inr ⟨e, hp⟩, q, e', hne, hother, hq⟩

theorem goesAsAddressed_of_clear (h : Accepted s r pkt) (hc : Consistent s.sm)
    (hclear : ¬ Ambiguous s.sm r pkt.data) (hfits : ¬ TooLong s.sm r pkt.data) :
    GoesAsAddressed s r pkt := by
  constructor
  · intro p e hne hknown hdest
    obtain ⟨hnodup, hsent⟩ := sent_routed h hc (fun hecho => hne (hdest.symm.trans hecho)) hfits
    refine eq_singleton_of_nodup hnodup fun copy => ?_
    rw [hsent]
    constructor
    · rintro ⟨⟨hne', hor, hknown'⟩, hb⟩
      have hid := addressee_unique hclear hdest hknown hne' hor hknown'
      have hend : copy.endpoint = e := by
        rw [hid] at hknown'
        exact hknown'.unique hknown
      rw [← hid, ← hend, ← hb]
    · rintro rfl
      exact ⟨⟨hne, Or.inr hdest, hknown⟩, rfl⟩
  · intro p e hne hknown hdest
    by_cases hsender : senderOf pkt.data = broadcastDest
    · have hp : p ≠ broadcastDest := fun hp => hne (hp.trans hsender.symm)
      exact absurd ⟨hdest, Or.inl hsender, p, e, hne, hp, hknown⟩ hclear
    · have hecho : destOf pkt.data ≠ senderOf pkt.data := fun he => hsender (he.symm.trans hdest)
      exact ((sent_routed h hc hecho hfits).2 _).mpr ⟨⟨hne, Or.inl hdest, hknown⟩, rfl⟩

end Addressing

/-! ## Every run -/

section Runs
variable {net : Network} {s : Relay}

theorem consistent_apiStep (hc : Consistent s.sm) (ev : APIEvent) :
    Consistent (apiStep net s ev).1.sm := by
  cases ev with
  | request route method body now =>
    simp only [apiStep]
    split
    · exact hc
    · exact consistent_serveMux hc route method body now
  | packet pkt => exact consistent_relayStep hc (.packet pkt)
  | reap o clk => exact consistent_relayStep hc (.reap o clk)

/-- An entry of the index was there before, or the request was to join it. -/
theorem lookup_of_serveMux {sm : SessionManager} (hc : Consistent sm) {route : Route} {method : Method}
    {body : Body} {now : Instant} {p : PlayerID} {sid : SessionID}
    (hi : (sm.serveMux route method body now).2.playerIndex.lookup p = some sid) :
    sm.playerIndex.lookup p = some sid ∨ (APIEvent.request route method body now).Joins p := by
  cases route with
  | health => exact Or.inl hi
  | unhandled => exact Or.inl hi
  | sessions =>
    simp only [serveMux, index_handleSessions] at hi
    exact Or.inl hi
  | sessionByID path =>
    simp only [serveMux, handleSessionByID] at hi
    split at hi
    · exact Or.inl hi
    · split at hi
      · exact Or.inl hi
      · split at hi
        · exact Or.inl (lookup_of_handleSessionRoot hc hi)
        · split at hi
          · next haction =>
            exact (lookup_of_handleSessionJoin hc hi).imp_right fun hjoin =>
              ⟨congrArg some haction, hjoin⟩
          · split at hi
            · exact Or.inl (lookup_of_handleSessionLeave hc hi)
            · exact Or.inl hi

theorem lookup_of_apiStep (hc : Consistent s.sm) {ev : APIEvent} {p : PlayerID} {sid : SessionID}
    (hi : (apiStep net s ev).1.sm.playerIndex.lookup p = some sid) :
    s.sm.playerIndex.lookup p = some sid ∨ ev.Joins p := by
  cases ev with
  | request route method body now =>
    simp only [apiStep] at hi
    split at hi
    · exact Or.inl hi
    · exact lookup_of_serveMux hc hi
  | packet pkt =>
    have hnew : ¬ (RelayEvent.packet pkt).Registers p.toNat sid := id
    exact Or.inl (registered_toNat.mp (registered_of_relayStep hc hnew (registered_toNat.mpr hi)))
  | reap o clk =>
    have hnew : ¬ (RelayEvent.reap o clk).Registers p.toNat sid := id
    exact Or.inl (registered_toNat.mp (registered_of_relayStep hc hnew (registered_toNat.mpr hi)))

theorem consistent_apiRun (net : Network) (events : List APIEvent) :
    Consistent (runState (apiStep net) .start events).sm :=
  run_invariant (I := fun s : Relay => Consistent s.sm) (fun _ ev hc => consistent_apiStep hc ev)
    consistent_new events

/-- Whom nobody joins is nowhere. -/
theorem index_of_noJoin (net : Network) {events : List APIEvent} {p : PlayerID}
    (hjoin : ∀ ev ∈ events, ¬ ev.Joins p) (sid : SessionID) :
    (runState (apiStep net) .start events).sm.playerIndex.lookup p ≠ some sid := by
  have hsteps : AllSteps (apiStep net) (fun _ ev _ => ¬ ev.Joins p) .start events :=
    fun x hx => hjoin x.2.1 (mem_of_mem_trace _ hx)
  refine (allSteps_invariant_trace
    (I := fun _ (s : Relay) => Consistent s.sm ∧ s.sm.playerIndex.lookup p ≠ some sid) ?_ ?_ hsteps).2
  · refine ⟨consistent_new, fun hi => ?_⟩
    cases hi
  · rintro tr s ev ⟨hc, hnone⟩ hev
    refine ⟨consistent_apiStep hc ev, fun hi => ?_⟩
    rcases lookup_of_apiStep hc hi with hold | hj
    · exact hnone hold
    · exact hev hj

theorem not_ambiguous_of_noJoin {events : List APIEvent}
    (hjoin : ∀ ev ∈ events, ¬ ev.Joins broadcastDest) {r : SessionRef} {pkt : Packet}
    (h : Accepted (runState (apiStep net) .start events) r pkt) :
    ¬ Ambiguous (runState (apiStep net) .start events).sm r pkt.data := by
  have hc := consistent_apiRun net events
  have hnowhere := index_of_noJoin net hjoin
  obtain ⟨sid, hi, hr, -⟩ := hc.of_findSessionByPlayer h.session
  rintro ⟨-, hsender | ⟨e, info, hp, -⟩, -⟩
  · exact hnowhere sid (hsender ▸ hi)
  · exact hnowhere sid ((hc.mem_iff hr _).mp (Table.mem_of_lookup hp))

end Runs

/-- In every state the server can reach, an accepted packet goes as addressed exactly when its
destination is not ambiguous and it is not too long for a TCP connection it should go out over. No
destination is ambiguous unless somebody has joined under the reserved ID. -/
theorem goesAsAddressed_iff (net : Network) (events : List APIEvent) (s : Relay)
    (hs : s = runState (apiStep net) .start events) (r : SessionRef) (pkt : Packet)
    (h : Accepted s r pkt) :
    (GoesAsAddressed s r pkt ↔ ¬ Ambiguous s.sm r pkt.data ∧ ¬ TooLong s.sm r pkt.data) ∧
    ((∀ ev ∈ events, ¬ ev.Joins broadcastDest) → ¬ Ambiguous s.sm r pkt.data) := by
  subst hs
  have hc := consistent_apiRun net events
  refine ⟨⟨?_, ?_⟩, fun hjoin => not_ambiguous_of_noJoin hjoin h⟩
  · exact fun hg => ⟨hg.not_ambiguous h hc, hg.not_tooLong h hc⟩
  · exact fun hclear => goesAsAddressed_of_clear h hc hclear.1 hclear.2

/-! ### A player under the reserved ID -/

def createRequest : APIEvent := .request .sessions .post { create := some ⟨"game", 12⟩ } 0

def joinRequest (p : PlayerID) (login : String) : APIEvent :=
  .request (.sessionByID "game/join") .post { join := some ⟨p, login⟩ } 0

/-- A datagram with one byte of payload. -/
def datagram (sender dest : PlayerID) (addr : AddrPort) : Packet where
  src := .udp addr
  data := putUint32BE sender ++ putUint32BE dest ++ [42]
  readable := by simp [Endpoint.Delivers, putUint32BE, length_beEncode, readBufferSize]
  now := second
  order := .listed

def guestAddr : AddrPort := ⟨.v4 0x0A000002#32, 6112⟩

def reservedAddr : AddrPort := ⟨.v4 0x0A000003#32, 6112⟩

/-- A game of players 1 and 2, both of which have been heard of. -/
def game : List APIEvent :=
  [createRequest, joinRequest 1 "host", joinRequest 2 "guest", .packet (datagram 1 1 hostAddr),
    .packet (datagram 2 2 guestAddr)]

/-- The same with a third player under the reserved ID. -/
def reservedGame : List APIEvent :=
  game ++ [joinRequest broadcastDest "third", .packet (datagram broadcastDest broadcastDest reservedAddr)]

def afterReserved : Relay := runState (apiStep .reliable) .start reservedGame

theorem game_goesAsAddressed : GoesAsAddressed (runState (apiStep .reliable) .start game) 0
    (datagram 1 2 hostAddr) := by
  have h : Accepted (runState (apiStep .reliable) .start game) 0 (datagram 1 2 hostAddr) :=
    ⟨by decide +kernel, by decide, by decide +kernel, by decide +kernel⟩
  obtain ⟨hiff, hjoin⟩ := goesAsAddressed_iff .reliable game _ rfl 0 _ h
  exact hiff.mpr ⟨hjoin (by decide +kernel), fun hlong => absurd hlong.1 (by decide)⟩

/-- The third player joins under the reserved ID. A packet of player 1 to it goes to player 2 as well,
and its own broadcast comes back to it and reaches nobody else. All three have known endpoints. -/
theorem reservedGame_misaddressed :
    (apiStep .reliable (runState (apiStep .reliable) .start game)
      (joinRequest broadcastDest "third")).2 = .response ⟨200, .joined "game" broadcastDest⟩ ∧
    (KnownEndpoint afterReserved.sm 0 1 (.udp hostAddr) ∧
      KnownEndpoint afterReserved.sm 0 2 (.udp guestAddr) ∧
      KnownEndpoint afterReserved.sm 0 broadcastDest (.udp reservedAddr)) ∧
    (Accepted afterReserved 0 (datagram 1 broadcastDest hostAddr) ∧
      (relayStep .reliable afterReserved (.packet (datagram 1 broadcastDest hostAddr))).2.sent.map
        Sent.playerID = [broadcastDest, 2] ∧
      ¬ GoesAsAddressed afterReserved 0 (datagram 1 broadcastDest hostAddr)) ∧
    (Accepted afterReserved 0 (datagram broadcastDest broadcastDest reservedAddr) ∧
      (relayStep .reliable afterReserved
        (.packet (datagram broadcastDest broadcastDest reservedAddr))).2.sent.map Sent.playerID =
          [broadcastDest] ∧
      ¬ GoesAsAddressed afterReserved 0 (datagram broadcastDest broadcastDest reservedAddr)) := by
  have hguest : KnownEndpoint afterReserved.sm 0 2 (.udp guestAddr) := by decide +kernel
  have hthird : KnownEndpoint afterReserved.sm 0 broadcastDest (.udp reservedAddr) := by decide +kernel
  refine ⟨rfl, ⟨by decide +kernel, hguest, hthird⟩, ?_, ?_⟩
  · have hsent : (relayStep .reliable afterReserved
        (.packet (datagram 1 broadcastDest hostAddr))).2.sent.map Sent.playerID =
          [broadcastDest, 2] := by decide +kernel
    refine ⟨⟨by decide +kernel, by decide, by decide +kernel, by decide +kernel⟩, hsent, fun hg => ?_⟩
    rw [hg.named broadcastDest _ (by decide) hthird (by decide)] at hsent
    exact absurd hsent (by decide)
  · have hsent : (relayStep .reliable afterReserved
        (.packet (datagram broadcastDest broadcastDest reservedAddr))).2.sent.map Sent.playerID =
          [broadcastDest] := by decide +kernel
    refine ⟨⟨by decide +kernel, by decide, by decide +kernel, by decide +kernel⟩, hsent, fun hg => ?_⟩
    have hid := List.mem_map_of_mem (f := Sent.playerID)
      (hg.everybody 2 _ (by decide) hguest (by decide))
    rw [hsent] at hid
    exact absurd hid (by decide)

end SessionManager
end SturmRelay
