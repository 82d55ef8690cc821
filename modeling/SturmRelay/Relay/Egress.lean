import SturmRelay.Relay.Addressing
import SturmRelay.Relay.Invariant
import Mathlib.Algebra.Group.Action.Defs
import Mathlib.Algebra.Order.BigOperators.Group.List

/-! # What leaves the server

Whatever the network does with the writes, the copies the server writes for a packet are the packet
itself, each for one player: the sender, if it is an echo, or other players of the sender's session at
the endpoints the server knows for them. A session has at most 32 players, so the server answers a
packet with at most 31 copies, and a packet it does not accept with none.

`EndpointsAll` is about where the known endpoints come from: from packets of the player itself. -/

namespace SturmRelay
namespace SessionManager
set_option autoImplicit false

/-! ## The copies of a packet -/

section Copies
variable {net : Network} {o : RangeOrder PlayerID} {src : Endpoint} {data : Bytes} {now : Instant}
  {sm : SessionManager} {h : Handled}

/-- A packet that is handled without a panic is dropped at once, or it is answered according to the
verdict on its sender. -/
theorem handlePacket_cases (hok : sm.handlePacket net o src data now = .ok h) :
    (Unroutable data sm ∧ h = { sm := sm.countDropped }) ∨
    ∃ r, relayHeaderSize ≤ data.length ∧ sm.findSessionByPlayer (senderOf data) = some r ∧
      Handles (sm.updatePlayer src r (senderOf data) now).2 (sm.updatePlayer src r (senderOf data) now).1
        (if (sm.updatePlayer src r (senderOf data) now).1.accepted then
          (recipients o src data ((sm.updatePlayer src r (senderOf data) now).2.session r)).filterMap
            (copyFor net data) else []) h := by
  by_cases hun : Unroutable data sm
  · rw [handlePacket_dropped hun] at hok
    cases hok
    exact Or.inl ⟨hun, rfl⟩
  · obtain ⟨hlen, hfound⟩ := not_or.mp hun
    obtain ⟨r, hr⟩ := Option.ne_none_iff_exists'.mp hfound
    have ha : AnswerOf net o data r (sm.updatePlayer src r (senderOf data) now).1
        (sm.updatePlayer src r (senderOf data) now).2 src (.ok h) := by
      rw [← hok]
      exact handlePacket_answer net o (Nat.le_of_not_lt hlen) hr rfl
    refine Or.inr ⟨r, Nat.le_of_not_lt hlen, hr, ?_⟩
    cases hv : (sm.updatePlayer src r (senderOf data) now).1.accepted with
    | false =>
      obtain ⟨h', he, hh⟩ := ha.rejected hv
      cases he
      exact hh
    | true =>
      by_cases hfits : ∀ t ∈ recipients o src data
          ((sm.updatePlayer src r (senderOf data) now).2.session r), FitsFrame data t
      · obtain ⟨h', he, hh⟩ := ha.accepted hv hfits
        cases he
        exact hh
      · obtain ⟨f, he⟩ := ha.panics hv hfits
        cases he

theorem copyFor_some {t : PlayerSendTarget} {copy : Sent} (hcopy : copyFor net data t = some copy) :
    t.playerID = copy.playerID ∧ t.endpoint = some copy.endpoint ∧
      copy.bytes = copy.endpoint.wire data := by
  obtain ⟨e, he, hwritten⟩ := Option.bind_eq_some_iff.mp hcopy
  split at hwritten
  · cases hwritten
    exact ⟨rfl, he, rfl⟩
  · cases hwritten

/-- Whom a copy of a packet is for. -/
structure CopyOf (sm : SessionManager) (src : Endpoint) (data : Bytes) (r : SessionRef) (copy : Sent) :
    Prop where
  bytes : copy.bytes = copy.endpoint.wire data
  addressee : (destOf data = senderOf data ∧ copy.playerID = senderOf data ∧ copy.endpoint = src) ∨
    (copy.playerID ≠ senderOf data ∧ (destOf data = broadcastDest ∨ destOf data = copy.playerID) ∧
      KnownEndpoint sm r copy.playerID copy.endpoint)

theorem copyOf_sent (hc : Consistent sm) (hok : sm.handlePacket net o src data now = .ok h) {copy : Sent}
    (hcopy : copy ∈ h.sent) :
    relayHeaderSize ≤ data.length ∧ ∃ r, sm.findSessionByPlayer (senderOf data) = some r ∧
      CopyOf sm src data r copy := by
  obtain ⟨-, rfl⟩ | ⟨r, hlen, hr, hh⟩ := handlePacket_cases hok
  · exact absurd hcopy List.not_mem_nil
  · obtain ⟨-, -, -, hmem⟩ := hc.of_findSessionByPlayer hr
    obtain ⟨info, hinfo⟩ := Table.lookup_of_mem hmem
    obtain ⟨v, info', hu, -⟩ := updatePlayer_of_lookup src hinfo now
    rw [hh.sent, hu] at hcopy
    split at hcopy
    · obtain ⟨t, ht, hwritten⟩ := List.mem_filterMap.mp hcopy
      obtain ⟨hid, hend, hbytes⟩ := copyFor_some hwritten
      refine ⟨hlen, r, hr, hbytes, ?_⟩
      by_cases hecho : destOf data = senderOf data
      · rw [recipients, if_pos hecho, List.mem_singleton] at ht
        subst ht
        rw [echoTarget_playerID] at hid
        rw [echoTarget_endpoint] at hend
        exact Or.inl ⟨hecho, hid.symm, (Option.some.inj hend).symm⟩
      · exact Or.inr ((recipient_iff sm r o src info' hecho _ _).mp ⟨t, ht, hid, hend⟩)
    · exact absurd hcopy List.not_mem_nil

end Copies

/-! ## How many there are -/

section Bound
variable {net : Network} {o : RangeOrder PlayerID} {src : Endpoint} {data : Bytes} {now : Instant}
  {sm : SessionManager} {h : Handled}

/-- One copy at most for each other player of the session, or one for the sender. -/
theorem length_sent_le (hc : Consistent sm) (hok : sm.handlePacket net o src data now = .ok h) :
    h.sent = [] ∨ ∃ r, sm.findSessionByPlayer (senderOf data) = some r ∧
      h.sent.length ≤ max 1 ((sm.session r).players.len - 1) := by
  obtain ⟨-, rfl⟩ | ⟨r, hlen, hr, hh⟩ := handlePacket_cases hok
  · exact Or.inl rfl
  · refine Or.inr ⟨r, hr, ?_⟩
    have hnodup : (h.sent.map Sent.playerID).Nodup := by
      rw [hh.sent]
      split
      · exact (nodup_recipients src).sublist (sublist_copies net _)
      · exact List.nodup_nil
    obtain ⟨-, -, -, hmem⟩ := hc.of_findSessionByPlayer hr
    by_cases hecho : destOf data = senderOf data
    · have hone : h.sent.length ≤ 1 := by
        rw [hh.sent]
        split
        · rw [recipients, if_pos hecho]
          exact List.length_filterMap_le _ _
        · exact Nat.zero_le 1
      omega
    · have hsub : h.sent.map Sent.playerID ⊆ (sm.session r).players.keys.erase (senderOf data) := by
        intro p hp
        obtain ⟨copy, hcopy, rfl⟩ := List.mem_map.mp hp
        obtain ⟨-, r', hr', hto⟩ := copyOf_sent hc hok hcopy
        obtain rfl : r = r' := Option.some.inj (hr.symm.trans hr')
        rcases hto.addressee with ⟨he, -⟩ | ⟨hne, -, info, hinfo, -⟩
        · exact absurd he hecho
        · exact (List.mem_erase_of_ne hne).mpr (AList.mem_keys.mp (Table.mem_of_lookup hinfo))
      have hle := (hnodup.subperm hsub).length_le
      rw [List.length_map, List.length_erase_of_mem (AList.mem_keys.mp hmem)] at hle
      exact hle.trans (le_max_right _ _)

end Bound

/-! ## Runs through the HTTP API -/

def APIReply.sent : APIReply → List Sent
  | .response _ => []
  | .relay reply => reply.sent

def APIReply.verdict : APIReply → Option PacketVerdict
  | .response _ => none
  | .relay reply => reply.verdict

/-- A packet is answered with at most `limit` copies, none of them longer than the packet and a frame
header, and only if it is accepted. -/
structure Bounded (limit : ℕ) (pkt : Packet) (out : APIReply) : Prop where
  copies : out.sent.length ≤ limit
  bytes : (out.sent.map fun copy => copy.bytes.length).sum ≤ limit * (pkt.data.length + 2)
  accepted : out.sent ≠ [] → ∃ v, out.verdict = some v ∧ v.accepted = true

theorem length_wire_le (e : Endpoint) (data : Bytes) : (e.wire data).length ≤ data.length + 2 := by
  cases e with
  | udp addr => exact Nat.le_add_right _ _
  | tcp conn =>
    rw [Endpoint.wire, List.length_append, length_beEncode]
    omega

theorem SameTables.sound {sm sm' : SessionManager} (h : SameTables sm sm') (hs : Sound sm) : Sound sm' where
  consistent := h.consistent hs.consistent
  limits := {
    fits := h.liveAll hs.limits.fits
    sessions_le := by
      rw [h.sessions]
      exact hs.limits.sessions_le
    players_le := by
      rw [h.playerIndex]
      exact hs.limits.players_le }

theorem Sound.updatePlayer {sm : SessionManager} (hs : Sound sm) (src : Endpoint) (r : SessionRef)
    (p : PlayerID) (now : Instant) : Sound (sm.updatePlayer src r p now).2 := by
  cases src with
  | udp addr => exact hs.serverStep (.updatePlayerAddr r p addr now)
  | tcp conn => exact hs.serverStep (.updatePlayerTCP r p conn now)

theorem sound_packet (net : Network) {s : Relay} (hs : Sound s.sm) (pkt : Packet) :
    Sound (relayStep net s (.packet pkt)).1.sm := by
  unfold relayStep
  cases s.fault with
  | some f => exact hs
  | none =>
    dsimp only
    cases hres : s.sm.handlePacket net pkt.order pkt.src pkt.data pkt.now with
    | error f => exact hs
    | ok h =>
      rcases handlePacket_tables hres with ⟨hsame, -⟩ | ⟨r, -, hsame, -⟩
      · exact hsame.sound hs
      · exact hsame.sound (hs.updatePlayer pkt.src r _ pkt.now)

/-- Requests, packets and reaper passes keep the tables consistent and within their limits. -/
theorem sound_apiStep (net : Network) {s : Relay} (hs : Sound s.sm) (ev : APIEvent) :
    Sound (apiStep net s ev).1.sm := by
  cases ev with
  | request route method body now =>
    simp only [apiStep]
    split
    · exact hs
    · exact hs.serverStep (.http route method body now)
  | packet pkt => exact sound_packet net hs pkt
  | reap o clk =>
    simp only [apiStep, relayStep]
    split
    · exact hs
    · exact hs.serverStep (.reap o clk)

/-- One packet: the sender's session has at most 32 players, the sender among them. -/
theorem bounded_packet (net : Network) {s : Relay} (hs : Sound s.sm) (pkt : Packet) :
    Bounded (maxSessionPlayers - 1).toNat pkt (apiStep net s (.packet pkt)).2 := by
  simp only [apiStep]
  unfold relayStep
  cases hfault : s.fault with
  | some f => exact ⟨Nat.zero_le _, Nat.zero_le _, fun hne => absurd rfl hne⟩
  | none =>
    dsimp only
    cases hres : s.sm.handlePacket net pkt.order pkt.src pkt.data pkt.now with
    | error f => exact ⟨Nat.zero_le _, Nat.zero_le _, fun hne => absurd rfl hne⟩
    | ok h =>
      have hcopies : h.sent.length ≤ (maxSessionPlayers - 1).toNat := by
        rcases length_sent_le hs.consistent hres with hnil | ⟨r, hr, hle⟩
        · rw [hnil]
          exact Nat.zero_le _
        · obtain ⟨sid, -, hsid, -⟩ := hs.consistent.of_findSessionByPlayer hr
          obtain ⟨-, hmax, hlen⟩ := hs.limits.fits sid r hsid
          have h32 : maxSessionPlayers = 32 := rfl
          omega
      refine ⟨hcopies, ?_, ?_⟩
      · have hsum := List.sum_le_card_nsmul (h.sent.map fun copy => copy.bytes.length)
          (pkt.data.length + 2) (by
            intro n hn
            obtain ⟨copy, hcopy, rfl⟩ := List.mem_map.mp hn
            obtain ⟨-, r, -, hto⟩ := copyOf_sent hs.consistent hres hcopy
            rw [hto.bytes]
            exact length_wire_le copy.endpoint pkt.data)
        rw [List.length_map, smul_eq_mul] at hsum
        exact hsum.trans (Nat.mul_le_mul_right _ hcopies)
      · intro hne
        change h.sent ≠ [] at hne
        change ∃ v, h.verdict = some v ∧ v.accepted = true
        rcases handlePacket_cases hres with ⟨-, rfl⟩ | ⟨r, -, -, hh⟩
        · exact absurd rfl hne
        · refine ⟨_, hh.verdict, ?_⟩
          by_contra hv
          rw [hh.sent, if_neg hv] at hne
          exact hne rfl

/-- However the server is driven, no packet makes it send more than 31 copies of that packet. -/
theorem amplification_bounded (net : Network) (events : List APIEvent) :
    AllSteps (apiStep net) (fun _ ev out => ∀ pkt, ev = .packet pkt → Bounded 31 pkt out) .start events :=
  allSteps_of_invariant (I := fun s : Relay => Sound s.sm) (C := fun _ _ _ => True)
    (fun _ ev hs _ => sound_apiStep net hs ev)
    (fun _ _ hs _ pkt hev => hev ▸ bounded_packet net hs pkt)
    sound_new (fun _ _ => trivial)

/-! ## Where endpoints come from -/

/-- Every endpoint the server knows for a player satisfies `ok`. -/
def EndpointsAll (ok : PlayerID → Endpoint → Prop) (sm : SessionManager) : Prop :=
  PlayersAll (fun _ p info => ∀ e, info.endpoint = some e → ok p e) sm

section Endpoints
variable {ok : PlayerID → Endpoint → Prop} {net : Network} {s : Relay}

theorem endpointsAll_start : EndpointsAll ok Relay.start.sm := by
  intro sid r hr
  simp [Relay.start, newSessionManager] at hr

theorem KnownEndpoint.allowed {sm : SessionManager} (h : EndpointsAll ok sm) {sid : SessionID} {r : SessionRef}
    (hr : sm.sessions.lookup sid = some r) {p : PlayerID} {e : Endpoint} (hk : KnownEndpoint sm r p e) :
    ok p e := by
  obtain ⟨info, hinfo, he⟩ := hk
  exact h sid r hr p info hinfo e he

theorem endpointsAll_call {sm : SessionManager} (h : EndpointsAll ok sm) (hc : Consistent sm) (c : Call) :
    EndpointsAll ok (sm.call c).2 := by
  refine PlayersAll.outcome h hc (call_outcome hc c) (fun _ _ _ _ hq => hq) fun _ _ _ => ⟨?_, ?_⟩
  · intro login e he
    cases he
  · intro info _ e he
    cases he

/-- A packet teaches the server at most one endpoint: its source, for the player it bears the ID of. -/
theorem endpointsAll_updatePlayer {sm : SessionManager} (h : EndpointsAll ok sm) (hc : Consistent sm)
    {src : Endpoint} {r : SessionRef} {p : PlayerID} (hr : sm.findSessionByPlayer p = some r) (now : Instant)
    (hok : ok p src) : EndpointsAll ok (sm.updatePlayer src r p now).2 := by
  obtain ⟨sid, hi, hsid, hmem⟩ := hc.of_findSessionByPlayer hr
  obtain ⟨info, hinfo⟩ := Table.lookup_of_mem hmem
  obtain ⟨v, info', hu, hheard⟩ := updatePlayer_of_lookup src hinfo now
  have honly : ∀ sid', sm.playerIndex.lookup p = some sid' → sid' = sid := by
    intro sid' hi'
    exact Option.some.inj (hi'.symm.trans hi)
  rw [hu]
  refine PlayersAll.insertPlayer h hc hsid honly (fun _ _ _ _ hq => hq) fun e he => ?_
  cases hv : v.accepted with
  | true =>
    rw [(hheard.accepted hv).1] at he
    cases he
    exact hok
  | false =>
    rw [(hheard.rejected hv).1] at he
    exact h sid r hsid p info hinfo e he

theorem endpointsAll_relayStep (h : EndpointsAll ok s.sm) (hc : Consistent s.sm) (ev : RelayEvent)
    (hpkt : ∀ pkt, ev = .packet pkt → relayHeaderSize ≤ pkt.data.length → ok (senderOf pkt.data) pkt.src) :
    EndpointsAll ok (relayStep net s ev).1.sm := by
  unfold relayStep
  cases s.fault with
  | some f => exact h
  | none =>
    cases ev with
    | call c now => exact endpointsAll_call h hc c
    | packet pkt =>
      dsimp only
      cases hres : s.sm.handlePacket net pkt.order pkt.src pkt.data pkt.now with
      | error f => exact h
      | ok hd =>
        rcases handlePacket_cases hres with ⟨-, rfl⟩ | ⟨r, hlen, hr, hh⟩
        · exact (sameTables_countDropped s.sm).playersAll h
        · exact hh.tables.playersAll (endpointsAll_updatePlayer h hc hr pkt.now (hpkt pkt rfl hlen))
    | reap o clk => exact PlayersAll.reapApply h (distinct_reapCollect hc o clk)

end Endpoints

end SessionManager
end SturmRelay
