import SturmRelay.Relay.Players

/-! # The running server and its history

One step is one call of the session manager, one packet from its first byte read to its last copy
written, or one reaper pass. A panic stops the server for good.

The history of a run is what can be told from its events and answers alone: who joined which
session when, and whose packet from which endpoint was accepted when. `lastPacket` reads from it
what the manager should know about a player of a session, and `tracks_runState` says that it does:
the four transport fields of a player come down to the endpoint and the time of its last accepted
packet since its latest join. -/

namespace SturmRelay
set_option autoImplicit false

/-! ## Packets -/

/-- What the loop behind an endpoint can read. -/
def Endpoint.Delivers : Endpoint → Bytes → Prop
  | .udp _, data => data.length ≤ readBufferSize
  | .tcp _, data => 0 < data.length ∧ data.length ≤ maxTCPFramePayload

instance (src : Endpoint) (data : Bytes) : Decidable (src.Delivers data) :=
  match src with
  | .udp _ => inferInstanceAs (Decidable (_ ≤ _))
  | .tcp _ => inferInstanceAs (Decidable (_ ∧ _))

structure Packet where
  src : Endpoint
  data : Bytes
  readable : src.Delivers data
  now : Instant
  order : RangeOrder PlayerID

/-- The frames `readTCPFrame` accepts: a length that fits, and a packet of that length. -/
def FrameField (bufSize : ℕ) (w data : Bytes) : Prop :=
  ∃ hdr, hdr.length = 2 ∧ beDecode hdr = data.length ∧ 0 < data.length ∧
    data.length ≤ maxTCPFramePayload ∧ data.length ≤ bufSize ∧ w = hdr ++ data

open StreamReader in
theorem accepts_readTCPFrame (bufSize : ℕ) : Accepts (readTCPFrame bufSize) (FrameField bufSize) := by
  refine (accepts_bind (accepts_wrap (accepts_readFull 2) _) fun hdr => accepts_ite
    (fun _ => accepts_fail _) fun _ => accepts_ite (fun _ => accepts_fail _) fun _ => accepts_ite
      (fun _ => accepts_fail _) fun _ => accepts_wrap (accepts_readFull _) _).congr fun w data => ?_
  constructor
  · rintro ⟨_, body, hdr, rfl, ⟨hlen, rfl⟩, h⟩
    rcases h with ⟨_, h⟩ | ⟨hpos, ⟨_, h⟩ | ⟨hmax, ⟨_, h⟩ | ⟨hbuf, hbody, rfl⟩⟩⟩
    · exact h.elim
    · exact h.elim
    · exact h.elim
    · exact ⟨hdr, hlen, hbody.symm, by omega, by omega, by omega, rfl⟩
  · rintro ⟨hdr, hlen, hn, hpos, hmax, hbuf, rfl⟩
    exact ⟨hdr, data, hdr, rfl, ⟨hlen, rfl⟩, Or.inr ⟨by omega, Or.inr ⟨by omega, Or.inr
      ⟨by omega, hn.symm, rfl⟩⟩⟩⟩

/-- A frame as `writeTCPFrame` writes it reads back as the packet. -/
theorem readTCPFrame_wire {conn : Conn} {data : Bytes} (hpos : 0 < data.length)
    (hmax : data.length ≤ maxTCPFramePayload) (rest : Bytes) :
    readTCPFrame readBufferSize ((Endpoint.tcp conn).wire data ++ rest) = .ok data rest := by
  have h1400 : data.length ≤ 1400 := hmax
  have hn : beDecode (beEncode 2 data.length) = data.length := by
    rw [beDecode_beEncode]
    omega
  have hbuf : data.length ≤ readBufferSize := hmax.trans (by decide)
  exact (accepts_readTCPFrame _ _ _ _).mpr
    ⟨_, rfl, beEncode 2 data.length, length_beEncode 2 _, hn, hpos, hmax, hbuf, rfl⟩

namespace SessionManager

/-! ## Steps -/

structure Relay where
  sm : SessionManager
  fault : Option Fault := none

def Relay.start : Relay := { sm := newSessionManager }

inductive RelayEvent
  | call (c : Call) (now : Instant)
  | packet (pkt : Packet)
  | reap (o : ReapOrder) (clk : ReapClock)

inductive RelayReply
  | result (res : Except SessionError Unit)
  | handled (verdict : Option PacketVerdict) (sent : List Sent) (closed : List Conn)
  | reaped (players sessions : ℕ) (closed : List Conn)
  | crashed (f : Fault)

def relayStep (net : Network) (s : Relay) (ev : RelayEvent) : Relay × RelayReply :=
  match s.fault with
  | some f => (s, .crashed f)
  | none =>
    match ev with
    | .call c _ => ({ s with sm := (s.sm.call c).2 }, .result (s.sm.call c).1)
    | .packet pkt =>
      match s.sm.handlePacket net pkt.order pkt.src pkt.data pkt.now with
      | .ok h => ({ s with sm := h.sm }, .handled h.verdict h.sent h.closed)
      | .error f => ({ s with fault := some f }, .crashed f)
    | .reap o clk =>
      let st := s.sm.reapStaleSessions o clk
      ({ s with sm := st.sm }, .reaped st.removedPlayers st.removedSessions st.closed)

/-! ## The history -/

inductive Fact
  | joined (sid : SessionID) (p : PlayerID) (now : Instant)
  | accepted (p : PlayerID) (src : Endpoint) (now : Instant)
  deriving DecidableEq, Repr

def joinFact (c : Call) (res : Except SessionError Unit) (now : Instant) : Option Fact :=
  (joinedBy c res).map fun j => .joined j.1 j.2 now

def packetFact (p : PlayerID) (src : Endpoint) (now : Instant) (v : PacketVerdict) : Option Fact :=
  if v.accepted then some (.accepted p src now) else none

/-- What an event and its answer tell. -/
def observe : RelayEvent → RelayReply → Option Fact
  | .call c now, .result res => joinFact c res now
  | .packet pkt, .handled (some v) _ _ => packetFact (senderOf pkt.data) pkt.src pkt.now v
  | _, _ => none

def history (net : Network) (events : List RelayEvent) : List Fact :=
  (trace (relayStep net) .start events).filterMap fun x => observe x.2.1 x.2.2

/-- The effect of one fact on what is known of a player's last packet since its latest join. -/
def notePacket (sid : SessionID) (p : PlayerID) (last : Option (Endpoint × Instant)) :
    Fact → Option (Endpoint × Instant)
  | .joined sid' p' _ => if sid' = sid ∧ p' = p then none else last
  | .accepted p' src now => if p' = p then some (src, now) else last

/-- The last accepted packet of a player since it last joined the session. -/
def lastPacket (facts : List Fact) (sid : SessionID) (p : PlayerID) : Option (Endpoint × Instant) :=
  facts.foldl (notePacket sid p) none

def noteJoin (sid : SessionID) (p : PlayerID) (last : Option Instant) : Fact → Option Instant
  | .joined sid' p' now => if sid' = sid ∧ p' = p then some now else last
  | .accepted _ _ _ => last

/-- When the player last joined the session. -/
def lastJoin (facts : List Fact) (sid : SessionID) (p : PlayerID) : Option Instant :=
  facts.foldl (noteJoin sid p) none

/-- The manager's entry of a player agrees with the history. -/
structure Tracks (facts : List Fact) (sid : SessionID) (p : PlayerID) (info : PlayerInfo) : Prop where
  joined : (lastJoin facts sid p).isSome
  endpoint : info.endpoint = (lastPacket facts sid p).map Prod.fst
  lastSeen : info.lastSeen = (lastPacket facts sid p).map Prod.snd

section Tracking
variable {facts : List Fact} {sm : SessionManager}

theorem lastPacket_joined (sid sid' : SessionID) (p p' : PlayerID) (now : Instant) :
    lastPacket (facts ++ [.joined sid' p' now]) sid p =
      if sid' = sid ∧ p' = p then none else lastPacket facts sid p := by
  unfold lastPacket
  rw [List.foldl_append]
  rfl

theorem lastPacket_accepted (sid : SessionID) (p p' : PlayerID) (src : Endpoint) (now : Instant) :
    lastPacket (facts ++ [.accepted p' src now]) sid p =
      if p' = p then some (src, now) else lastPacket facts sid p := by
  unfold lastPacket
  rw [List.foldl_append]
  rfl

theorem lastJoin_joined (sid sid' : SessionID) (p p' : PlayerID) (now : Instant) :
    lastJoin (facts ++ [.joined sid' p' now]) sid p =
      if sid' = sid ∧ p' = p then some now else lastJoin facts sid p := by
  unfold lastJoin
  rw [List.foldl_append]
  rfl

theorem lastJoin_accepted (sid : SessionID) (p p' : PlayerID) (src : Endpoint) (now : Instant) :
    lastJoin (facts ++ [.accepted p' src now]) sid p = lastJoin facts sid p := by
  unfold lastJoin
  rw [List.foldl_append]
  rfl

/-- Only a join of this player to this session, and a packet of this player, matter to an entry. -/
theorem Tracks.append_joined {sid sid' : SessionID} {p p' : PlayerID} {info : PlayerInfo}
    (ht : Tracks facts sid p info) (hne : ¬ (sid' = sid ∧ p' = p)) (now : Instant) :
    Tracks (facts ++ [.joined sid' p' now]) sid p info := by
  refine ⟨?_, ?_, ?_⟩
  · rw [lastJoin_joined, if_neg hne]
    exact ht.joined
  · rw [lastPacket_joined, if_neg hne, ht.endpoint]
  · rw [lastPacket_joined, if_neg hne, ht.lastSeen]

theorem Tracks.append_accepted {sid : SessionID} {p p' : PlayerID} {info : PlayerInfo}
    (ht : Tracks facts sid p info) (hne : p' ≠ p) (src : Endpoint) (now : Instant) :
    Tracks (facts ++ [.accepted p' src now]) sid p info := by
  refine ⟨?_, ?_, ?_⟩
  · rw [lastJoin_accepted]
    exact ht.joined
  · rw [lastPacket_accepted, if_neg hne, ht.endpoint]
  · rw [lastPacket_accepted, if_neg hne, ht.lastSeen]

theorem Tracks.of_rejected {sid : SessionID} {p : PlayerID} {src : Endpoint} {now : Instant}
    {v : PacketVerdict} {info info' : PlayerInfo} (ht : Tracks facts sid p info)
    (hheard : Heard src now v info info') (hv : v.accepted = false) : Tracks facts sid p info' := by
  obtain ⟨hend, hseen⟩ := hheard.rejected hv
  exact ⟨ht.joined, hend.trans ht.endpoint, hseen.trans ht.lastSeen⟩

theorem tracks_call (hc : Consistent sm) (h : PlayersAll (Tracks facts) sm) (c : Call) (now : Instant) :
    PlayersAll (Tracks (facts ++ (joinFact c (sm.call c).1 now).toList)) (sm.call c).2 := by
  refine h.outcome hc (call_outcome hc c) ?_ ?_
  · intro sid q info hq ht
    unfold joinFact
    cases hj : joinedBy c (sm.call c).1 with
    | none =>
      rw [Option.map_none, Option.toList_none, List.append_nil]
      exact ht
    | some j =>
      have hne : ¬ (j.1 = sid ∧ j.2 = q) := fun he => hq sid (by rw [hj, ← he.1, ← he.2])
      rw [Option.map_some, Option.toList_some]
      exact ht.append_joined hne now
  · intro sid p hj
    unfold joinFact
    rw [hj, Option.map_some, Option.toList_some]
    have hnone : lastPacket (facts ++ [.joined sid p now]) sid p = none := by
      rw [lastPacket_joined, if_pos ⟨rfl, rfl⟩]
    have hjoined : (lastJoin (facts ++ [.joined sid p now]) sid p).isSome := by
      rw [lastJoin_joined, if_pos ⟨rfl, rfl⟩]
      rfl
    refine ⟨fun login => ⟨hjoined, ?_, ?_⟩, fun info _ => ⟨hjoined, ?_, ?_⟩⟩ <;> rw [hnone] <;> rfl

theorem tracks_updatePlayer (hc : Consistent sm) (h : PlayersAll (Tracks facts) sm) {p : PlayerID}
    {r : SessionRef} (hr : sm.findSessionByPlayer p = some r) (src : Endpoint) (now : Instant) :
    PlayersAll (Tracks (facts ++ (packetFact p src now (sm.updatePlayer src r p now).1).toList))
      (sm.updatePlayer src r p now).2 := by
  obtain ⟨sid, hi, hsid, hmem⟩ := hc.of_findSessionByPlayer hr
  obtain ⟨info, hinfo⟩ := Table.lookup_of_mem hmem
  obtain ⟨v, info', hu, hheard⟩ := updatePlayer_of_lookup src hinfo now
  have honly : ∀ sid', sm.playerIndex.lookup p = some sid' → sid' = sid := by
    intro sid' hi'
    rw [hi] at hi'
    exact (Option.some.inj hi').symm
  have ht := h sid r hsid p info hinfo
  rw [hu]
  unfold packetFact
  dsimp only
  cases hv : v.accepted with
  | false =>
    rw [if_neg (by decide), Option.toList_none, List.append_nil]
    exact h.insertPlayer hc hsid honly (fun _ _ _ _ hq => hq) (ht.of_rejected hheard hv)
  | true =>
    obtain ⟨hend, hseen⟩ := hheard.accepted hv
    rw [if_pos rfl, Option.toList_some]
    refine h.insertPlayer hc hsid honly ?_ ⟨?_, ?_, ?_⟩
    · exact fun sid' q _ hne hq => hq.append_accepted hne.symm src now
    · rw [lastJoin_accepted]
      exact ht.joined
    · rw [lastPacket_accepted, if_pos rfl, hend, Option.map_some]
    · rw [lastPacket_accepted, if_pos rfl, hseen, Option.map_some]

end Tracking

/-! ## Every run -/

/-- A handled packet changes the tables as the update of its sender does, if there is one. -/
theorem handlePacket_tables {net : Network} {o : RangeOrder PlayerID} {src : Endpoint} {data : Bytes}
    {now : Instant} {sm : SessionManager} {h : Handled}
    (hok : sm.handlePacket net o src data now = .ok h) :
    (SameTables sm h.sm ∧ h.verdict = none) ∨
    ∃ r, sm.findSessionByPlayer (senderOf data) = some r ∧
      SameTables (sm.updatePlayer src r (senderOf data) now).2 h.sm ∧
      h.verdict = some (sm.updatePlayer src r (senderOf data) now).1 := by
  by_cases hun : Unroutable data sm
  · rw [handlePacket_dropped hun] at hok
    cases hok
    exact Or.inl ⟨sameTables_countDropped sm, rfl⟩
  · obtain ⟨hlen, hfound⟩ := not_or.mp hun
    obtain ⟨r, hr⟩ := Option.ne_none_iff_exists'.mp hfound
    obtain ⟨v, sm', hu⟩ : ∃ v sm', sm.updatePlayer src r (senderOf data) now = (v, sm') := ⟨_, _, rfl⟩
    have ha : AnswerOf net o data r v sm' src (.ok h) := by
      rw [← hok]
      exact handlePacket_answer net o (Nat.le_of_not_lt hlen) hr hu
    have hh : ∃ sent, Handles sm' v sent h := by
      cases hv : v.accepted with
      | false =>
        obtain ⟨h', he, hh⟩ := ha.rejected hv
        cases he
        exact ⟨_, hh⟩
      | true =>
        by_cases hfits : ∀ t ∈ recipients o src data (sm'.session r), FitsFrame data t
        · obtain ⟨h', he, hh⟩ := ha.accepted hv hfits
          cases he
          exact ⟨_, hh⟩
        · obtain ⟨f, he⟩ := ha.panics hv hfits
          cases he
    obtain ⟨sent, hh⟩ := hh
    refine Or.inr ⟨r, hr, ?_⟩
    rw [hu]
    exact ⟨hh.tables, hh.verdict⟩

structure Tracked (facts : List Fact) (sm : SessionManager) : Prop where
  consistent : Consistent sm
  players : PlayersAll (Tracks facts) sm

theorem tracked_relayStep (net : Network) {facts : List Fact} {s : Relay} (ht : Tracked facts s.sm)
    (ev : RelayEvent) :
    Tracked (facts ++ (observe ev (relayStep net s ev).2).toList) (relayStep net s ev).1.sm := by
  have hsilent : Tracked (facts ++ (none : Option Fact).toList) s.sm := by
    rw [Option.toList_none, List.append_nil]
    exact ht
  unfold relayStep
  cases hf : s.fault with
  | some f =>
    cases ev <;> exact hsilent
  | none =>
    cases ev with
    | call c now => exact ⟨ht.consistent.call c, tracks_call ht.consistent ht.players c now⟩
    | packet pkt =>
      dsimp only
      cases hres : s.sm.handlePacket net pkt.order pkt.src pkt.data pkt.now with
      | error f => exact hsilent
      | ok h =>
        dsimp only
        rcases handlePacket_tables hres with ⟨hs, hv⟩ | ⟨r, hr, hs, hv⟩
        · rw [hv]
          exact ⟨hs.consistent hsilent.consistent, hs.playersAll hsilent.players⟩
        · rw [hv]
          exact ⟨hs.consistent (ht.consistent.updatePlayer pkt.src r _ pkt.now),
            hs.playersAll (tracks_updatePlayer ht.consistent ht.players hr pkt.src pkt.now)⟩
    | reap o clk =>
      have hd := distinct_reapCollect ht.consistent o clk
      exact ⟨hsilent.consistent.reapStaleSessions o clk, hsilent.players.reapApply hd⟩

theorem tracked_runState (net : Network) (events : List RelayEvent) :
    Tracked (history net events) (runState (relayStep net) .start events).sm := by
  refine run_invariant_trace (relayStep net)
    (I := fun tr s => Tracked (tr.filterMap fun x => observe x.2.1 x.2.2) s.sm) ?_ ?_ events
  · refine ⟨consistent_new, fun sid r hr => ?_⟩
    simp [Relay.start, newSessionManager] at hr
  · intro tr s ev ht
    have hone : [(s, ev, (relayStep net s ev).2)].filterMap (fun x => observe x.2.1 x.2.2) =
        (observe ev (relayStep net s ev).2).toList := by
      rw [List.filterMap_cons, List.filterMap_nil]
      cases observe ev (relayStep net s ev).2 <;> rfl
    rw [List.filterMap_append, hone]
    exact tracked_relayStep net ht ev

end SessionManager
end SturmRelay
