import SturmRelay.Relay.ReaperExact
import SturmRelay.Relay.Server

/-! # How long the reaper lets silence last

`RunReaper` makes a pass every `ReaperInterval`. A pass removes whoever is stale when it begins; what is in
the tables some time later has been heard of since, or was not yet stale then. `reaper_deadline` puts the
two together: at a time `T` that is at most one interval after a pass began, nobody is registered who has
been silent for longer than `PlayerTimeout` and the interval. -/

namespace SturmRelay
namespace SessionManager
set_option autoImplicit false

def reaperInterval : ℤ := 30 * second

/-- The clock readings of a call or a packet. -/
def RelayEvent.readings : RelayEvent → List Instant
  | .call (.createSession _ _ created) now => [created, now]
  | .call _ now => [now]
  | .packet pkt => [pkt.now]
  | .reap _ _ => []

theorem RelayEvent.mem_readings_call (c : Call) (now : Instant) : now ∈ (RelayEvent.call c now).readings := by
  cases c <;> simp [RelayEvent.readings]

/-! ## Players -/

/-- The session was in the map, and at time `t` not older than `PlayerTimeout`. -/
def YoungAt (sm : SessionManager) (t : Instant) (sid : SessionID) : Prop :=
  ∃ r, sm.sessions.lookup sid = some r ∧ t - (sm.session r).createdAt ≤ playerTimeout

/-- The player was heard of at most `PlayerTimeout` before `t`, or has joined since, or has never been heard
of in a session that was young then. -/
def Current (young : SessionID → Prop) (t : Instant) (facts : List Fact) (sid : SessionID) (p : PlayerID)
    (info : PlayerInfo) : Prop :=
  (∃ seen, info.lastSeen = some seen ∧ t - seen ≤ playerTimeout) ∨
  (∃ joined, lastJoin facts sid p = some joined ∧ t ≤ joined) ∨
  info.lastSeen = none ∧ young sid

section Current
variable {young : SessionID → Prop} {t : Instant} {facts : List Fact} {sm : SessionManager}

theorem Current.of_lastSeen {sid : SessionID} {p : PlayerID} {info info' : PlayerInfo}
    (h : Current young t facts sid p info) (hseen : info'.lastSeen = info.lastSeen) :
    Current young t facts sid p info' := by
  unfold Current
  rw [hseen]
  exact h

theorem Current.of_lastJoin {sid : SessionID} {p : PlayerID} {info : PlayerInfo} {facts' : List Fact}
    (h : Current young t facts sid p info) (hjoin : lastJoin facts' sid p = lastJoin facts sid p) :
    Current young t facts' sid p info := by
  unfold Current
  rw [hjoin]
  exact h

theorem current_call (hc : Consistent sm) (h : PlayersAll (Current young t facts) sm) (c : Call)
    {now : Instant} (hnow : t ≤ now) :
    PlayersAll (Current young t (facts ++ (joinFact c (sm.call c).1 now).toList)) (sm.call c).2 := by
  refine h.outcome hc (call_outcome hc c) ?_ ?_
  · intro sid q info hq hcur
    unfold joinFact
    cases hj : joinedBy c (sm.call c).1 with
    | none =>
      rw [Option.map_none, Option.toList_none, List.append_nil]
      exact hcur
    | some j =>
      have hne : ¬ (j.1 = sid ∧ j.2 = q) := fun he => hq sid (by rw [hj, ← he.1, ← he.2])
      rw [Option.map_some, Option.toList_some]
      refine hcur.of_lastJoin ?_
      rw [lastJoin_joined, if_neg hne]
  · intro sid p hj
    unfold joinFact
    rw [hj, Option.map_some, Option.toList_some]
    have hjoined : lastJoin (facts ++ [.joined sid p now]) sid p = some now := by
      rw [lastJoin_joined, if_pos ⟨rfl, rfl⟩]
    exact ⟨fun _ => Or.inr (Or.inl ⟨now, hjoined, hnow⟩), fun _ _ => Or.inr (Or.inl ⟨now, hjoined, hnow⟩)⟩

theorem current_updatePlayer (hc : Consistent sm) (h : PlayersAll (Current young t facts) sm) {p : PlayerID}
    {r : SessionRef} (hr : sm.findSessionByPlayer p = some r) (src : Endpoint) {now : Instant}
    (hnow : t ≤ now) :
    PlayersAll (Current young t (facts ++ (packetFact p src now (sm.updatePlayer src r p now).1).toList))
      (sm.updatePlayer src r p now).2 := by
  obtain ⟨sid, hi, hsid, hmem⟩ := hc.of_findSessionByPlayer hr
  obtain ⟨info, hinfo⟩ := Table.lookup_of_mem hmem
  obtain ⟨v, info', hu, hheard⟩ := updatePlayer_of_lookup src hinfo now
  have honly : ∀ sid', sm.playerIndex.lookup p = some sid' → sid' = sid := by
    intro sid' hi'
    rw [hi] at hi'
    exact (Option.some.inj hi').symm
  have hjoin : ∀ sid' q, lastJoin (facts ++ (packetFact p src now v).toList) sid' q =
      lastJoin facts sid' q := by
    intro sid' q
    unfold packetFact
    split
    · exact lastJoin_accepted sid' q p src now
    · rw [Option.toList_none, List.append_nil]
  rw [hu]
  refine h.insertPlayer hc hsid honly (fun sid' q _ _ hq => hq.of_lastJoin (hjoin sid' q)) ?_
  cases hv : v.accepted with
  | false =>
    have hcur := h sid r hsid p info hinfo
    exact (hcur.of_lastSeen (hheard.rejected hv).2).of_lastJoin (hjoin sid p)
  | true =>
    refine Or.inl ⟨now, (hheard.accepted hv).2, ?_⟩
    exact (Int.sub_nonpos_of_le hnow).trans (by decide)

/-- Nobody stops being current by what happens later. -/
theorem current_relayStep (net : Network) {s : Relay} (hc : Consistent s.sm)
    (h : PlayersAll (Current young t facts) s.sm) (ev : RelayEvent) (hlater : ∀ u ∈ ev.readings, t ≤ u) :
    PlayersAll (Current young t (facts ++ (observe ev (relayStep net s ev).2).toList))
      (relayStep net s ev).1.sm := by
  have hsilent : PlayersAll (Current young t (facts ++ (none : Option Fact).toList)) s.sm := by
    rw [Option.toList_none, List.append_nil]
    exact h
  unfold relayStep
  cases hf : s.fault with
  | some f => cases ev <;> exact hsilent
  | none =>
    cases ev with
    | call c now => exact current_call hc h c (hlater now (RelayEvent.mem_readings_call c now))
    | packet pkt =>
      have hnow : t ≤ pkt.now := hlater pkt.now (List.mem_singleton.mpr rfl)
      dsimp only
      cases hres : s.sm.handlePacket net pkt.order pkt.src pkt.data pkt.now with
      | error f => exact hsilent
      | ok out =>
        dsimp only
        rcases handlePacket_tables hres with ⟨hs, hv⟩ | ⟨r, hr, hs, hv⟩
        · rw [hv]
          exact hs.playersAll hsilent
        · rw [hv]
          exact hs.playersAll (current_updatePlayer hc h hr pkt.src hnow)
    | reap o clk => exact hsilent.reapApply (distinct_reapCollect hc o clk)

end Current

/-! ## Sessions -/

section Sessions
variable {P : SessionID → Session → Prop} {sm : SessionManager}

variable (hage : ∀ sid (s s' : Session), s'.createdAt = s.createdAt → P sid s → P sid s')
include hage

theorem LiveAll.dropPlayer_age (h : LiveAll P sm) (r : SessionRef) (p : PlayerID) :
    LiveAll P (sm.dropPlayer r p) :=
  LiveAll.modifySession h r (f := fun s => (s.removePlayer p).2) fun sid hs => hage sid (sm.session r) _ rfl hs

theorem LiveAll.putPlayer_age (h : LiveAll P sm) (r : SessionRef) (sid : SessionID) (p : PlayerID)
    (info : PlayerInfo) : LiveAll P (sm.putPlayer r sid p info) :=
  LiveAll.modifySession h r (f := fun s => { s with players := s.players.insert p info })
    fun sid' hs => hage sid' (sm.session r) _ rfl hs

/-- A property that only looks at the age of a session and holds of new ones is kept by every call. -/
theorem liveAll_call (hc : Consistent sm) (h : LiveAll P sm) (c : Call)
    (hnew : ∀ id maxPlayers now, c = .createSession id maxPlayers now →
      P id (newSession id maxPlayers now)) : LiveAll P (sm.call c).2 := by
  have hout := call_outcome hc c
  revert hout
  generalize (sm.call c).1 = res
  generalize (sm.call c).2 = sm'
  intro hout
  cases hout with
  | failed e => exact h
  | created _ _ => exact LiveAll.insertSession h hc.ref_lt (hnew _ _ _ rfl)
  | deleted hr => exact LiveAll.eraseSession h _
  | rejoined hr hi =>
    exact LiveAll.modifySession h _ fun sid hs => hage sid (sm.session _) _ rfl hs
  | joined hr hi => exact h.putPlayer_age hage _ _ _ _
  | refused e _ _ _ => exact h.dropPlayer_age hage _ _
  | migrated hr _ _ hold hp => exact (h.dropPlayer_age hage _ _).putPlayer_age hage _ _ _ _
  | left hr hp => exact h.dropPlayer_age hage _ _

theorem liveAll_updatePlayer (h : LiveAll P sm) (src : Endpoint) (r : SessionRef) (p : PlayerID)
    (now : Instant) : LiveAll P (sm.updatePlayer src r p now).2 := by
  cases hp : (sm.session r).players.lookup p with
  | none =>
    rw [updatePlayer_of_notMem src hp]
    exact h
  | some info =>
    obtain ⟨v, info', hu, -⟩ := updatePlayer_of_lookup src hp now
    rw [hu]
    exact LiveAll.modifySession h r (f := fun s => { s with players := s.players.insert p info' })
      fun sid hs => hage sid (sm.session r) _ rfl hs

theorem liveAll_relayStep (net : Network) {s : Relay} (hc : Consistent s.sm) (h : LiveAll P s.sm)
    (ev : RelayEvent) (hnew : ∀ id maxPlayers created now,
      ev = .call (.createSession id maxPlayers created) now → P id (newSession id maxPlayers created)) :
    LiveAll P (relayStep net s ev).1.sm := by
  unfold relayStep
  cases hf : s.fault with
  | some f => exact h
  | none =>
    cases ev with
    | call c now =>
      refine liveAll_call hage hc h c fun id maxPlayers created he => ?_
      exact hnew id maxPlayers created now (by rw [he])
    | packet pkt =>
      dsimp only
      cases hres : s.sm.handlePacket net pkt.order pkt.src pkt.data pkt.now with
      | error f => exact h
      | ok out =>
        dsimp only
        rcases handlePacket_tables hres with ⟨hs, -⟩ | ⟨r, -, hs, -⟩
        · exact hs.liveAll h
        · exact hs.liveAll (liveAll_updatePlayer hage h pkt.src r _ pkt.now)
    | reap o clk =>
      have hd := distinct_reapCollect hc o clk
      intro sid r hr
      have hr' := ((lookup_reapApply_sessions hd sid r).mp hr).2
      obtain ⟨ps, hps⟩ := session_reapApply hd clk s.sm r
      refine hage sid (s.sm.session r) _ ?_ (h sid r hr')
      show ((reapApply clk (reapCollect o clk s.sm) s.sm).sm.session r).createdAt = _
      rw [hps]

end Sessions

/-! ## After a pass -/

section Pass
variable {sm : SessionManager} {o : ReapOrder} {clk : ReapClock} {last : Instant}

theorem current_reap (hc : Consistent sm) (hclk : clk.Nondecreasing last) (facts : List Fact) :
    PlayersAll (Current (YoungAt (sm.reapStaleSessions o clk).sm clk.collect) clk.collect facts)
      (sm.reapStaleSessions o clk).sm := by
  have hexact := reaps_exactly sm hc o clk last hclk
  intro sid r hr p info hp
  have hr' := hexact.table_same sid r hr
  have hp' := hexact.players_same r p info hp
  have hfresh : (sm.session r).staleAt playerTimeout clk.collect p = false := by
    apply eq_false_of_ne_true
    intro hstale
    exact (hexact.stale_removed sid r p hr' hstale).2 (Table.mem_of_lookup hp)
  simp only [Session.staleAt, hp', Session.isStale] at hfresh
  cases hseen : info.lastSeen with
  | some seen =>
    simp only [hseen, decide_eq_false_iff_not] at hfresh
    exact Or.inl ⟨seen, hseen, Int.not_lt.mp hfresh⟩
  | none =>
    simp only [hseen, decide_eq_false_iff_not] at hfresh
    refine Or.inr (Or.inr ⟨hseen, r, hr, ?_⟩)
    rw [(hexact.sessions_same r).2.2]
    exact Int.not_lt.mp hfresh

/-- A pass leaves no session behind that is empty and was old when it began. -/
theorem empty_young_reap (hc : Consistent sm) (hclk : clk.Nondecreasing last) {sid : SessionID}
    {r : SessionRef} (hr : (sm.reapStaleSessions o clk).sm.sessions.lookup sid = some r)
    (hempty : ((sm.reapStaleSessions o clk).sm.session r).playerCount = 0) :
    clk.collect - ((sm.reapStaleSessions o clk).sm.session r).createdAt ≤ sessionEmptyTimeout := by
  have hd := distinct_reapCollect hc o clk
  have e := reapEffect_reapApply clk hd sm
  obtain ⟨hout, hr'⟩ := (lookup_reapApply_sessions hd sid r).mp hr
  have hage := ((reaps_exactly sm hc o clk last hclk).sessions_same r).2.2
  rw [hage]
  apply Int.not_lt.mp
  intro hold
  -- an empty session is a candidate, since it is old or has just lost a player
  have hcand : ∃ c ∈ reapCollect o clk sm, r = c.session := by
    by_contra hnone
    have hsame := e.session_other r fun c hcm he => hnone ⟨c, hcm, he⟩
    have hzero : (sm.session r).playerCount = 0 := by
      rw [← hsame]
      exact hempty
    exact hnone ⟨_, candidate_of_session hr' (Or.inr ⟨hzero, hold⟩), rfl⟩
  obtain ⟨c, hcm, rfl⟩ := hcand
  obtain rfl := hc.ref_inj hr' (mem_reapCollect.mp hcm).1
  refine hout (mem_emptiedIDs.mpr ⟨c, hcm, decide_eq_true ⟨?_, ?_⟩, rfl⟩)
  · have hzero := hempty
    rw [reapStaleSessions, e.session_mem c hcm] at hzero
    exact hzero
  · exact hold.trans_le (Int.sub_le_sub_right ((hclk.scan c.sessionID).trans (hclk.apply c.sessionID)) _)

end Pass

/-! ## Every run -/

section Runs
variable (net : Network) (before : List RelayEvent) (o : ReapOrder) (clk : ReapClock)

/-- The manager after a pass and what has happened since. -/
def since (after : List RelayEvent) : SessionManager :=
  (runState (relayStep net) .start (before ++ .reap o clk :: after)).sm

/-- The session has had a player since the pass. -/
def Occupied (after : List RelayEvent) (sid : SessionID) : Prop :=
  ∃ a, a <+: after ∧ ∃ r, (since net before o clk a).sessions.lookup sid = some r ∧
    ((since net before o clk a).session r).playerCount ≠ 0

/-- The player has been heard of, has joined or has found a new session within the given times before
`T`. -/
def HeardOf (T : Instant) (facts : List Fact) (young : SessionManager) (sid : SessionID) (p : PlayerID) :
    Prop :=
  (∃ src seen, lastPacket facts sid p = some (src, seen) ∧ T - seen ≤ playerTimeout + reaperInterval) ∨
  (∃ joined, lastJoin facts sid p = some joined ∧ T - joined ≤ reaperInterval) ∨
  lastPacket facts sid p = none ∧ ∃ r, young.sessions.lookup sid = some r ∧
    T - (young.session r).createdAt ≤ playerTimeout + reaperInterval

variable {net before o clk}

theorem relayStep_reap {s : Relay} (hup : s.fault = none) :
    (relayStep net s (.reap o clk)).1.sm = (s.sm.reapStaleSessions o clk).sm := by
  unfold relayStep
  rw [hup]

theorem since_nil (hup : (runState (relayStep net) .start before).fault = none) :
    since net before o clk [] =
      ((runState (relayStep net) .start before).sm.reapStaleSessions o clk).sm := by
  unfold since
  rw [runState_append]
  exact relayStep_reap hup

theorem since_concat (after : List RelayEvent) (e : RelayEvent) :
    since net before o clk (after ++ [e]) =
      (relayStep net (runState (relayStep net) .start (before ++ .reap o clk :: after)) e).1.sm := by
  unfold since
  rw [← List.cons_append, ← List.append_assoc, runState_append]
  rfl

theorem history_concat (events : List RelayEvent) (e : RelayEvent) :
    history net (events ++ [e]) = history net events ++
      (observe e (relayStep net (runState (relayStep net) .start events) e).2).toList := by
  unfold history
  rw [trace_append]
  exact filterMap_concat _ _ _

theorem Occupied.mono {after : List RelayEvent} {sid : SessionID} (h : Occupied net before o clk after sid)
    (e : RelayEvent) : Occupied net before o clk (after ++ [e]) sid := by
  obtain ⟨a, ha, hsid⟩ := h
  exact ⟨a, ha.trans (List.prefix_append _ _), hsid⟩

variable (hup : (runState (relayStep net) .start before).fault = none) {last : Instant}
  (hclk : clk.Nondecreasing last) {after : List RelayEvent}
  (hlater : ∀ e ∈ after, ∀ u ∈ e.readings, clk.collect ≤ u)
include hup hclk hlater

theorem current_since :
    PlayersAll (Current (YoungAt (since net before o clk []) clk.collect) clk.collect
      (history net (before ++ .reap o clk :: after))) (since net before o clk after) := by
  induction after using List.reverseRecOn with
  | nil =>
    rw [since_nil hup]
    exact current_reap (tracked_runState net before).consistent hclk _
  | append_singleton after e ih =>
    have hcons : before ++ RelayEvent.reap o clk :: (after ++ [e]) =
        before ++ RelayEvent.reap o clk :: after ++ [e] := by
      rw [← List.cons_append, List.append_assoc]
    have hprev := ih fun e' he' => hlater e' (List.mem_append_left _ he')
    have hc := (tracked_runState net (before ++ .reap o clk :: after)).consistent
    rw [hcons, history_concat, since_concat]
    exact current_relayStep net hc hprev e (hlater e (List.mem_append_right _ (List.mem_singleton.mpr rfl)))

theorem occupied_since :
    LiveAll (fun sid s => Occupied net before o clk after sid ∨ clk.collect - s.createdAt ≤ sessionEmptyTimeout)
      (since net before o clk after) := by
  induction after using List.reverseRecOn with
  | nil =>
    intro sid r hr
    by_cases hempty : ((since net before o clk []).session r).playerCount = 0
    · right
      rw [since_nil hup] at hr hempty ⊢
      exact empty_young_reap (tracked_runState net before).consistent hclk hr hempty
    · exact Or.inl ⟨[], List.prefix_refl _, r, hr, hempty⟩
  | append_singleton after e ih =>
    have hprev := ih fun e' he' => hlater e' (List.mem_append_left _ he')
    have hc := (tracked_runState net (before ++ .reap o clk :: after)).consistent
    have hmore : LiveAll (fun sid s => Occupied net before o clk (after ++ [e]) sid ∨
        clk.collect - s.createdAt ≤ sessionEmptyTimeout) (since net before o clk after) :=
      fun sid r hr => (hprev sid r hr).imp_left fun hocc => hocc.mono e
    rw [since_concat]
    refine liveAll_relayStep ?_ net hc hmore e ?_
    · intro sid s s' hage hs
      rw [hage]
      exact hs
    · intro id maxPlayers created now he
      right
      have hcreated : clk.collect ≤ created := by
        refine hlater e (List.mem_append_right _ (List.mem_singleton.mpr rfl)) created ?_
        rw [he]
        exact List.mem_cons_self
      exact (Int.sub_nonpos_of_le hcreated).trans (by decide)

end Runs

/-- At any time up to one interval after a reaper pass began, whatever has happened since: whoever is
registered has been heard of within `PlayerTimeout` and the interval, or has joined within the interval, or
is silent in a session not older than that; and a session that has had no player since the pass was
created at most `SessionEmptyTimeout` before it. -/
theorem reaper_deadline (net : Network) (before after : List RelayEvent) (o : ReapOrder) (clk : ReapClock)
    (last T : Instant) (hup : (runState (relayStep net) .start before).fault = none)
    (hclk : clk.Nondecreasing last) (hlater : ∀ e ∈ after, ∀ u ∈ e.readings, clk.collect ≤ u)
    (hT : T ≤ clk.collect + reaperInterval) :
    PlayersAll (fun sid p _ => HeardOf T (history net (before ++ .reap o clk :: after))
      (since net before o clk []) sid p) (since net before o clk after) ∧
    LiveAll (fun sid s => Occupied net before o clk after sid ∨
      T - s.createdAt ≤ sessionEmptyTimeout + reaperInterval) (since net before o clk after) := by
  have hplayers := current_since (o := o) hup hclk hlater
  have hsessions := occupied_since (o := o) hup hclk hlater
  have htracked := (tracked_runState net (before ++ .reap o clk :: after)).players
  have hlate : ∀ {u bound : Instant}, clk.collect - u ≤ bound → T - u ≤ bound + reaperInterval := by
    intro u bound hu
    have hT' : T - u ≤ clk.collect + reaperInterval - u := Int.sub_le_sub_right hT u
    refine hT'.trans ?_
    rw [Int.add_comm, Int.add_sub_assoc, Int.add_comm]
    exact Int.add_le_add_right hu reaperInterval
  refine ⟨fun sid r hr p info hp => ?_, fun sid r hr => (hsessions sid r hr).imp_right hlate⟩
  have hseen := (htracked sid r hr p info hp).lastSeen
  rcases hplayers sid r hr p info hp with ⟨seen, hs, hu⟩ | ⟨joined, hj, hu⟩ | ⟨hs, r', hr', hu⟩
  · obtain ⟨⟨src, seen'⟩, hlast, rfl⟩ := Option.map_eq_some_iff.mp (hseen.symm.trans hs)
    exact Or.inl ⟨src, seen', hlast, hlate hu⟩
  · have hzero : clk.collect - joined ≤ 0 := Int.sub_nonpos_of_le hu
    have hbound := hlate hzero
    rw [Int.zero_add] at hbound
    exact Or.inr (Or.inl ⟨joined, hj, hbound⟩)
  · have hnone := Option.map_eq_none_iff.mp (hseen.symm.trans hs)
    exact Or.inr (Or.inr ⟨hnone, r', hr', hlate hu⟩)

/-- A player joins a new game and waits. A pass a minute later leaves it alone, and half a minute after that
it is still there. -/
def waitingPlayer : List RelayEvent :=
  [.call (.createSession "game" 2 0) 0, .call (.addPlayerToSession "game" 1 "player") 0]

theorem waitingPlayer_heardOf :
    let clk := ReapClock.still (60 * second)
    (runState (relayStep .reliable) .start waitingPlayer).fault = none ∧
    (since .reliable waitingPlayer .listed clk []).playerIndex.lookup 1 = some "game" ∧
    PlayersAll (fun sid p _ => HeardOf (90 * second) (history .reliable (waitingPlayer ++ [.reap .listed clk]))
      (since .reliable waitingPlayer .listed clk []) sid p) (since .reliable waitingPlayer .listed clk []) := by
  intro clk
  have hclk : clk.Nondecreasing (60 * second) :=
    ⟨fun _ => Int.le_refl _, fun _ => Int.le_refl _, fun _ _ => Int.le_refl _, fun _ _ => Int.le_refl _⟩
  refine ⟨rfl, by decide, ?_⟩
  exact (reaper_deadline .reliable waitingPlayer [] .listed clk (60 * second) (90 * second) rfl hclk
    (fun e he => absurd he List.not_mem_nil) (by decide)).1

end SessionManager
end SturmRelay
