import SturmRelay.Relay.Consistency

/-! # The two-phase reaper

`internal/relay/session.go`: `ReapStaleSessions`. Phase 1 (`reapCollect`) reads the tables and
keeps raw session pointers; phase 2 (`reapApply`) acts on what phase 1 found, through those
pointers, after the lock has been released and taken again.

The order in which the two loops of phase 1 visit the maps is a parameter (`ReapOrder`), and so is
every reading of the clock (`ReapClock`): each session is scanned once and each listed player is
checked once, so readings are named by what they are taken for.

Phase 2 has a closed form as long as the candidates are different objects: which players go
(`reaped`) and which sessions go (`emptied`) is decided by the state at the start of the phase,
candidate by candidate. -/

namespace SturmRelay
namespace SessionManager
set_option autoImplicit false

structure ReapCandidate where
  sessionID : SessionID
  session : SessionRef
  stalePIDs : List PlayerID
  deriving DecidableEq, Repr

/-- The clock readings of one pass: `now` of phase 1, the reading of `StalePlayers` for each
session, `now` of phase 2, the reading of `RemovePlayerIfStale` for each listed player. -/
structure ReapClock where
  collect : Instant
  scan : SessionID → Instant
  apply : Instant
  check : SessionID → PlayerID → Instant

/-- A pass in no time. -/
def ReapClock.still (t : Instant) : ReapClock := ⟨t, fun _ => t, t, fun _ _ => t⟩

/-- The iteration orders of phase 1. -/
structure ReapOrder where
  sessions : RangeOrder SessionID
  players : SessionID → RangeOrder PlayerID

def ReapOrder.listed : ReapOrder := ⟨.listed, fun _ => .listed⟩

/-! ## Phase 1 -/

def collectCandidate (o : ReapOrder) (clk : ReapClock) (sm : SessionManager) (sid : SessionID) :
    Option ReapCandidate :=
  match sm.sessions.lookup sid with
  | none => none
  | some r =>
    let s := sm.session r
    let stalePIDs := s.stalePlayers (o.players sid) playerTimeout (clk.scan sid)
    if 0 < stalePIDs.length ∨ (s.playerCount = 0 ∧ sessionEmptyTimeout < clk.collect - s.createdAt) then
      some { sessionID := sid, session := r, stalePIDs := stalePIDs }
    else none

def reapCollect (o : ReapOrder) (clk : ReapClock) (sm : SessionManager) : List ReapCandidate :=
  (o.sessions.visit sm.sessions.keys).filterMap (collectCandidate o clk sm)

/-! ## Phase 2 -/

/-- The manager during phase 2, the two counts the pass returns, and the connections it closes. -/
structure ReapState where
  sm : SessionManager
  removedPlayers : ℕ := 0
  removedSessions : ℕ := 0
  closed : List Conn := []

def reapPlayer (clk : ReapClock) (c : ReapCandidate) (st : ReapState) (pid : PlayerID) : ReapState :=
  match (st.sm.session c.session).removePlayerIfStale pid playerTimeout (clk.check c.sessionID pid) with
  | (true, tcpConn, s) =>
    { st with
      sm := addActivePlayers (-1) { st.sm.modifySession c.session (fun _ => s) with
        playerIndex := st.sm.playerIndex.erase pid }
      removedPlayers := st.removedPlayers + 1
      closed := st.closed ++ tcpConn.toList }
  | (false, _, _) => st

def reapSession (clk : ReapClock) (st : ReapState) (c : ReapCandidate) : ReapState :=
  let st := c.stalePIDs.foldl (reapPlayer clk c) st
  let s := st.sm.session c.session
  if s.playerCount = 0 ∧ sessionEmptyTimeout < clk.apply - s.createdAt then
    { st with
      sm := addActiveSessions (-1) { st.sm with sessions := st.sm.sessions.erase c.sessionID }
      removedSessions := st.removedSessions + 1 }
  else st

def reapApply (clk : ReapClock) (candidates : List ReapCandidate) (sm : SessionManager) : ReapState :=
  candidates.foldl (reapSession clk) { sm := sm }

/-- A pass with nothing between its phases. -/
def reapStaleSessions (o : ReapOrder) (clk : ReapClock) (sm : SessionManager) : ReapState :=
  reapApply clk (reapCollect o clk sm) sm

/-! ## What phase 1 finds -/

theorem collectCandidate_eq_some {o : ReapOrder} {clk : ReapClock} {sm : SessionManager}
    {sid : SessionID} {c : ReapCandidate} : collectCandidate o clk sm sid = some c ↔
      c.sessionID = sid ∧ sm.sessions.lookup c.sessionID = some c.session ∧
      c.stalePIDs = (sm.session c.session).stalePlayers (o.players c.sessionID) playerTimeout
        (clk.scan c.sessionID) ∧
      (0 < c.stalePIDs.length ∨ ((sm.session c.session).playerCount = 0 ∧
        sessionEmptyTimeout < clk.collect - (sm.session c.session).createdAt)) := by
  obtain ⟨csid, cr, cps⟩ := c
  unfold collectCandidate
  constructor
  · intro h
    cases hr : sm.sessions.lookup sid with
    | none => simp [hr] at h
    | some r =>
      simp only [hr] at h
      split at h
      · next hcond =>
        cases h
        exact ⟨rfl, hr, rfl, hcond⟩
      · cases h
  · intro h
    dsimp only at h
    obtain ⟨rfl, hr, rfl, hcond⟩ := h
    simp only [hr]
    exact if_pos hcond

theorem mem_reapCollect {o : ReapOrder} {clk : ReapClock} {sm : SessionManager} {c : ReapCandidate} :
    c ∈ reapCollect o clk sm ↔ sm.sessions.lookup c.sessionID = some c.session ∧
      c.stalePIDs = (sm.session c.session).stalePlayers (o.players c.sessionID) playerTimeout
        (clk.scan c.sessionID) ∧
      (0 < c.stalePIDs.length ∨ ((sm.session c.session).playerCount = 0 ∧
        sessionEmptyTimeout < clk.collect - (sm.session c.session).createdAt)) := by
  unfold reapCollect
  rw [List.mem_filterMap]
  constructor
  · rintro ⟨sid, -, h⟩
    exact (collectCandidate_eq_some.mp h).2
  · intro h
    refine ⟨c.sessionID, ?_, collectCandidate_eq_some.mpr ⟨rfl, h⟩⟩
    rw [o.sessions.mem_visit, ← AList.mem_keys]
    exact Table.mem_of_lookup h.1

theorem nodup_reapCollect_sessionID (o : ReapOrder) (clk : ReapClock) (sm : SessionManager) :
    ((reapCollect o clk sm).map ReapCandidate.sessionID).Nodup := by
  have hid : ∀ sid sid', sid' ∈ Option.map ReapCandidate.sessionID (collectCandidate o clk sm sid) →
      sid' = sid := by
    intro sid sid' h
    obtain ⟨c, hc, rfl⟩ := Option.map_eq_some_iff.mp h
    exact (collectCandidate_eq_some.mp hc).1
  unfold reapCollect
  rw [List.map_filterMap]
  refine (o.sessions.nodup_visit sm.sessions.keys_nodup).filterMap ?_
  intro sid sid' b hb hb'
  rw [← hid sid b hb, ← hid sid' b hb']

/-- Candidates found together are different session objects with duplicate-free lists. -/
structure Distinct (candidates : List ReapCandidate) : Prop where
  sessionID : (candidates.map ReapCandidate.sessionID).Nodup
  session : (candidates.map ReapCandidate.session).Nodup
  stalePIDs : ∀ c ∈ candidates, c.stalePIDs.Nodup

theorem Distinct.tail {c : ReapCandidate} {candidates : List ReapCandidate}
    (h : Distinct (c :: candidates)) : Distinct candidates where
  sessionID := (List.nodup_cons.mp h.sessionID).2
  session := (List.nodup_cons.mp h.session).2
  stalePIDs c' hc' := h.stalePIDs c' (List.mem_cons_of_mem c hc')

theorem Distinct.head_ne {c c' : ReapCandidate} {candidates : List ReapCandidate}
    (h : Distinct (c :: candidates)) (hc' : c' ∈ candidates) : c'.session ≠ c.session := fun he =>
  (List.nodup_cons.mp h.session).1 (List.mem_map.mpr ⟨c', hc', he⟩)

theorem distinct_reapCollect {sm : SessionManager} (hc : Consistent sm) (o : ReapOrder)
    (clk : ReapClock) : Distinct (reapCollect o clk sm) where
  sessionID := nodup_reapCollect_sessionID o clk sm
  session := by
    refine List.Nodup.map_on ?_ (List.Nodup.of_map _ (nodup_reapCollect_sessionID o clk sm))
    intro c hcm c' hcm' he
    obtain ⟨h, -, -⟩ := mem_reapCollect.mp hcm
    obtain ⟨h', -, -⟩ := mem_reapCollect.mp hcm'
    refine List.inj_on_of_nodup_map (nodup_reapCollect_sessionID o clk sm) hcm hcm' ?_
    exact hc.ref_inj h (he ▸ h')
  stalePIDs c hcm := by
    obtain ⟨-, h, -⟩ := mem_reapCollect.mp hcm
    rw [h]
    exact Session.nodup_stalePlayers _ _ _ _

/-! ## The closed form of phase 2 -/

/-- The listed players of `c` that phase 2 removes. -/
def reaped (clk : ReapClock) (sm : SessionManager) (c : ReapCandidate) : List PlayerID :=
  c.stalePIDs.filter fun p => (sm.session c.session).staleAt playerTimeout (clk.check c.sessionID p) p

/-- Whether phase 2 removes the session of `c`. -/
def emptied (clk : ReapClock) (sm : SessionManager) (c : ReapCandidate) : Bool :=
  decide (Table.len ((sm.session c.session).players.eraseAll (reaped clk sm c)) = 0 ∧
    sessionEmptyTimeout < clk.apply - (sm.session c.session).createdAt)

def reapedAll (clk : ReapClock) (sm : SessionManager) (candidates : List ReapCandidate) : List PlayerID :=
  candidates.flatMap (reaped clk sm)

def emptiedIDs (clk : ReapClock) (sm : SessionManager) (candidates : List ReapCandidate) :
    List SessionID :=
  (candidates.filter (emptied clk sm)).map ReapCandidate.sessionID

/-- Drop players from one session object, one after the other. -/
def dropPlayers (r : SessionRef) (ps : List PlayerID) (sm : SessionManager) : SessionManager :=
  ps.foldl (fun sm p => sm.dropPlayer r p) sm

section DropPlayers
variable (r : SessionRef) (ps : List PlayerID) (sm : SessionManager)

theorem dropPlayers_sessions : (sm.dropPlayers r ps).sessions = sm.sessions := by
  induction ps generalizing sm with
  | nil => rfl
  | cons p ps ih => exact ih (sm.dropPlayer r p)

theorem dropPlayers_next : (sm.dropPlayers r ps).heap.next = sm.heap.next := by
  induction ps generalizing sm with
  | nil => rfl
  | cons p ps ih => exact ih (sm.dropPlayer r p)

theorem dropPlayers_playerIndex :
    (sm.dropPlayers r ps).playerIndex = sm.playerIndex.eraseAll ps := by
  induction ps generalizing sm with
  | nil => rfl
  | cons p ps ih => exact ih (sm.dropPlayer r p)

theorem dropPlayers_activeSessions :
    (sm.dropPlayers r ps).metrics.activeSessions = sm.metrics.activeSessions := by
  induction ps generalizing sm with
  | nil => rfl
  | cons p ps ih => exact ih (sm.dropPlayer r p)

theorem dropPlayers_activePlayers :
    (sm.dropPlayers r ps).metrics.activePlayers = sm.metrics.activePlayers - ps.length := by
  induction ps generalizing sm with
  | nil => simp [dropPlayers]
  | cons p ps ih =>
    have h := ih (sm.dropPlayer r p)
    rw [dropPlayer_activePlayers] at h
    change ((sm.dropPlayer r p).dropPlayers r ps).metrics.activePlayers = _
    rw [h, List.length_cons]
    push_cast
    omega

theorem dropPlayers_session_self : (sm.dropPlayers r ps).session r =
    { sm.session r with players := (sm.session r).players.eraseAll ps } := by
  induction ps generalizing sm with
  | nil => rfl
  | cons p ps ih =>
    have h := ih (sm.dropPlayer r p)
    rw [dropPlayer_session_self] at h
    exact h

theorem dropPlayers_session_ne {r' : SessionRef} (h : r' ≠ r) :
    (sm.dropPlayers r ps).session r' = sm.session r' := by
  induction ps generalizing sm with
  | nil => rfl
  | cons p ps ih => exact (ih (sm.dropPlayer r p)).trans (dropPlayer_session_ne sm r p h)

end DropPlayers

theorem reapPlayer_eq (clk : ReapClock) (c : ReapCandidate) (st : ReapState) (p : PlayerID) :
    (reapPlayer clk c st p).sm = (if (st.sm.session c.session).staleAt playerTimeout
        (clk.check c.sessionID p) p then st.sm.dropPlayer c.session p else st.sm) ∧
    (reapPlayer clk c st p).removedPlayers = st.removedPlayers +
      (if (st.sm.session c.session).staleAt playerTimeout (clk.check c.sessionID p) p then 1 else 0) ∧
    (reapPlayer clk c st p).removedSessions = st.removedSessions := by
  have h := Session.removePlayerIfStale_eq p playerTimeout (clk.check c.sessionID p)
    (st.sm.session c.session)
  unfold reapPlayer
  cases hrm : (st.sm.session c.session).removePlayerIfStale p playerTimeout (clk.check c.sessionID p) with
  | mk removed rest =>
    obtain ⟨tcpConn, s⟩ := rest
    rw [hrm] at h
    obtain ⟨h1, h2⟩ := h
    cases removed with
    | true =>
      rw [← h1, if_pos rfl] at h2
      change s = _ at h2
      rw [← h1, h2]
      exact ⟨rfl, rfl, rfl⟩
    | false =>
      rw [← h1]
      exact ⟨rfl, rfl, rfl⟩

/-- Erasing one player does not change whether another one is stale. -/
theorem staleAt_dropPlayer_ne (sm : SessionManager) (r : SessionRef) {p q : PlayerID} (h : q ≠ p)
    (timeout : ℤ) (now : Instant) :
    ((sm.dropPlayer r p).session r).staleAt timeout now q = (sm.session r).staleAt timeout now q := by
  rw [dropPlayer_session_self]
  unfold Session.staleAt Session.isStale
  rw [AList.lookup_erase_ne h]

theorem reapPlayers_eq (clk : ReapClock) (c : ReapCandidate) (ps : List PlayerID) (hnd : ps.Nodup)
    (st : ReapState) :
    (ps.foldl (reapPlayer clk c) st).sm = st.sm.dropPlayers c.session (ps.filter fun p =>
        (st.sm.session c.session).staleAt playerTimeout (clk.check c.sessionID p) p) ∧
    (ps.foldl (reapPlayer clk c) st).removedPlayers = st.removedPlayers + (ps.filter fun p =>
        (st.sm.session c.session).staleAt playerTimeout (clk.check c.sessionID p) p).length ∧
    (ps.foldl (reapPlayer clk c) st).removedSessions = st.removedSessions := by
  induction ps generalizing st with
  | nil => exact ⟨rfl, rfl, rfl⟩
  | cons p ps ih =>
    obtain ⟨hp, hnd'⟩ := List.nodup_cons.mp hnd
    obtain ⟨h1, h2, h3⟩ := reapPlayer_eq clk c st p
    obtain ⟨i1, i2, i3⟩ := ih hnd' (reapPlayer clk c st p)
    rw [List.foldl_cons, List.filter_cons]
    by_cases hs : (st.sm.session c.session).staleAt playerTimeout (clk.check c.sessionID p) p = true
    · rw [if_pos hs] at h1 h2
      have hrest : ps.filter (fun q => ((reapPlayer clk c st p).sm.session c.session).staleAt
          playerTimeout (clk.check c.sessionID q) q) = ps.filter (fun q =>
          (st.sm.session c.session).staleAt playerTimeout (clk.check c.sessionID q) q) := by
        refine List.filter_congr ?_
        intro q hq
        have hne : q ≠ p := fun he => hp (he ▸ hq)
        rw [h1, staleAt_dropPlayer_ne _ _ hne]
      rw [hrest] at i1 i2
      rw [if_pos hs]
      refine ⟨?_, ?_, i3.trans h3⟩
      · rw [i1, h1]
        rfl
      · rw [i2, h2, List.length_cons]
        omega
    · rw [if_neg hs] at h1 h2
      rw [h1] at i1 i2
      rw [if_neg hs]
      exact ⟨i1, i2.trans (by rw [h2, Nat.add_zero]), i3.trans h3⟩

/-- One candidate of phase 2. -/
theorem reapSession_eq (clk : ReapClock) (st : ReapState) {c : ReapCandidate} (hnd : c.stalePIDs.Nodup) :
    (reapSession clk st c).sm = (if emptied clk st.sm c then
      addActiveSessions (-1) { st.sm.dropPlayers c.session (reaped clk st.sm c) with
        sessions := st.sm.sessions.erase c.sessionID }
      else st.sm.dropPlayers c.session (reaped clk st.sm c)) ∧
    (reapSession clk st c).removedPlayers = st.removedPlayers + (reaped clk st.sm c).length ∧
    (reapSession clk st c).removedSessions = st.removedSessions +
      (if emptied clk st.sm c then 1 else 0) := by
  obtain ⟨h1, h2, h3⟩ := reapPlayers_eq clk c c.stalePIDs hnd st
  change _ = st.sm.dropPlayers c.session (reaped clk st.sm c) at h1
  change _ = st.removedPlayers + (reaped clk st.sm c).length at h2
  unfold reapSession
  simp only [h1, dropPlayers_session_self, Session.playerCount, dropPlayers_sessions]
  by_cases he : emptied clk st.sm c = true
  · have he' := he
    simp only [emptied, decide_eq_true_eq] at he'
    rw [if_pos he', if_pos he]
    exact ⟨rfl, h2, by rw [if_pos he, h3]⟩
  · have he' := he
    simp only [emptied, decide_eq_true_eq] at he'
    rw [if_neg he', if_neg he]
    exact ⟨h1, h2, by rw [if_neg he, h3]; rfl⟩

/-- Every effect of phase 2, in terms of the state it starts in. -/
structure ReapEffect (clk : ReapClock) (candidates : List ReapCandidate) (sm : SessionManager)
    (st st' : ReapState) : Prop where
  playerIndex : st'.sm.playerIndex = st.sm.playerIndex.eraseAll (reapedAll clk sm candidates)
  sessions : st'.sm.sessions = st.sm.sessions.eraseAll (emptiedIDs clk sm candidates)
  activePlayers : st'.sm.metrics.activePlayers =
    st.sm.metrics.activePlayers - (reapedAll clk sm candidates).length
  activeSessions : st'.sm.metrics.activeSessions =
    st.sm.metrics.activeSessions - (emptiedIDs clk sm candidates).length
  next : st'.sm.heap.next = st.sm.heap.next
  session_mem : ∀ c ∈ candidates, st'.sm.session c.session = { st.sm.session c.session with
    players := (st.sm.session c.session).players.eraseAll (reaped clk sm c) }
  session_other : ∀ r, (∀ c ∈ candidates, r ≠ c.session) → st'.sm.session r = st.sm.session r
  removedPlayers : st'.removedPlayers = st.removedPlayers + (reapedAll clk sm candidates).length
  removedSessions : st'.removedSessions = st.removedSessions + (emptiedIDs clk sm candidates).length

theorem reaped_congr {clk : ReapClock} {sm sm' : SessionManager} {c : ReapCandidate}
    (h : sm'.session c.session = sm.session c.session) : reaped clk sm' c = reaped clk sm c := by
  unfold reaped
  rw [h]

theorem emptied_congr {clk : ReapClock} {sm sm' : SessionManager} {c : ReapCandidate}
    (h : sm'.session c.session = sm.session c.session) : emptied clk sm' c = emptied clk sm c := by
  unfold emptied
  rw [reaped_congr h, h]

theorem reapSession_session_ne (clk : ReapClock) (st : ReapState) {c : ReapCandidate}
    (hnd : c.stalePIDs.Nodup) {r : SessionRef} (h : r ≠ c.session) :
    (reapSession clk st c).sm.session r = st.sm.session r := by
  rw [(reapSession_eq clk st hnd).1]
  have hd := dropPlayers_session_ne c.session (reaped clk st.sm c) st.sm h
  split
  · exact hd
  · exact hd

/-- What one candidate's step does, decided by a state with the same session. -/
theorem reapEffect_reapSession (clk : ReapClock) (sm : SessionManager) {c : ReapCandidate}
    (hnd : c.stalePIDs.Nodup) (st : ReapState) (hst : st.sm.session c.session = sm.session c.session) :
    ReapEffect clk [c] sm st (reapSession clk st c) := by
  obtain ⟨h1, h2, h3⟩ := reapSession_eq clk st hnd
  rw [reaped_congr hst, emptied_congr hst] at h1
  rw [reaped_congr hst] at h2
  rw [emptied_congr hst] at h3
  have hall : reapedAll clk sm [c] = reaped clk sm c := List.append_nil _
  have hids : emptiedIDs clk sm [c] = if emptied clk sm c then [c.sessionID] else [] := by
    unfold emptiedIDs
    rw [List.filter_cons]
    split <;> rfl
  -- Whether the session entry goes too makes no difference to these three.
  have hindex : (reapSession clk st c).sm.playerIndex =
      (st.sm.dropPlayers c.session (reaped clk sm c)).playerIndex := by
    rw [h1]
    split <;> rfl
  have hheap : (reapSession clk st c).sm.heap = (st.sm.dropPlayers c.session (reaped clk sm c)).heap := by
    rw [h1]
    split <;> rfl
  have hactive : (reapSession clk st c).sm.metrics.activePlayers =
      (st.sm.dropPlayers c.session (reaped clk sm c)).metrics.activePlayers := by
    rw [h1]
    split <;> rfl
  refine ⟨?_, ?_, ?_, ?_, ?_, ?_, ?_, ?_, ?_⟩
  · rw [hindex, hall, dropPlayers_playerIndex]
  · rw [h1, hids]
    split
    · rfl
    · exact dropPlayers_sessions ..
  · rw [hactive, hall, dropPlayers_activePlayers]
  · have hsessions := dropPlayers_activeSessions c.session (reaped clk sm c) st.sm
    rw [h1, hids]
    split
    · simp only [addActiveSessions_activeSessions, hsessions, List.length_singleton]
      omega
    · simp only [hsessions, List.length_nil]
      omega
  · rw [hheap, dropPlayers_next]
  · rw [List.forall_mem_singleton, session, hheap]
    exact dropPlayers_session_self ..
  · exact fun r hr => reapSession_session_ne clk st hnd (hr c List.mem_cons_self)
  · rw [h2, hall]
  · rw [h3, hids]
    split <;> rfl

/-- Effects on different sessions add up. -/
theorem ReapEffect.append {clk : ReapClock} {sm : SessionManager} {cs cs' : List ReapCandidate}
    {st st' st'' : ReapState} (e : ReapEffect clk cs sm st st') (e' : ReapEffect clk cs' sm st' st'')
    (hne : ∀ c ∈ cs, ∀ c' ∈ cs', c.session ≠ c'.session) : ReapEffect clk (cs ++ cs') sm st st'' := by
  have hall : reapedAll clk sm (cs ++ cs') = reapedAll clk sm cs ++ reapedAll clk sm cs' :=
    List.flatMap_append
  have hids : emptiedIDs clk sm (cs ++ cs') = emptiedIDs clk sm cs ++ emptiedIDs clk sm cs' := by
    unfold emptiedIDs
    rw [List.filter_append, List.map_append]
  refine ⟨?_, ?_, ?_, ?_, ?_, ?_, ?_, ?_, ?_⟩
  · rw [e'.playerIndex, e.playerIndex, hall, Table.eraseAll_append]
  · rw [e'.sessions, e.sessions, hids, Table.eraseAll_append]
  · rw [e'.activePlayers, e.activePlayers, hall, List.length_append]
    omega
  · rw [e'.activeSessions, e.activeSessions, hids, List.length_append]
    omega
  · rw [e'.next, e.next]
  · intro c hc
    rcases List.mem_append.mp hc with hin | hin
    · rw [e'.session_other _ fun c' hc' => hne c hin c' hc']
      exact e.session_mem c hin
    · rw [e'.session_mem c hin, e.session_other _ fun c' hc' => (hne c' hc' c hin).symm]
  · intro r hr
    rw [e'.session_other r fun c hc => hr c (List.mem_append_right _ hc)]
    exact e.session_other r fun c hc => hr c (List.mem_append_left _ hc)
  · rw [e'.removedPlayers, e.removedPlayers, hall, List.length_append]
    omega
  · rw [e'.removedSessions, e.removedSessions, hids, List.length_append]
    omega

/-- The closed form, by induction over the candidates: what one candidate's step does to the other
candidates' sessions is nothing, so their share is decided by the starting state. -/
theorem reapEffect_foldl (clk : ReapClock) (sm : SessionManager) (candidates : List ReapCandidate)
    (hd : Distinct candidates) (st : ReapState)
    (hst : ∀ c ∈ candidates, st.sm.session c.session = sm.session c.session) :
    ReapEffect clk candidates sm st (candidates.foldl (reapSession clk) st) := by
  induction candidates generalizing st with
  | nil =>
    refine ⟨rfl, rfl, ?_, ?_, rfl, ?_, fun _ _ => rfl, rfl, rfl⟩
    · simp [reapedAll]
    · simp [emptiedIDs]
    · intro c hc
      cases hc
  | cons c rest ih =>
    have hnd := hd.stalePIDs c List.mem_cons_self
    have hrest : ∀ c' ∈ rest, (reapSession clk st c).sm.session c'.session = sm.session c'.session := by
      intro c' hc'
      rw [reapSession_session_ne clk st hnd (hd.head_ne hc')]
      exact hst c' (List.mem_cons_of_mem c hc')
    have e := reapEffect_reapSession clk sm hnd st (hst c List.mem_cons_self)
    have e' := ih hd.tail (reapSession clk st c) hrest
    refine e.append e' fun d hdm c' hc' => ?_
    rw [List.mem_singleton.mp hdm]
    exact (hd.head_ne hc').symm

/-- Phase 2 in closed form. -/
theorem reapEffect_reapApply (clk : ReapClock) {candidates : List ReapCandidate}
    (hd : Distinct candidates) (sm : SessionManager) :
    ReapEffect clk candidates sm { sm := sm } (reapApply clk candidates sm) :=
  reapEffect_foldl clk sm candidates hd { sm := sm } fun _ _ => rfl

end SessionManager
end SturmRelay
