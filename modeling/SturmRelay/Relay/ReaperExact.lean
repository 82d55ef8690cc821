import SturmRelay.Relay.ReaperSafety

/-! # What an uninterrupted reaper pass removes

`ReapStaleSessions` with nothing between its phases, on a consistent manager. Its clock readings come
in the order of the program: `now` of phase 1, one for each scan, `now` of phase 2, one for each check.
A player that is stale once stays stale, so whoever is stale at the first reading is still stale when
it is checked, and whoever is removed is stale at the last. -/

namespace SturmRelay
set_option autoImplicit false

theorem Session.staleAt_mono {s : Session} {timeout : ℤ} {now now' : Instant} {p : PlayerID}
    (h : s.staleAt timeout now p = true) (hle : now ≤ now') : s.staleAt timeout now' p = true := by
  unfold Session.staleAt at h ⊢
  cases hp : s.players.lookup p with
  | none => simp [hp] at h
  | some info =>
    simp only [hp] at h ⊢
    unfold Session.isStale at h ⊢
    cases hseen : info.lastSeen with
    | none =>
      rw [hseen] at h
      exact decide_eq_true ((of_decide_eq_true h).trans_le (Int.sub_le_sub_right hle s.createdAt))
    | some seen =>
      rw [hseen] at h
      exact decide_eq_true ((of_decide_eq_true h).trans_le (Int.sub_le_sub_right hle seen))

namespace SessionManager

/-- The readings of a pass come in this order, and none is later than `last`. -/
structure ReapClock.Nondecreasing (clk : ReapClock) (last : Instant) : Prop where
  scan : ∀ sid, clk.collect ≤ clk.scan sid
  apply : ∀ sid, clk.scan sid ≤ clk.apply
  check : ∀ sid p, clk.apply ≤ clk.check sid p
  last : ∀ sid p, clk.check sid p ≤ last

structure ReapsExactly (clk : ReapClock) (last : Instant) (sm : SessionManager) (st : ReapState) :
    Prop where
  stale_removed : ∀ sid r p, sm.sessions.lookup sid = some r →
    (sm.session r).staleAt playerTimeout clk.collect p = true →
    p ∉ st.sm.playerIndex ∧ p ∉ (st.sm.session r).players
  fresh_kept : ∀ sid r p, sm.sessions.lookup sid = some r → p ∈ (sm.session r).players →
    (sm.session r).staleAt playerTimeout last p = false →
    st.sm.playerIndex.lookup p = some sid ∧ st.sm.sessions.lookup sid = some r ∧
      (st.sm.session r).players.lookup p = (sm.session r).players.lookup p
  empty_removed : ∀ sid r, sm.sessions.lookup sid = some r → (st.sm.session r).playerCount = 0 →
    sessionEmptyTimeout < clk.collect - (sm.session r).createdAt →
    (sm.session r).playerCount = 0 ∨
      (∃ p, (sm.session r).staleAt playerTimeout clk.collect p = true) →
    sid ∉ st.sm.sessions
  removed_empty : ∀ sid r, sm.sessions.lookup sid = some r → sid ∉ st.sm.sessions →
    (st.sm.session r).playerCount = 0 ∧ sessionEmptyTimeout < last - (sm.session r).createdAt
  players_same : ∀ r p info, (st.sm.session r).players.lookup p = some info →
    (sm.session r).players.lookup p = some info
  sessions_same : ∀ r, (st.sm.session r).id = (sm.session r).id ∧
    (st.sm.session r).maxPlayers = (sm.session r).maxPlayers ∧
    (st.sm.session r).createdAt = (sm.session r).createdAt
  index_same : ∀ p sid, st.sm.playerIndex.lookup p = some sid → sm.playerIndex.lookup p = some sid
  table_same : ∀ sid r, st.sm.sessions.lookup sid = some r → sm.sessions.lookup sid = some r
  removedPlayers : (st.removedPlayers : ℤ) = sm.playerIndex.len - st.sm.playerIndex.len ∧
    (st.removedPlayers : ℤ) = sm.metrics.activePlayers - st.sm.metrics.activePlayers
  removedSessions : (st.removedSessions : ℤ) = sm.sessions.len - st.sm.sessions.len ∧
    (st.removedSessions : ℤ) = sm.metrics.activeSessions - st.sm.metrics.activeSessions

section Pass
variable {sm : SessionManager} {o : ReapOrder} {clk : ReapClock} {last : Instant}

/-- The candidate phase 1 makes of a session with a stale player, or of an old empty one. -/
theorem candidate_of_session {sid : SessionID} {r : SessionRef} (hr : sm.sessions.lookup sid = some r)
    (h : (∃ p, (sm.session r).staleAt playerTimeout (clk.scan sid) p = true) ∨
      (sm.session r).playerCount = 0 ∧ sessionEmptyTimeout < clk.collect - (sm.session r).createdAt) :
    ⟨sid, r, (sm.session r).stalePlayers (o.players sid) playerTimeout (clk.scan sid)⟩ ∈
      reapCollect o clk sm := by
  refine mem_reapCollect.mpr ⟨hr, rfl, h.imp_left ?_⟩
  rintro ⟨p, hp⟩
  exact List.length_pos_of_mem (Session.mem_stalePlayers.mpr hp)

/-- Of a session object only players go. -/
theorem session_reapApply {candidates : List ReapCandidate} (hd : Distinct candidates) (clk : ReapClock)
    (sm : SessionManager) (r : SessionRef) :
    ∃ ps, (reapApply clk candidates sm).sm.session r =
      { sm.session r with players := (sm.session r).players.eraseAll ps } := by
  have e := reapEffect_reapApply clk hd sm
  by_cases hcand : ∃ c ∈ candidates, r = c.session
  · obtain ⟨c, hcm, rfl⟩ := hcand
    exact ⟨_, e.session_mem c hcm⟩
  · exact ⟨[], e.session_other r fun c hcm he => hcand ⟨c, hcm, he⟩⟩

theorem lookup_of_reapApply {candidates : List ReapCandidate} (hd : Distinct candidates) {r : SessionRef}
    {p : PlayerID} {info : PlayerInfo}
    (hp : ((reapApply clk candidates sm).sm.session r).players.lookup p = some info) :
    (sm.session r).players.lookup p = some info := by
  obtain ⟨ps, hps⟩ := session_reapApply hd clk sm r
  rw [hps, Table.lookup_eraseAll] at hp
  split at hp
  · cases hp
  · exact hp

variable (hclk : clk.Nondecreasing last)
include hclk

theorem reapedAll_of_stale {sid : SessionID} {r : SessionRef} (hr : sm.sessions.lookup sid = some r)
    {p : PlayerID} (hp : (sm.session r).staleAt playerTimeout clk.collect p = true) :
    p ∈ reapedAll clk sm (reapCollect o clk sm) := by
  have hscan := Session.staleAt_mono hp (hclk.scan sid)
  have hcheck := Session.staleAt_mono hscan ((hclk.apply sid).trans (hclk.check sid p))
  refine mem_reapedAll.mpr ⟨_, candidate_of_session hr (Or.inl ⟨p, hscan⟩), mem_reaped.mpr ⟨?_, hcheck⟩⟩
  exact Session.mem_stalePlayers.mpr hscan

theorem stale_of_reapedAll (hc : Consistent sm) {sid : SessionID} {r : SessionRef}
    (hr : sm.sessions.lookup sid = some r) {p : PlayerID} (hi : sm.playerIndex.lookup p = some sid)
    (hp : p ∈ reapedAll clk sm (reapCollect o clk sm)) :
    (sm.session r).staleAt playerTimeout last p = true := by
  obtain ⟨c, -, hpc, hl, hic⟩ := index_of_reapedAll (live_reapCollect o clk sm) hc hp
  rw [hi] at hic
  obtain rfl : sid = c.sessionID := Option.some.inj hic
  rw [Live, hr] at hl
  obtain rfl : r = c.session := Option.some.inj hl
  exact Session.staleAt_mono (mem_reaped.mp hpc).2 (hclk.last _ p)

theorem emptied_of_old (hc : Consistent sm) {sid : SessionID} {r : SessionRef}
    (hr : sm.sessions.lookup sid = some r)
    (hempty : ((sm.reapStaleSessions o clk).sm.session r).playerCount = 0)
    (hold : sessionEmptyTimeout < clk.collect - (sm.session r).createdAt)
    (h : (sm.session r).playerCount = 0 ∨
      ∃ p, (sm.session r).staleAt playerTimeout clk.collect p = true) :
    sid ∈ emptiedIDs clk sm (reapCollect o clk sm) := by
  have hcause := h.symm.imp
    (fun ⟨p, hp⟩ => Exists.intro p (Session.staleAt_mono hp (hclk.scan sid)))
    fun hzero => And.intro hzero hold
  have hcand : _ ∈ reapCollect o clk sm := candidate_of_session hr hcause
  refine mem_emptiedIDs.mpr ⟨_, hcand, decide_eq_true ⟨?_, ?_⟩, rfl⟩
  · have hsession := (reapEffect_reapApply clk (distinct_reapCollect hc o clk) sm).session_mem _ hcand
    rw [reapStaleSessions, hsession] at hempty
    exact hempty
  · exact hold.trans_le (Int.sub_le_sub_right ((hclk.scan sid).trans (hclk.apply sid)) _)

/-- Whoever is not reaped keeps the session and every field. -/
theorem kept_of_fresh (hc : Consistent sm) {sid : SessionID} {r : SessionRef}
    (hr : sm.sessions.lookup sid = some r) {p : PlayerID} (hmem : p ∈ (sm.session r).players)
    (hfresh : (sm.session r).staleAt playerTimeout last p = false) :
    (sm.reapStaleSessions o clk).sm.playerIndex.lookup p = some sid ∧
      (sm.reapStaleSessions o clk).sm.sessions.lookup sid = some r ∧
      ((sm.reapStaleSessions o clk).sm.session r).players.lookup p = (sm.session r).players.lookup p := by
  have hd := distinct_reapCollect hc o clk
  have hlive := live_reapCollect o clk sm
  have hi := (hc.mem_iff hr p).mp hmem
  have hout : p ∉ reapedAll clk sm (reapCollect o clk sm) := by
    intro hin
    rw [stale_of_reapedAll hclk hc hr hi hin] at hfresh
    cases hfresh
  have hstays := (mem_reapApply_iff hlive hd hc hr hi).mpr hout
  refine ⟨?_, ?_, ?_⟩
  · rw [reapStaleSessions, (reapEffect_reapApply clk hd sm).playerIndex, Table.lookup_eraseAll,
      if_neg hout, hi]
  · exact (lookup_reapApply_sessions hd sid r).mpr ⟨notMem_emptiedIDs hlive hd hr hstays, hr⟩
  · obtain ⟨info, hinfo⟩ := Table.lookup_of_mem hstays
    rw [reapStaleSessions, hinfo, lookup_of_reapApply hd hinfo]

theorem empty_of_removed (hc : Consistent sm) {sid : SessionID} {r : SessionRef}
    (hr : sm.sessions.lookup sid = some r) (hgone : sid ∉ (sm.reapStaleSessions o clk).sm.sessions) :
    ((sm.reapStaleSessions o clk).sm.session r).playerCount = 0 ∧
      sessionEmptyTimeout < last - (sm.session r).createdAt := by
  have hd := distinct_reapCollect hc o clk
  have hin : sid ∈ emptiedIDs clk sm (reapCollect o clk sm) := by
    by_contra hout
    exact hgone (Table.mem_of_lookup ((lookup_reapApply_sessions hd sid r).mpr ⟨hout, hr⟩))
  obtain ⟨c, hcm, hemptied, rfl⟩ := mem_emptiedIDs.mp hin
  obtain rfl : c.session = r := Option.some.inj ((mem_reapCollect.mp hcm).1.symm.trans hr)
  obtain ⟨hzero, hold⟩ := of_decide_eq_true hemptied
  refine ⟨?_, ?_⟩
  · rw [reapStaleSessions, (reapEffect_reapApply clk hd sm).session_mem c hcm]
    exact hzero
  · have hlate := (hclk.check c.sessionID 0).trans (hclk.last c.sessionID 0)
    exact hold.trans_le (Int.sub_le_sub_right hlate _)

end Pass

theorem reaps_exactly (sm : SessionManager) (hc : Consistent sm) (o : ReapOrder) (clk : ReapClock)
    (last : Instant) (hclk : clk.Nondecreasing last) :
    ReapsExactly clk last sm (sm.reapStaleSessions o clk) := by
  have hd := distinct_reapCollect hc o clk
  have hlive := live_reapCollect o clk sm
  have e := reapEffect_reapApply clk hd sm
  refine ⟨?_, fun sid r p hr hmem hfresh => kept_of_fresh hclk hc hr hmem hfresh, ?_,
    fun sid r hr hgone => empty_of_removed hclk hc hr hgone,
    fun r p info hp => lookup_of_reapApply hd hp, ?_, ?_,
    fun sid r hr => ((lookup_reapApply_sessions hd sid r).mp hr).2, ?_, ?_⟩
  · intro sid r p hr hp
    have hi := (hc.mem_iff hr p).mp (Session.staleAt_mem hp)
    have hin : p ∈ reapedAll clk sm (reapCollect o clk sm) := reapedAll_of_stale hclk hr hp
    refine ⟨?_, fun hmem => (mem_reapApply_iff hlive hd hc hr hi).mp hmem hin⟩
    rw [reapStaleSessions, e.playerIndex, Table.mem_eraseAll]
    exact fun hmem => hmem.2 hin
  · intro sid r hr hempty hold hcause
    have hin := emptied_of_old hclk hc hr hempty hold hcause
    rw [reapStaleSessions, e.sessions, Table.mem_eraseAll]
    exact fun hmem => hmem.2 hin
  · intro r
    obtain ⟨ps, hps⟩ := session_reapApply hd clk sm r
    rw [reapStaleSessions, hps]
    exact ⟨rfl, rfl, rfl⟩
  · intro p sid hp
    rw [reapStaleSessions, e.playerIndex, Table.lookup_eraseAll] at hp
    split at hp
    · cases hp
    · exact hp
  · have hlen := len_reapApply_playerIndex hlive hd hc
    have hcount := e.removedPlayers
    have hactive := e.activePlayers
    rw [reapStaleSessions]
    dsimp only at hcount hactive
    omega
  · have hlen := len_reapApply_sessions hlive hd
    have hcount := e.removedSessions
    have hactive := e.activeSessions
    rw [reapStaleSessions]
    dsimp only at hcount hactive
    omega

/-- The silent player goes, and with it the session that is now empty. -/
theorem silentGame_reaped : Consistent silentGame ∧ lateClock.Nondecreasing (200 * second) ∧
    ReapsExactly lateClock (200 * second) silentGame (silentGame.reapStaleSessions .listed lateClock) ∧
    (silentGame.reapStaleSessions .listed lateClock).removedPlayers = 1 ∧
    (silentGame.reapStaleSessions .listed lateClock).removedSessions = 1 := by
  have hc : Consistent silentGame := consistent_runState consistent_new _
  have hclk : lateClock.Nondecreasing (200 * second) :=
    ⟨fun _ => le_rfl, fun _ => le_rfl, fun _ _ => le_rfl, fun _ _ => le_rfl⟩
  exact ⟨hc, hclk, reaps_exactly silentGame hc .listed lateClock (200 * second) hclk,
    by decide, by decide⟩

end SessionManager
end SturmRelay
