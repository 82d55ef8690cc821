import SturmRelay.Foundations.Runs
import SturmRelay.Relay.Reaper

/-! # Stale snapshots

Between the reaper's two phases the tables may change in any way: `TableOp` is what the other
goroutines do meanwhile, including packet updates through any session pointer, live or not.

`PhaseTwoSafe` is what phase 2 owes the tables it finds. It holds exactly when every candidate
whose session object has left the map in between (`Live` fails) has nothing left to act on: no
listed player that is still in the object and still stale, and no empty object that is old enough
to go (`reapApply_safe_iff`). A pass without interruption finds every candidate live.

The failing case is ordinary: `DeleteSession` leaves the players in the object, so a player that
joined another session meanwhile is still in the deleted one, and phase 2 takes its new index entry
away (`reapApply_after_delete_unsafe`). -/

namespace SturmRelay
namespace SessionManager
set_option autoImplicit false

/-! ## What happens between the phases -/

inductive TableOp
  | call (c : Call)
  | updatePlayerAddr (r : SessionRef) (playerID : PlayerID) (addr : AddrPort) (now : Instant)
  | updatePlayerTCP (r : SessionRef) (playerID : PlayerID) (conn : Conn) (now : Instant)

inductive TableReply
  | result (res : Except SessionError Unit)
  | verdict (v : PacketVerdict) (evicted : Option Conn)

def tableStep (sm : SessionManager) : TableOp → SessionManager × TableReply
  | .call c => ((sm.call c).2, .result (sm.call c).1)
  | .updatePlayerAddr r playerID addr now =>
    ((sm.updatePlayerAddr r playerID addr now).2,
      .verdict (sm.updatePlayerAddr r playerID addr now).1 none)
  | .updatePlayerTCP r playerID conn now =>
    ((sm.updatePlayerTCP r playerID conn now).2.2,
      .verdict (sm.updatePlayerTCP r playerID conn now).1 (sm.updatePlayerTCP r playerID conn now).2.1)

theorem Consistent.tableStep {sm : SessionManager} (hc : Consistent sm) (op : TableOp) :
    Consistent (sm.tableStep op).1 := by
  cases op with
  | call c => exact hc.call c
  | updatePlayerAddr r playerID addr now =>
    exact hc.modifySession r (f := fun s => (s.updatePlayerAddr playerID addr now).2)
      (Session.sameMembers_updatePlayerAddr playerID addr now _)
  | updatePlayerTCP r playerID conn now =>
    exact hc.modifySession r (f := fun s => (s.updatePlayerTCP playerID conn now).2.2)
      (Session.sameMembers_updatePlayerTCP playerID conn now _)

theorem consistent_runState {sm : SessionManager} (hc : Consistent sm) (ops : List TableOp) :
    Consistent (runState tableStep sm ops) :=
  run_invariant (fun _ op h => h.tableStep op) hc ops

/-! ## Safety of phase 2 -/

/-- What phase 2 owes the tables: it deletes an index entry only if it still points to the
candidate's session, a session only if the map still holds the very object phase 1 found; the
counters drop by what left the tables; and the tables are consistent afterwards. -/
structure PhaseTwoSafe (candidates : List ReapCandidate) (sm sm' : SessionManager) : Prop where
  index_entry : ∀ p, sm'.playerIndex.lookup p ≠ sm.playerIndex.lookup p →
    sm'.playerIndex.lookup p = none ∧ ∃ c ∈ candidates, p ∈ c.stalePIDs ∧
      sm.playerIndex.lookup p = some c.sessionID ∧ sm.sessions.lookup c.sessionID = some c.session
  session_entry : ∀ sid, sm'.sessions.lookup sid ≠ sm.sessions.lookup sid →
    sm'.sessions.lookup sid = none ∧ ∃ c ∈ candidates, c.sessionID = sid ∧
      sm.sessions.lookup sid = some c.session
  players_once : sm.metrics.activePlayers - sm'.metrics.activePlayers =
    (sm.playerIndex.len : ℤ) - sm'.playerIndex.len
  sessions_once : sm.metrics.activeSessions - sm'.metrics.activeSessions =
    (sm.sessions.len : ℤ) - sm'.sessions.len
  consistent : Consistent sm'

/-- The map still holds the object phase 1 found. -/
def Live (sm : SessionManager) (c : ReapCandidate) : Prop :=
  sm.sessions.lookup c.sessionID = some c.session

/-- The candidate's object gives phase 2 nothing to do. -/
def NothingToReap (clk : ReapClock) (sm : SessionManager) (c : ReapCandidate) : Prop :=
  (∀ p ∈ c.stalePIDs,
    (sm.session c.session).staleAt playerTimeout (clk.check c.sessionID p) p = false) ∧
  ¬ ((sm.session c.session).playerCount = 0 ∧
    sessionEmptyTimeout < clk.apply - (sm.session c.session).createdAt)

section PhaseTwo
variable {clk : ReapClock} {sm : SessionManager} {candidates : List ReapCandidate}

theorem mem_reaped {c : ReapCandidate} {p : PlayerID} : p ∈ reaped clk sm c ↔ p ∈ c.stalePIDs ∧
    (sm.session c.session).staleAt playerTimeout (clk.check c.sessionID p) p = true :=
  List.mem_filter

theorem nothingToReap_iff {c : ReapCandidate} :
    NothingToReap clk sm c ↔ reaped clk sm c = [] ∧ emptied clk sm c = false := by
  have hnil : reaped clk sm c = [] ↔ ∀ p ∈ c.stalePIDs,
      (sm.session c.session).staleAt playerTimeout (clk.check c.sessionID p) p = false := by
    unfold reaped
    rw [List.filter_eq_nil_iff]
    simp only [Bool.not_eq_true]
  unfold NothingToReap
  rw [hnil]
  refine and_congr_right fun h => ?_
  unfold emptied
  rw [hnil.mpr h, Table.eraseAll_nil, decide_eq_false_iff_not]
  rfl

theorem mem_reapedAll {p : PlayerID} :
    p ∈ reapedAll clk sm candidates ↔ ∃ c ∈ candidates, p ∈ reaped clk sm c := List.mem_flatMap

theorem mem_emptiedIDs {sid : SessionID} : sid ∈ emptiedIDs clk sm candidates ↔
    ∃ c ∈ candidates, emptied clk sm c = true ∧ c.sessionID = sid := by
  simp only [emptiedIDs, List.mem_map, List.mem_filter, and_assoc]

/-- A player that phase 2 removes from a live candidate is where the index says it is. -/
theorem index_of_reaped (hc : Consistent sm) {c : ReapCandidate} (hl : Live sm c) {p : PlayerID}
    (hp : p ∈ reaped clk sm c) : sm.playerIndex.lookup p = some c.sessionID :=
  (hc.mem_iff hl p).mp (Session.staleAt_mem (mem_reaped.mp hp).2)

theorem lookup_reapApply_sessions (hd : Distinct candidates) (sid : SessionID) (r : SessionRef) :
    (reapApply clk candidates sm).sm.sessions.lookup sid = some r ↔
      sid ∉ emptiedIDs clk sm candidates ∧ sm.sessions.lookup sid = some r := by
  rw [(reapEffect_reapApply clk hd sm).sessions, Table.lookup_eraseAll]
  by_cases h : sid ∈ emptiedIDs clk sm candidates <;> simp [h]

theorem mem_of_mem_reapApply (hd : Distinct candidates) {r : SessionRef} {p : PlayerID}
    (hp : p ∈ ((reapApply clk candidates sm).sm.session r).players) : p ∈ (sm.session r).players := by
  have e := reapEffect_reapApply clk hd sm
  by_cases hcand : ∃ c ∈ candidates, r = c.session
  · obtain ⟨c, hcm, rfl⟩ := hcand
    rw [e.session_mem c hcm] at hp
    exact (Table.mem_eraseAll.mp hp).1
  · rw [e.session_other r fun c hcm he => hcand ⟨c, hcm, he⟩] at hp
    exact hp

/-! ### Phase 2 that acts on live candidates only -/

section ActsOnLive
variable (hlive : ∀ c ∈ candidates, Live sm c ∨ NothingToReap clk sm c)
include hlive

theorem live_of_reaped {c : ReapCandidate} (hcm : c ∈ candidates) {p : PlayerID}
    (hp : p ∈ reaped clk sm c) : Live sm c := by
  refine (hlive c hcm).resolve_right fun hn => ?_
  rw [(nothingToReap_iff.mp hn).1] at hp
  cases hp

theorem live_of_emptied {c : ReapCandidate} (hcm : c ∈ candidates) (he : emptied clk sm c = true) :
    Live sm c := by
  refine (hlive c hcm).resolve_right fun hn => ?_
  rw [(nothingToReap_iff.mp hn).2] at he
  cases he

theorem index_of_reapedAll (hc : Consistent sm) {p : PlayerID} (hp : p ∈ reapedAll clk sm candidates) :
    ∃ c ∈ candidates, p ∈ reaped clk sm c ∧ Live sm c ∧ sm.playerIndex.lookup p = some c.sessionID := by
  obtain ⟨c, hcm, hp'⟩ := mem_reapedAll.mp hp
  have hl := live_of_reaped hlive hcm hp'
  exact ⟨c, hcm, hp', hl, index_of_reaped hc hl hp'⟩

variable (hd : Distinct candidates)
include hd

theorem len_reapApply_sessions : (reapApply clk candidates sm).sm.sessions.len +
    (emptiedIDs clk sm candidates).length = sm.sessions.len := by
  rw [(reapEffect_reapApply clk hd sm).sessions]
  refine Table.len_eraseAll ?_ fun sid hsid => ?_
  · exact List.Nodup.sublist (List.Sublist.map _ List.filter_sublist) hd.sessionID
  · obtain ⟨c, hcm, he, rfl⟩ := mem_emptiedIDs.mp hsid
    exact Table.mem_of_lookup (live_of_emptied hlive hcm he)

/-- A session that phase 2 removes has no player left. -/
theorem notMem_emptiedIDs {sid : SessionID} {r : SessionRef} {p : PlayerID}
    (hr : sm.sessions.lookup sid = some r)
    (hp : p ∈ ((reapApply clk candidates sm).sm.session r).players) :
    sid ∉ emptiedIDs clk sm candidates := by
  intro hin
  obtain ⟨c, hcm, he, rfl⟩ := mem_emptiedIDs.mp hin
  have hl := live_of_emptied hlive hcm he
  rw [Live, hr] at hl
  have hrc := Option.some.inj hl
  subst hrc
  rw [(reapEffect_reapApply clk hd sm).session_mem c hcm] at hp
  simp only [emptied, decide_eq_true_eq] at he
  exact Table.notMem_of_len_zero he.1 p hp

variable (hc : Consistent sm)
include hc

/-- A player of a live session stays in it exactly if phase 2 does not reap it anywhere. -/
theorem mem_reapApply_iff {sid : SessionID} {r : SessionRef} {p : PlayerID}
    (hr : sm.sessions.lookup sid = some r) (hi : sm.playerIndex.lookup p = some sid) :
    p ∈ ((reapApply clk candidates sm).sm.session r).players ↔ p ∉ reapedAll clk sm candidates := by
  have e := reapEffect_reapApply clk hd sm
  have hp := (hc.mem_iff hr p).mpr hi
  have hsame : ∀ c ∈ candidates, p ∈ reaped clk sm c → c.session = r := by
    intro c hcm hp'
    have hl := live_of_reaped hlive hcm hp'
    have hidx := index_of_reaped hc hl hp'
    rw [hi] at hidx
    rw [Live, ← Option.some.inj hidx, hr] at hl
    exact (Option.some.inj hl).symm
  by_cases hcand : ∃ c ∈ candidates, r = c.session
  · obtain ⟨c, hcm, rfl⟩ := hcand
    rw [e.session_mem c hcm, Table.mem_eraseAll, mem_reapedAll]
    constructor
    · rintro ⟨-, hn⟩ ⟨c', hcm', hp'⟩
      have hcc : c' = c := List.inj_on_of_nodup_map hd.session hcm' hcm (hsame c' hcm' hp')
      exact hn (hcc ▸ hp')
    · exact fun hn => ⟨hp, fun hp' => hn ⟨c, hcm, hp'⟩⟩
  · rw [e.session_other r fun c hcm he => hcand ⟨c, hcm, he⟩, mem_reapedAll]
    refine ⟨fun _ => ?_, fun _ => hp⟩
    rintro ⟨c, hcm, hp'⟩
    exact hcand ⟨c, hcm, (hsame c hcm hp').symm⟩

theorem nodup_reapedAll : (reapedAll clk sm candidates).Nodup := by
  refine List.nodup_flatMap.mpr ⟨fun c hcm => (hd.stalePIDs c hcm).filter _, ?_⟩
  refine List.Pairwise.imp_of_mem ?_ (List.Nodup.of_map _ hd.sessionID)
  intro c c' hcm hcm' hne
  refine List.disjoint_left.mpr ?_
  intro p hp hp'
  have h1 := index_of_reaped hc (live_of_reaped hlive hcm hp) hp
  rw [index_of_reaped hc (live_of_reaped hlive hcm' hp') hp'] at h1
  exact hne (List.inj_on_of_nodup_map hd.sessionID hcm hcm' (Option.some.inj h1).symm)

theorem len_reapApply_playerIndex : (reapApply clk candidates sm).sm.playerIndex.len +
    (reapedAll clk sm candidates).length = sm.playerIndex.len := by
  rw [(reapEffect_reapApply clk hd sm).playerIndex]
  refine Table.len_eraseAll (nodup_reapedAll hlive hd hc) fun p hp => ?_
  obtain ⟨c, -, -, -, hi⟩ := index_of_reapedAll hlive hc hp
  exact Table.mem_of_lookup hi

theorem consistent_reapApply : Consistent (reapApply clk candidates sm).sm := by
  have e := reapEffect_reapApply clk hd sm
  refine ⟨?_, ?_, ?_, ?_, ?_⟩
  · intro p sid
    rw [e.playerIndex, Table.lookup_eraseAll]
    constructor
    · intro h
      split at h
      · cases h
      · next hn =>
        obtain ⟨r, hr, -⟩ := (hc.index_iff p sid).mp h
        have hp := (mem_reapApply_iff hlive hd hc hr h).mpr hn
        exact ⟨r, (lookup_reapApply_sessions hd sid r).mpr ⟨notMem_emptiedIDs hlive hd hr hp, hr⟩, hp⟩
    · rintro ⟨r, hr, hp⟩
      have hr' := ((lookup_reapApply_sessions hd sid r).mp hr).2
      have hi := (hc.mem_iff hr' p).mp (mem_of_mem_reapApply hd hp)
      rw [if_neg ((mem_reapApply_iff hlive hd hc hr' hi).mp hp), hi]
  · have hlen := len_reapApply_playerIndex hlive hd hc
    have hact := e.activePlayers
    have hold := hc.active_players
    simp only at hact
    omega
  · have hlen := len_reapApply_sessions hlive hd
    have hact := e.activeSessions
    have hold := hc.active_sessions
    simp only at hact
    omega
  · intro sid r hr
    rw [e.next]
    exact hc.ref_lt sid r ((lookup_reapApply_sessions hd sid r).mp hr).2
  · intro sid r hr
    have hid := hc.ref_id sid r ((lookup_reapApply_sessions hd sid r).mp hr).2
    by_cases hcand : ∃ c ∈ candidates, r = c.session
    · obtain ⟨c, hcm, rfl⟩ := hcand
      rw [e.session_mem c hcm]
      exact hid
    · rw [e.session_other r fun c hcm he => hcand ⟨c, hcm, he⟩]
      exact hid

theorem phaseTwoSafe_of_live : PhaseTwoSafe candidates sm (reapApply clk candidates sm).sm := by
  have e := reapEffect_reapApply clk hd sm
  refine ⟨?_, ?_, ?_, ?_, consistent_reapApply hlive hd hc⟩
  · intro p hne
    rw [e.playerIndex, Table.lookup_eraseAll] at hne ⊢
    by_cases hp : p ∈ reapedAll clk sm candidates
    · obtain ⟨c, hcm, hpc, hl, hi⟩ := index_of_reapedAll hlive hc hp
      exact ⟨if_pos hp, c, hcm, (mem_reaped.mp hpc).1, hi, hl⟩
    · exact absurd (if_neg hp) hne
  · intro sid hne
    rw [e.sessions, Table.lookup_eraseAll] at hne ⊢
    by_cases hs : sid ∈ emptiedIDs clk sm candidates
    · obtain ⟨c, hcm, he, rfl⟩ := mem_emptiedIDs.mp hs
      exact ⟨if_pos hs, c, hcm, rfl, live_of_emptied hlive hcm he⟩
    · exact absurd (if_neg hs) hne
  · have hlen := len_reapApply_playerIndex hlive hd hc
    have hact := e.activePlayers
    simp only at hact
    omega
  · have hlen := len_reapApply_sessions hlive hd
    have hact := e.activeSessions
    simp only at hact
    omega

end ActsOnLive

/-! ### Only phase 2 that acts on live candidates is safe -/

section Necessity
variable (hd : Distinct candidates) (hc : Consistent sm)
  (hsafe : PhaseTwoSafe candidates sm (reapApply clk candidates sm).sm)
include hd hc hsafe

theorem mem_playerIndex_of_safe {p : PlayerID} (hp : p ∈ reapedAll clk sm candidates) :
    p ∈ sm.playerIndex := by
  have e := reapEffect_reapApply clk hd sm
  have hlen : Table.len (sm.playerIndex.eraseAll (reapedAll clk sm candidates)) +
      (reapedAll clk sm candidates).length = sm.playerIndex.len := by
    have h1 := e.activePlayers
    have h2 := hsafe.consistent.active_players
    have h3 := hc.active_players
    rw [e.playerIndex] at h2
    simp only at h1 h2
    omega
  exact (Table.nodup_of_len_eraseAll hlen).2 p hp

theorem mem_sessions_of_safe {sid : SessionID} (hs : sid ∈ emptiedIDs clk sm candidates) :
    sid ∈ sm.sessions := by
  have e := reapEffect_reapApply clk hd sm
  have hlen : Table.len (sm.sessions.eraseAll (emptiedIDs clk sm candidates)) +
      (emptiedIDs clk sm candidates).length = sm.sessions.len := by
    have h1 := e.activeSessions
    have h2 := hsafe.consistent.active_sessions
    have h3 := hc.active_sessions
    rw [e.sessions] at h2
    simp only at h1 h2
    omega
  exact (Table.nodup_of_len_eraseAll hlen).2 sid hs

/-- A session that safe phase 2 removes is the candidate's own. -/
theorem live_of_safe_emptied {c : ReapCandidate} (hcm : c ∈ candidates)
    (he : emptied clk sm c = true) : Live sm c := by
  have hin : c.sessionID ∈ emptiedIDs clk sm candidates := mem_emptiedIDs.mpr ⟨c, hcm, he, rfl⟩
  obtain ⟨r, hr⟩ := Table.lookup_of_mem (mem_sessions_of_safe hd hc hsafe hin)
  have hgone : (reapApply clk candidates sm).sm.sessions.lookup c.sessionID = none := by
    rw [(reapEffect_reapApply clk hd sm).sessions, Table.lookup_eraseAll, if_pos hin]
  obtain ⟨-, c', hcm', hid, hl⟩ := hsafe.session_entry c.sessionID (by rw [hgone, hr]; simp)
  have hcc : c' = c := List.inj_on_of_nodup_map hd.sessionID hcm' hcm hid
  exact hcc ▸ hl

/-- A player that safe phase 2 removes is one of the live candidate's, provided no player is
listed under two candidates. -/
theorem live_of_safe_reaped
    (hlisted : ∀ c ∈ candidates, ∀ c' ∈ candidates, ∀ p ∈ c.stalePIDs, p ∈ c'.stalePIDs → c' = c)
    {c : ReapCandidate} (hcm : c ∈ candidates) {p : PlayerID} (hp : p ∈ reaped clk sm c) :
    Live sm c := by
  have hin : p ∈ reapedAll clk sm candidates := mem_reapedAll.mpr ⟨c, hcm, hp⟩
  obtain ⟨sid, hi⟩ := Table.lookup_of_mem (mem_playerIndex_of_safe hd hc hsafe hin)
  have hgone : (reapApply clk candidates sm).sm.playerIndex.lookup p = none := by
    rw [(reapEffect_reapApply clk hd sm).playerIndex, Table.lookup_eraseAll, if_pos hin]
  obtain ⟨-, c', hcm', hp', -, hl⟩ := hsafe.index_entry p (by rw [hgone, hi]; simp)
  have hcc : c' = c := hlisted c hcm c' hcm' p (mem_reaped.mp hp).1 hp'
  exact hcc ▸ hl

end Necessity

end PhaseTwo

/-- Every candidate of an uninterrupted pass is live. -/
theorem live_reapCollect (o : ReapOrder) (clk : ReapClock) (sm : SessionManager) :
    ∀ c ∈ reapCollect o clk sm, Live sm c ∨ NothingToReap clk sm c :=
  fun _ hcm => Or.inl (mem_reapCollect.mp hcm).1

theorem Consistent.reapStaleSessions {sm : SessionManager} (hc : Consistent sm) (o : ReapOrder)
    (clk : ReapClock) : Consistent (sm.reapStaleSessions o clk).sm :=
  consistent_reapApply (live_reapCollect o clk sm) (distinct_reapCollect hc o clk) hc

/-- Phase 1 lists a player under one candidate only. -/
theorem listed_once {sm : SessionManager} (hc : Consistent sm) (o : ReapOrder) (clk : ReapClock) :
    ∀ c ∈ reapCollect o clk sm, ∀ c' ∈ reapCollect o clk sm, ∀ p ∈ c.stalePIDs, p ∈ c'.stalePIDs →
      c' = c := by
  have hidx : ∀ c ∈ reapCollect o clk sm, ∀ p ∈ c.stalePIDs,
      sm.playerIndex.lookup p = some c.sessionID := by
    intro c hcm p hp
    obtain ⟨hr, hst, -⟩ := mem_reapCollect.mp hcm
    rw [hst, Session.mem_stalePlayers] at hp
    exact (hc.mem_iff hr p).mp (Session.staleAt_mem hp)
  intro c hcm c' hcm' p hp hp'
  have h := hidx c hcm p hp
  rw [hidx c' hcm' p hp'] at h
  exact List.inj_on_of_nodup_map (nodup_reapCollect_sessionID o clk sm) hcm' hcm (Option.some.inj h)

/-- Phase 2 is safe exactly when it finds nothing to do in a session object that has left the map
since phase 1. -/
theorem reapApply_safe_iff (sm : SessionManager) (hc : Consistent sm) (o : ReapOrder)
    (clk : ReapClock) (ops : List TableOp) :
    PhaseTwoSafe (reapCollect o clk sm) (runState tableStep sm ops)
        (reapApply clk (reapCollect o clk sm) (runState tableStep sm ops)).sm ↔
      ∀ c ∈ reapCollect o clk sm, Live (runState tableStep sm ops) c ∨
        NothingToReap clk (runState tableStep sm ops) c := by
  have hd := distinct_reapCollect hc o clk
  have hc' := consistent_runState hc ops
  constructor
  · intro hsafe c hcm
    by_cases hl : Live (runState tableStep sm ops) c
    · exact Or.inl hl
    · refine Or.inr (nothingToReap_iff.mpr ⟨?_, ?_⟩)
      · refine List.eq_nil_iff_forall_not_mem.mpr fun p hp => hl ?_
        exact live_of_safe_reaped hd hc' hsafe (listed_once hc o clk) hcm hp
      · refine Bool.eq_false_iff.mpr fun he => hl ?_
        exact live_of_safe_emptied hd hc' hsafe hcm he
  · exact fun hlive => phaseTwoSafe_of_live hlive hd hc'

/-! ### The failing case -/

/-- A pass at 200 s. -/
def lateClock : ReapClock := .still (200 * second)

/-- One session, created at 0 s, with one player that never sent a packet. -/
def silentGame : SessionManager :=
  runState tableStep newSessionManager
    [.call (.createSession "game1" 12 0), .call (.addPlayerToSession "game1" 1 "p1")]

/-- While the reaper waits for the lock the game is deleted and its player joins the next one. -/
def nextGame : List TableOp :=
  [.call (.deleteSession "game1"), .call (.createSession "game2" 12 (200 * second)),
    .call (.addPlayerToSession "game2" 1 "p1")]

/-- The player is in the new session but no longer in the index: it cannot be routed. -/
theorem reapApply_after_delete_unsafe : Consistent silentGame ∧
    ¬ PhaseTwoSafe (reapCollect .listed lateClock silentGame)
      (runState tableStep silentGame nextGame)
      (reapApply lateClock (reapCollect .listed lateClock silentGame)
        (runState tableStep silentGame nextGame)).sm := by
  refine ⟨consistent_runState consistent_new _, fun hsafe => ?_⟩
  have hmem := (hsafe.consistent.index_iff 1 "game2").mpr ⟨1, by decide, by decide⟩
  revert hmem
  decide

/-- While the reaper waits for the lock another game begins. -/
def playedMeanwhile : List TableOp :=
  [.call (.createSession "game2" 12 (200 * second)), .call (.addPlayerToSession "game2" 2 "p2")]

/-- Then the same pass is safe: it removes the silent player and nobody else. -/
theorem reapApply_safe_silentGame : PhaseTwoSafe (reapCollect .listed lateClock silentGame)
      (runState tableStep silentGame playedMeanwhile)
      (reapApply lateClock (reapCollect .listed lateClock silentGame)
        (runState tableStep silentGame playedMeanwhile)).sm ∧
    (reapApply lateClock (reapCollect .listed lateClock silentGame)
      (runState tableStep silentGame playedMeanwhile)).sm.playerIndex.entries = [⟨2, "game2"⟩] := by
  have hlive : ∀ c ∈ reapCollect .listed lateClock silentGame,
      (runState tableStep silentGame playedMeanwhile).sessions.lookup c.sessionID = some c.session := by decide
  exact ⟨(reapApply_safe_iff silentGame (consistent_runState consistent_new _) .listed lateClock
    playedMeanwhile).mpr fun c hcm => Or.inl (hlive c hcm), by decide⟩

end SessionManager
end SturmRelay
