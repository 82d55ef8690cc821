import SturmRelay.Relay.HTTPAPI
import SturmRelay.Relay.ReaperSafety

/-! # The representation invariant of the session manager

Runs of the whole manager: HTTP requests, packet updates through any session pointer, and reaper
passes with nothing between their phases. `Invariant` is what holds in every state such a run
reaches from the empty manager (`invariant_runState`): the two maps agree, the counters count, and
every limit is kept.

`Consistent` is preserved whatever the arguments; the limits also need what the handlers check. -/

namespace SturmRelay
namespace SessionManager
set_option autoImplicit false

inductive ServerEvent
  | http (route : Route) (method : Method) (body : Body) (now : Instant)
  | updatePlayerAddr (r : SessionRef) (playerID : PlayerID) (addr : AddrPort) (now : Instant)
  | updatePlayerTCP (r : SessionRef) (playerID : PlayerID) (conn : Conn) (now : Instant)
  | reap (o : ReapOrder) (clk : ReapClock)

inductive ServerReply
  | response (res : Response)
  | verdict (v : PacketVerdict) (evicted : Option Conn)
  | reaped (players sessions : ℕ) (closed : List Conn)

def serverStep (sm : SessionManager) : ServerEvent → SessionManager × ServerReply
  | .http route method body now =>
    ((sm.serveMux route method body now).2, .response (sm.serveMux route method body now).1)
  | .updatePlayerAddr r playerID addr now =>
    ((sm.updatePlayerAddr r playerID addr now).2,
      .verdict (sm.updatePlayerAddr r playerID addr now).1 none)
  | .updatePlayerTCP r playerID conn now =>
    ((sm.updatePlayerTCP r playerID conn now).2.2,
      .verdict (sm.updatePlayerTCP r playerID conn now).1 (sm.updatePlayerTCP r playerID conn now).2.1)
  | .reap o clk =>
    let st := sm.reapStaleSessions o clk
    (st.sm, .reaped st.removedPlayers st.removedSessions st.closed)

/-- The number of players of the session under a key. -/
def playersIn (sm : SessionManager) (sid : SessionID) : ℕ :=
  match sm.sessions.lookup sid with
  | none => 0
  | some r => (sm.session r).playerCount

/-- What holds of every reachable manager. -/
structure Invariant (sm : SessionManager) : Prop where
  index_iff : ∀ p sid, sm.playerIndex.lookup p = some sid ↔
    ∃ r, sm.sessions.lookup sid = some r ∧ p ∈ (sm.session r).players
  one_session : ∀ p sid sid' r r', sm.sessions.lookup sid = some r → sm.sessions.lookup sid' = some r' →
    p ∈ (sm.session r).players → p ∈ (sm.session r').players → sid = sid'
  find_indexed : ∀ p ∈ sm.playerIndex, ∃ r, sm.findSessionByPlayer p = some r ∧
    p ∈ (sm.session r).players
  active_players : sm.metrics.activePlayers = sm.playerIndex.len
  players_sum : sm.playerIndex.len = (sm.sessions.keys.map sm.playersIn).sum
  active_sessions : sm.metrics.activeSessions = sm.sessions.len
  session_limits : ∀ sid r, sm.sessions.lookup sid = some r →
    1 ≤ (sm.session r).maxPlayers ∧ (sm.session r).maxPlayers ≤ 32 ∧
      ((sm.session r).playerCount : ℤ) ≤ (sm.session r).maxPlayers
  sessions_le : sm.sessions.len ≤ maxTotalSessions
  players_le : sm.playerIndex.len ≤ maxTotalPlayers

/-! ## The limits -/

/-- A session's own limits. -/
def Fits (s : Session) : Prop :=
  1 ≤ s.maxPlayers ∧ s.maxPlayers ≤ maxSessionPlayers ∧ (s.players.len : ℤ) ≤ s.maxPlayers

structure WithinLimits (sm : SessionManager) : Prop where
  fits : LiveAll (fun _ s => Fits s) sm
  sessions_le : sm.sessions.len ≤ maxTotalSessions
  players_le : sm.playerIndex.len ≤ maxTotalPlayers

theorem Fits.sameMembers {s s' : Session} (h : Fits s) (hs : Session.SameMembers s s') : Fits s' := by
  unfold Fits
  rw [hs.maxPlayers, hs.len]
  exact h

theorem Fits.of_len_le {s : Session} (h : Fits s) {players : Table PlayerID PlayerInfo}
    (hlen : players.len ≤ s.players.len) : Fits { s with players := players } := by
  obtain ⟨h1, h2, h3⟩ := h
  exact ⟨h1, h2, by dsimp only; omega⟩

theorem fits_newSession {id : SessionID} {maxPlayers : ℤ} (h1 : 1 ≤ maxPlayers)
    (h2 : maxPlayers ≤ maxSessionPlayers) (now : Instant) : Fits (newSession id maxPlayers now) := by
  refine ⟨h1, h2, ?_⟩
  simp only [newSession, Table.len_empty]
  omega

namespace WithinLimits
variable {sm : SessionManager}

theorem modifySession (h : WithinLimits sm) (r : SessionRef) {f : Session → Session}
    (hf : Session.SameMembers (sm.session r) (f (sm.session r))) : WithinLimits (sm.modifySession r f) :=
  ⟨h.fits.modifySession r fun _ hs => hs.sameMembers hf, h.sessions_le, h.players_le⟩

theorem putSession (h : WithinLimits sm) (hc : Consistent sm) {id : SessionID} (hid : id ∉ sm.sessions)
    (hlen : sm.sessions.len < maxTotalSessions) {maxPlayers : ℤ} (h1 : 1 ≤ maxPlayers)
    (h2 : maxPlayers ≤ maxSessionPlayers) (now : Instant) :
    WithinLimits (sm.putSession id maxPlayers now) := by
  refine ⟨h.fits.insertSession hc.ref_lt (fits_newSession h1 h2 now), ?_, h.players_le⟩
  change Table.len (sm.sessions.insert id sm.heap.next) ≤ maxTotalSessions
  rw [Table.len_insert_of_notMem hid]
  exact hlen

theorem dropSession (h : WithinLimits sm) (hc : Consistent sm) {id : SessionID} {r : SessionRef}
    (hr : sm.sessions.lookup id = some r) : WithinLimits (sm.dropSession id r) := by
  have hcd := hc.dropSession hr
  refine ⟨h.fits.eraseSession id, ?_, ?_⟩
  · have hlen := Table.len_erase_of_mem (Table.mem_of_lookup hr)
    have hle := h.sessions_le
    change Table.len (sm.sessions.erase id) ≤ maxTotalSessions
    omega
  · have h1 := hcd.active_players
    have h2 := hc.active_players
    have hle := h.players_le
    change sm.metrics.activePlayers + -((sm.session r).playerIDs.length : ℤ) = _ at h1
    omega

theorem dropPlayer (h : WithinLimits sm) {r : SessionRef} {p : PlayerID}
    (hp : p ∈ (sm.session r).players) (hi : p ∈ sm.playerIndex) : WithinLimits (sm.dropPlayer r p) := by
  refine ⟨h.fits.modifySession r (f := fun s => (s.removePlayer p).2) ?_, h.sessions_le, ?_⟩
  · intro _ hs
    have hlen := Table.len_erase_of_mem hp
    exact hs.of_len_le (by omega)
  · have hlen := Table.len_erase_of_mem hi
    have hle := h.players_le
    rw [dropPlayer_playerIndex]
    omega

theorem putPlayer (h : WithinLimits sm) {r : SessionRef} {sid : SessionID} {p : PlayerID}
    (hp : p ∉ (sm.session r).players) (hi : p ∉ sm.playerIndex)
    (hroom : ((sm.session r).players.len : ℤ) < (sm.session r).maxPlayers)
    (hcap : sm.playerIndex.len < maxTotalPlayers) (info : PlayerInfo) :
    WithinLimits (sm.putPlayer r sid p info) := by
  refine ⟨h.fits.modifySession r (f := fun s => { s with players := s.players.insert p info }) ?_,
    h.sessions_le, ?_⟩
  · rintro _ ⟨h1, h2, -⟩
    refine ⟨h1, h2, ?_⟩
    rw [Table.len_insert_of_notMem hp]
    push_cast
    omega
  · rw [putPlayer_playerIndex, Table.len_insert_of_notMem hi]
    exact hcap

/-- The player of a migration has left the index when it is admitted, so there is room for it. -/
theorem migrate (h : WithinLimits sm) (hc : Consistent sm) {sid sid' : SessionID} {p : PlayerID}
    {r old : SessionRef} (hr : sm.sessions.lookup sid = some r)
    (hi : sm.playerIndex.lookup p = some sid') (hs : sid' ≠ sid)
    (hold : sm.sessions.lookup sid' = some old) (hp : p ∈ (sm.session old).players)
    (hroom : ((sm.session r).players.len : ℤ) < (sm.session r).maxPlayers) (info : PlayerInfo) :
    WithinLimits ((sm.dropPlayer old p).putPlayer r sid p info) := by
  have hne : r ≠ old := by
    rintro rfl
    exact hs (hc.ref_inj hold hr)
  have hsame := dropPlayer_session_ne sm old p hne
  have hnot : p ∉ (sm.session r).players := by
    rw [hc.mem_iff hr p, hi]
    exact fun he => hs (Option.some.inj he)
  have hmem := Table.mem_of_lookup hi
  refine (h.dropPlayer hp hmem).putPlayer (by rw [hsame]; exact hnot) ?_ (by rw [hsame]; exact hroom) ?_ _
  · rw [dropPlayer_playerIndex, AList.mem_erase]
    exact fun hin => hin.1 rfl
  · have hlen := Table.len_erase_of_mem hmem
    have hle := h.players_le
    rw [dropPlayer_playerIndex]
    omega

theorem outcome (h : WithinLimits sm) (hc : Consistent sm) {c : Call} (hadm : c.Admissible)
    {res : Except SessionError Unit} {sm' : SessionManager} (ho : CallOutcome sm c res sm') :
    WithinLimits sm' := by
  cases ho with
  | failed e => exact h
  | created hid hlen => exact h.putSession hc hid hlen hadm.2.1 hadm.2.2 _
  | deleted hr => exact h.dropSession hc hr
  | rejoined => exact h.modifySession _ (Session.sameMembers_resetPlayerTransport _ _)
  | joined hr hi hcap hroom =>
    refine h.putPlayer ?_ (AList.lookup_eq_none.mp hi) hroom hcap _
    rw [hc.mem_iff hr, hi]
    exact fun he => nomatch he
  | refused e hi _ hp => exact h.dropPlayer hp (Table.mem_of_lookup hi)
  | migrated hr hi hs hold hp hroom => exact h.migrate hc hr hi hs hold hp hroom _
  | left hr hp => exact h.dropPlayer hp (Table.mem_of_lookup ((hc.mem_iff hr _).mp hp))

theorem call (h : WithinLimits sm) (hc : Consistent sm) {c : Call} (hadm : c.Admissible) :
    WithinLimits (sm.call c).2 := h.outcome hc hadm (call_outcome hc c)

theorem reapApply (h : WithinLimits sm) (hc : Consistent sm) {clk : ReapClock}
    {candidates : List ReapCandidate} (hd : Distinct candidates)
    (hlive : ∀ c ∈ candidates, Live sm c ∨ NothingToReap clk sm c) :
    WithinLimits (reapApply clk candidates sm).sm := by
  have e := reapEffect_reapApply clk hd sm
  refine ⟨?_, ?_, ?_⟩
  · intro sid r hr
    have hfit := h.fits sid r ((lookup_reapApply_sessions hd sid r).mp hr).2
    by_cases hcand : ∃ c ∈ candidates, r = c.session
    · obtain ⟨c, hcm, rfl⟩ := hcand
      rw [e.session_mem c hcm]
      exact hfit.of_len_le (Table.len_eraseAll_le _ _)
    · rw [e.session_other r fun c hcm he => hcand ⟨c, hcm, he⟩]
      exact hfit
  · have hlen := len_reapApply_sessions hlive hd
    have hle := h.sessions_le
    omega
  · have hlen := len_reapApply_playerIndex hlive hd hc
    have hle := h.players_le
    omega

end WithinLimits

/-! ## Every reachable state -/

/-- The inductive form of the invariant. -/
structure Sound (sm : SessionManager) : Prop where
  consistent : Consistent sm
  limits : WithinLimits sm

theorem sound_new : Sound newSessionManager := by
  refine ⟨consistent_new, ?_, ?_, ?_⟩
  · intro sid r hr
    simp [newSessionManager] at hr
  · exact Nat.zero_le _
  · exact Nat.zero_le _

theorem Sound.serverStep {sm : SessionManager} (h : Sound sm) (ev : ServerEvent) :
    Sound (sm.serverStep ev).1 := by
  obtain ⟨hc, hl⟩ := h
  cases ev with
  | http route method body now =>
    change Sound (sm.serveMux route method body now).2
    rcases serveMux_effect route method body now sm with heq | ⟨c, hadm, heq⟩
    · rw [heq]
      exact ⟨hc, hl⟩
    · rw [heq]
      exact ⟨hc.call c, hl.call hc hadm⟩
  | updatePlayerAddr r p addr now =>
    have hs := Session.sameMembers_updatePlayerAddr p addr now (sm.session r)
    exact ⟨hc.modifySession r (f := fun s => (s.updatePlayerAddr p addr now).2) hs,
      hl.modifySession r (f := fun s => (s.updatePlayerAddr p addr now).2) hs⟩
  | updatePlayerTCP r p conn now =>
    have hs := Session.sameMembers_updatePlayerTCP p conn now (sm.session r)
    exact ⟨hc.modifySession r (f := fun s => (s.updatePlayerTCP p conn now).2.2) hs,
      hl.modifySession r (f := fun s => (s.updatePlayerTCP p conn now).2.2) hs⟩
  | reap o clk =>
    exact ⟨hc.reapStaleSessions o clk,
      hl.reapApply hc (distinct_reapCollect hc o clk) (live_reapCollect o clk sm)⟩

theorem Consistent.players_sum {sm : SessionManager} (hc : Consistent sm) :
    sm.playerIndex.len = (sm.sessions.keys.map sm.playersIn).sum := by
  let part : SessionID → List PlayerID := fun sid =>
    match sm.sessions.lookup sid with
    | none => []
    | some r => (sm.session r).players.keys
  have hlen : ∀ sid, (part sid).length = sm.playersIn sid := by
    intro sid
    simp only [part, playersIn]
    split <;> rfl
  rw [Table.len_eq_sum_fibres sm.playerIndex sm.sessions.keys part sm.sessions.keys_nodup]
  · simp only [hlen]
  · intro sid _
    simp only [part]
    split
    · exact List.nodup_nil
    · exact AList.keys_nodup _
  · intro p sid
    rw [hc.index_iff]
    constructor
    · rintro ⟨r, hr, hp⟩
      refine ⟨AList.mem_keys.mp (Table.mem_of_lookup hr), ?_⟩
      simp only [part, hr]
      exact AList.mem_keys.mp hp
    · rintro ⟨hsid, hp⟩
      obtain ⟨r, hr⟩ := Table.lookup_of_mem (AList.mem_keys.mpr hsid)
      simp only [part, hr] at hp
      exact ⟨r, hr, AList.mem_keys.mpr hp⟩

theorem Sound.invariant {sm : SessionManager} (h : Sound sm) : Invariant sm where
  index_iff := h.consistent.index_iff
  one_session p sid sid' r r' hr hr' hp hp' := by
    rw [h.consistent.mem_iff hr p] at hp
    rw [h.consistent.mem_iff hr' p, hp] at hp'
    exact Option.some.inj hp'
  find_indexed p hp := by
    obtain ⟨sid, hi⟩ := Table.lookup_of_mem hp
    obtain ⟨r, hf, -, hm⟩ := h.consistent.findSessionByPlayer_of_index hi
    exact ⟨r, hf, hm⟩
  active_players := h.consistent.active_players
  players_sum := h.consistent.players_sum
  active_sessions := h.consistent.active_sessions
  session_limits := h.limits.fits
  sessions_le := h.limits.sessions_le
  players_le := h.limits.players_le

/-- Every run from the empty manager, whatever the requests, packets and passes in it, keeps the
representation invariant. -/
theorem invariant_runState (events : List ServerEvent) :
    Invariant (runState serverStep newSessionManager events) :=
  (run_invariant (fun _ ev h => h.serverStep ev) sound_new events).invariant

end SessionManager
end SturmRelay
