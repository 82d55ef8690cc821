import SturmRelay.Relay.SessionManager

/-! # Consistency of the manager's tables

`Consistent` ties the two maps and the two counters together: the index sends a player to a
session exactly when that session exists and has the player, and the counters are the lengths of
the maps. It also says what the heap needs: every session in the map has been allocated and
carries its own key as its ID, so two keys never share a session object.

Every operation is a composition of four edits (a new empty session, a deleted session, a player
dropped from a session, a player put into a session), and an update of players in place changes
nothing that `Consistent` looks at, whichever object it is applied to. -/

namespace SturmRelay
namespace SessionManager
set_option autoImplicit false

/-! ## Properties of the live sessions -/

/-- Every session in the map has property `P` under its key. -/
def LiveAll (P : SessionID → Session → Prop) (sm : SessionManager) : Prop :=
  ∀ sid r, sm.sessions.lookup sid = some r → P sid (sm.session r)

section LiveAll
variable {P : SessionID → Session → Prop} {sm : SessionManager}

theorem LiveAll.modifySession (h : LiveAll P sm) (r : SessionRef) {f : Session → Session}
    (hf : ∀ sid, P sid (sm.session r) → P sid (f (sm.session r))) : LiveAll P (sm.modifySession r f) := by
  intro sid r' hr'
  by_cases hrr : r' = r
  · subst hrr
    rw [modifySession_session_self]
    exact hf sid (h sid r' hr')
  · rw [modifySession_session_ne _ _ _ hrr]
    exact h sid r' hr'

theorem LiveAll.insertSession (h : LiveAll P sm)
    (hlt : ∀ sid r, sm.sessions.lookup sid = some r → r < sm.heap.next) {id : SessionID} {s : Session}
    (hs : P id s) : LiveAll P { sm with
      heap := sm.heap.alloc s
      sessions := sm.sessions.insert id sm.heap.next } := by
  intro sid r hr
  change (sm.sessions.insert id sm.heap.next).lookup sid = some r at hr
  change P sid ((sm.heap.alloc s).cell r)
  rw [Table.lookup_insert_eq_ite] at hr
  by_cases hid : sid = id
  · rw [if_pos hid] at hr
    cases hr
    rw [Heap.alloc_cell_self, hid]
    exact hs
  · rw [if_neg hid] at hr
    rw [Heap.alloc_cell_of_lt _ _ (hlt sid r hr)]
    exact h sid r hr

theorem LiveAll.eraseSession (h : LiveAll P sm) (id : SessionID) :
    LiveAll P { sm with sessions := sm.sessions.erase id } := by
  intro sid r hr
  change (sm.sessions.erase id).lookup sid = some r at hr
  rw [Table.lookup_erase_eq_ite] at hr
  split at hr
  · cases hr
  · exact h sid r hr

end LiveAll

/-! ## The four edits -/

/-- Put a new empty session under a key. -/
def putSession (id : SessionID) (maxPlayers : ℤ) (now : Instant) (sm : SessionManager) :
    SessionManager :=
  addActiveSessions 1 { sm with
    heap := sm.heap.alloc (newSession id maxPlayers now)
    sessions := sm.sessions.insert id sm.heap.next }

/-- Take a session object out of the map, and its players out of the index. -/
def dropSession (id : SessionID) (r : SessionRef) (sm : SessionManager) : SessionManager :=
  addActiveSessions (-1) (addActivePlayers (-((sm.session r).playerIDs.length : ℤ)) { sm with
    playerIndex := sm.playerIndex.eraseAll (sm.session r).playerIDs
    sessions := sm.sessions.erase id })

/-- Take a player out of a session object and out of the index. -/
def dropPlayer (r : SessionRef) (p : PlayerID) (sm : SessionManager) : SessionManager :=
  addActivePlayers (-1) { sm.modifySession r (fun s => (s.removePlayer p).2) with
    playerIndex := sm.playerIndex.erase p }

/-- Put a player into a session object and into the index. -/
def putPlayer (r : SessionRef) (sid : SessionID) (p : PlayerID) (info : PlayerInfo)
    (sm : SessionManager) : SessionManager :=
  addActivePlayers 1 { sm.modifySession r (fun s => { s with players := s.players.insert p info }) with
    playerIndex := sm.playerIndex.insert p sid }

section Edits
variable (sm : SessionManager) (r : SessionRef) (sid : SessionID) (p : PlayerID) (info : PlayerInfo)

@[simp] theorem dropPlayer_sessions : (sm.dropPlayer r p).sessions = sm.sessions := rfl
@[simp] theorem dropPlayer_playerIndex : (sm.dropPlayer r p).playerIndex = sm.playerIndex.erase p := rfl
@[simp] theorem dropPlayer_activePlayers :
    (sm.dropPlayer r p).metrics.activePlayers = sm.metrics.activePlayers + -1 := rfl
@[simp] theorem putPlayer_sessions : (sm.putPlayer r sid p info).sessions = sm.sessions := rfl
@[simp] theorem putPlayer_playerIndex :
    (sm.putPlayer r sid p info).playerIndex = sm.playerIndex.insert p sid := rfl
@[simp] theorem putPlayer_activePlayers :
    (sm.putPlayer r sid p info).metrics.activePlayers = sm.metrics.activePlayers + 1 := rfl

theorem dropPlayer_session_self :
    (sm.dropPlayer r p).session r = { sm.session r with players := (sm.session r).players.erase p } :=
  modifySession_session_self sm r fun s => (s.removePlayer p).2

theorem dropPlayer_session_ne {r' : SessionRef} (h : r' ≠ r) :
    (sm.dropPlayer r p).session r' = sm.session r' :=
  modifySession_session_ne sm r (fun s => (s.removePlayer p).2) h

theorem putPlayer_session_self : (sm.putPlayer r sid p info).session r =
    { sm.session r with players := (sm.session r).players.insert p info } :=
  modifySession_session_self sm r fun s => { s with players := s.players.insert p info }

theorem putPlayer_session_ne {r' : SessionRef} (h : r' ≠ r) :
    (sm.putPlayer r sid p info).session r' = sm.session r' :=
  modifySession_session_ne sm r (fun s => { s with players := s.players.insert p info }) h

end Edits

/-! ## Consistency -/

structure Consistent (sm : SessionManager) : Prop where
  index_iff : ∀ p sid, sm.playerIndex.lookup p = some sid ↔
    ∃ r, sm.sessions.lookup sid = some r ∧ p ∈ (sm.session r).players
  active_players : sm.metrics.activePlayers = sm.playerIndex.len
  active_sessions : sm.metrics.activeSessions = sm.sessions.len
  ref_lt : ∀ sid r, sm.sessions.lookup sid = some r → r < sm.heap.next
  ref_id : LiveAll (fun sid s => s.id = sid) sm

theorem consistent_new : Consistent newSessionManager where
  index_iff p sid := by simp [newSessionManager]
  active_players := rfl
  active_sessions := rfl
  ref_lt sid r h := by simp [newSessionManager] at h
  ref_id sid r h := by simp [newSessionManager] at h

namespace Consistent
variable {sm : SessionManager}

theorem ref_inj (hc : Consistent sm) {sid sid' : SessionID} {r : SessionRef}
    (h : sm.sessions.lookup sid = some r) (h' : sm.sessions.lookup sid' = some r) : sid = sid' := by
  rw [← hc.ref_id sid r h, ← hc.ref_id sid' r h']

/-- The index agrees with membership in a given live session. -/
theorem mem_iff (hc : Consistent sm) {sid : SessionID} {r : SessionRef}
    (h : sm.sessions.lookup sid = some r) (p : PlayerID) :
    p ∈ (sm.session r).players ↔ sm.playerIndex.lookup p = some sid := by
  rw [hc.index_iff]
  constructor
  · intro hp
    exact ⟨r, h, hp⟩
  · rintro ⟨r', hr', hp⟩
    rw [h] at hr'
    cases hr'
    exact hp

theorem findSessionByPlayer_of_index (hc : Consistent sm) {p : PlayerID} {sid : SessionID}
    (h : sm.playerIndex.lookup p = some sid) :
    ∃ r, sm.findSessionByPlayer p = some r ∧ sm.sessions.lookup sid = some r ∧
      p ∈ (sm.session r).players := by
  obtain ⟨r, hr, hp⟩ := (hc.index_iff p sid).mp h
  refine ⟨r, ?_, hr, hp⟩
  simp only [findSessionByPlayer, h, hr]

/-- What `FindSessionByPlayer` returns is the live session that has the player. -/
theorem of_findSessionByPlayer (hc : Consistent sm) {p : PlayerID} {r : SessionRef}
    (h : sm.findSessionByPlayer p = some r) :
    ∃ sid, sm.playerIndex.lookup p = some sid ∧ sm.sessions.lookup sid = some r ∧
      p ∈ (sm.session r).players := by
  unfold findSessionByPlayer at h
  cases hi : sm.playerIndex.lookup p with
  | none => simp [hi] at h
  | some sid =>
    simp only [hi] at h
    exact ⟨sid, rfl, h, (hc.mem_iff h p).mpr hi⟩

/-! ## Updates in place -/

theorem modifySession (hc : Consistent sm) (r : SessionRef) {f : Session → Session}
    (hf : Session.SameMembers (sm.session r) (f (sm.session r))) :
    Consistent (sm.modifySession r f) := by
  have hmem : ∀ r' p, p ∈ ((sm.modifySession r f).session r').players ↔ p ∈ (sm.session r').players := by
    intro r' p
    by_cases h : r' = r
    · subst h
      rw [modifySession_session_self, hf.mem]
    · rw [modifySession_session_ne sm r f h]
  refine ⟨?_, hc.active_players, hc.active_sessions, hc.ref_lt, hc.ref_id.modifySession r ?_⟩
  · intro p sid
    simp only [hmem]
    exact hc.index_iff p sid
  · intro sid h
    rw [hf.id, h]

/-! ## The edits keep consistency -/

/-- A new empty session under a key that is not in use. -/
theorem putSession (hc : Consistent sm) {id : SessionID} (hid : id ∉ sm.sessions)
    (maxPlayers : ℤ) (now : Instant) :
    Consistent (sm.putSession id maxPlayers now) := by
  have hnone := AList.lookup_eq_none.mpr hid
  have hold : ∀ sid r, sm.sessions.lookup sid = some r →
      (sm.heap.alloc (newSession id maxPlayers now)).cell r = sm.session r := fun sid r h =>
    Heap.alloc_cell_of_lt sm.heap _ (hc.ref_lt sid r h)
  refine ⟨?_, hc.active_players, ?_, ?_, hc.ref_id.insertSession hc.ref_lt rfl⟩
  · intro p sid
    change sm.playerIndex.lookup p = some sid ↔ ∃ r, (sm.sessions.insert id sm.heap.next).lookup sid = some r ∧
      p ∈ ((sm.heap.alloc (newSession id maxPlayers now)).cell r).players
    rw [hc.index_iff, Table.lookup_insert_eq_ite]
    by_cases h : sid = id
    · subst h
      simp [hnone, newSession]
    · rw [if_neg h]
      constructor
      · rintro ⟨r, hr, hp⟩
        exact ⟨r, hr, by rw [hold sid r hr]; exact hp⟩
      · rintro ⟨r, hr, hp⟩
        exact ⟨r, hr, by rw [hold sid r hr] at hp; exact hp⟩
  · change sm.metrics.activeSessions + 1 = (Table.len (sm.sessions.insert id sm.heap.next) : ℤ)
    rw [hc.active_sessions, Table.len_insert_of_notMem hid]
    omega
  · intro sid r h
    change (sm.sessions.insert id sm.heap.next).lookup sid = some r at h
    change r < sm.heap.next + 1
    rw [Table.lookup_insert_eq_ite] at h
    by_cases hs : sid = id
    · rw [if_pos hs] at h
      cases h
      exact Nat.lt_succ_self _
    · rw [if_neg hs] at h
      exact Nat.lt_succ_of_lt (hc.ref_lt sid r h)

/-- A live session leaves the map together with the index entries of its players. -/
theorem dropSession (hc : Consistent sm) {id : SessionID} {r : SessionRef}
    (h : sm.sessions.lookup id = some r) :
    Consistent (sm.dropSession id r) := by
  have hkeys : ∀ p, p ∈ (sm.session r).playerIDs ↔ sm.playerIndex.lookup p = some id := fun p => by
    rw [← hc.mem_iff h p]
    exact AList.mem_keys.symm
  refine ⟨?_, ?_, ?_, ?_, hc.ref_id.eraseSession id⟩
  · intro p sid
    change (sm.playerIndex.eraseAll (sm.session r).playerIDs).lookup p = some sid ↔
      ∃ r', (sm.sessions.erase id).lookup sid = some r' ∧ p ∈ (sm.session r').players
    rw [Table.lookup_eraseAll, Table.lookup_erase_eq_ite]
    by_cases hs : sid = id
    · subst hs
      rw [if_pos rfl]
      by_cases hp : p ∈ (sm.session r).playerIDs
      · simp [hp]
      · rw [if_neg hp]
        simpa using fun hi => hp ((hkeys p).mpr hi)
    · rw [if_neg hs, ← hc.index_iff]
      by_cases hp : p ∈ (sm.session r).playerIDs
      · rw [if_pos hp, (hkeys p).mp hp]
        simpa using Ne.symm hs
      · rw [if_neg hp]
  · have hlen := Table.len_eraseAll (m := sm.playerIndex) (sm.session r).players.keys_nodup
      (fun p hp => Table.mem_of_lookup ((hkeys p).mp hp))
    change sm.metrics.activePlayers + -((sm.session r).playerIDs.length : ℤ) =
      ((sm.playerIndex.eraseAll (sm.session r).playerIDs).len : ℤ)
    rw [hc.active_players]
    unfold Session.playerIDs
    omega
  · have hlen := Table.len_erase_of_mem (Table.mem_of_lookup h)
    change sm.metrics.activeSessions + -1 = (Table.len (sm.sessions.erase id) : ℤ)
    rw [hc.active_sessions]
    omega
  · intro sid r' hr'
    change (sm.sessions.erase id).lookup sid = some r' at hr'
    rw [Table.lookup_erase_eq_ite] at hr'
    split at hr'
    · cases hr'
    · exact hc.ref_lt sid r' hr'

/-- A player leaves a live session and the index. -/
theorem dropPlayer (hc : Consistent sm) {sid : SessionID} {r : SessionRef} {p : PlayerID}
    (h : sm.sessions.lookup sid = some r) (hp : p ∈ (sm.session r).players) :
    Consistent (sm.dropPlayer r p) := by
  have hidx := (hc.mem_iff h p).mp hp
  have hmem : ∀ r' sid' q, sm.sessions.lookup sid' = some r' →
      (q ∈ ((sm.dropPlayer r p).session r').players ↔ q ≠ p ∧ q ∈ (sm.session r').players) := by
    intro r' sid' q hr'
    by_cases hrr : r' = r
    · subst hrr
      rw [dropPlayer_session_self]
      exact AList.mem_erase
    · rw [dropPlayer_session_ne _ _ _ hrr]
      constructor
      · intro hq
        refine ⟨?_, hq⟩
        rintro rfl
        rw [hc.mem_iff hr' q, hidx] at hq
        cases hq
        rw [h] at hr'
        cases hr'
        exact hrr rfl
      · exact fun hq => hq.2
  refine ⟨?_, ?_, hc.active_sessions, hc.ref_lt, ?_⟩
  · intro q sid'
    rw [dropPlayer_playerIndex, dropPlayer_sessions, Table.lookup_erase_eq_ite]
    by_cases hq : q = p
    · rw [if_pos hq]
      constructor
      · intro h'
        cases h'
      · rintro ⟨r', hr', hq'⟩
        exact absurd hq ((hmem r' sid' q hr').mp hq').1
    · rw [if_neg hq, hc.index_iff]
      refine exists_congr fun r' => and_congr_right fun hr' => ?_
      rw [hmem r' sid' q hr']
      exact ⟨fun h' => ⟨hq, h'⟩, fun h' => h'.2⟩
  · have hlen := Table.len_erase_of_mem (Table.mem_of_lookup hidx)
    rw [dropPlayer_playerIndex, dropPlayer_activePlayers, hc.active_players]
    omega
  · exact hc.ref_id.modifySession r (f := fun s => (s.removePlayer p).2) fun _ h => h

/-- A player that is nowhere enters a live session and the index. -/
theorem putPlayer (hc : Consistent sm) {sid : SessionID} {r : SessionRef} {p : PlayerID}
    (h : sm.sessions.lookup sid = some r) (hp : sm.playerIndex.lookup p = none) (info : PlayerInfo) :
    Consistent (sm.putPlayer r sid p info) := by
  have hmem : ∀ r' q, q ∈ ((sm.putPlayer r sid p info).session r').players ↔
      q ∈ (sm.session r').players ∨ (q = p ∧ r' = r) := by
    intro r' q
    by_cases hrr : r' = r
    · subst hrr
      rw [putPlayer_session_self, AList.mem_insert]
      tauto
    · rw [putPlayer_session_ne _ _ _ _ _ hrr]
      tauto
  refine ⟨?_, ?_, hc.active_sessions, hc.ref_lt, ?_⟩
  · intro q sid'
    rw [putPlayer_playerIndex, putPlayer_sessions, Table.lookup_insert_eq_ite]
    simp only [hmem]
    by_cases hq : q = p
    · subst hq
      rw [if_pos rfl]
      constructor
      · intro h'
        cases h'
        exact ⟨r, h, Or.inr ⟨rfl, rfl⟩⟩
      · rintro ⟨r', hr', hq' | ⟨-, rfl⟩⟩
        · rw [hc.mem_iff hr' q, hp] at hq'
          cases hq'
        · rw [hc.ref_inj h hr']
    · rw [if_neg hq, hc.index_iff]
      simp [hq]
  · have hlen := Table.len_insert_of_notMem (AList.lookup_eq_none.mp hp) sid
    rw [putPlayer_playerIndex, putPlayer_activePlayers, hc.active_players]
    omega
  · exact hc.ref_id.modifySession r
      (f := fun s => { s with players := s.players.insert p info }) fun _ h => h

end Consistent

/-! ## What the operations do -/

section Cases
variable {sm : SessionManager}

theorem createSession_cases (id : SessionID) (maxPlayers : ℤ) (now : Instant) (sm : SessionManager) :
    (∃ e, sm.createSession id maxPlayers now = (.error e, sm)) ∨
    (id ∉ sm.sessions ∧ sm.sessions.len < maxTotalSessions ∧
      sm.createSession id maxPlayers now = (.ok sm.heap.next, sm.putSession id maxPlayers now)) := by
  unfold createSession
  split
  · exact Or.inl ⟨_, rfl⟩
  · next hid =>
    split
    · exact Or.inl ⟨_, rfl⟩
    · next hlen => exact Or.inr ⟨hid, Nat.lt_of_not_le hlen, rfl⟩

theorem deleteSession_cases (id : SessionID) (sm : SessionManager) :
    (∃ e, sm.deleteSession id = (.error e, sm)) ∨
    (∃ r, sm.sessions.lookup id = some r ∧ sm.deleteSession id = (.ok (), sm.dropSession id r)) := by
  unfold deleteSession
  cases h : sm.sessions.lookup id with
  | none => exact Or.inl ⟨_, rfl⟩
  | some r => exact Or.inr ⟨r, rfl, rfl⟩

theorem removePlayerFromSession_cases (sid : SessionID) (p : PlayerID) (sm : SessionManager) :
    (∃ e, sm.removePlayerFromSession sid p = (.error e, sm)) ∨
    (∃ r, sm.sessions.lookup sid = some r ∧ p ∈ (sm.session r).players ∧
      sm.removePlayerFromSession sid p = (.ok (), sm.dropPlayer r p)) := by
  unfold removePlayerFromSession
  cases h : sm.sessions.lookup sid with
  | none => exact Or.inl ⟨_, rfl⟩
  | some r =>
    by_cases hp : p ∈ (sm.session r).players
    · refine Or.inr ⟨r, rfl, hp, ?_⟩
      simp only [Session.removePlayer_fst, hp, decide_true, if_true]
      rfl
    · refine Or.inl ⟨.playerNotIn p sid, ?_⟩
      simp only [Session.removePlayer_fst, hp, decide_false, Bool.false_eq_true, if_false,
        modifySession_removePlayer_of_notMem hp]

theorem admitPlayer_cases (r : SessionRef) (sid : SessionID) (p : PlayerID) (login : String)
    (sm : SessionManager) :
    (∃ e, sm.admitPlayer r sid p login = (.error e, sm) ∧
      (maxTotalPlayers ≤ sm.playerIndex.len ∨ p ∈ (sm.session r).players ∨
        (sm.session r).maxPlayers ≤ (sm.session r).players.len)) ∨
    (sm.playerIndex.len < maxTotalPlayers ∧ p ∉ (sm.session r).players ∧
      ((sm.session r).players.len : ℤ) < (sm.session r).maxPlayers ∧
      sm.admitPlayer r sid p login =
        (.ok (), sm.putPlayer r sid p { playerID := p, login := login })) := by
  unfold admitPlayer
  by_cases hcap : maxTotalPlayers ≤ sm.playerIndex.len
  · rw [if_pos hcap]
    exact Or.inl ⟨_, rfl, Or.inl hcap⟩
  · rw [if_neg hcap]
    unfold Session.addPlayer
    by_cases hp : p ∈ (sm.session r).players
    · rw [if_pos hp]
      exact Or.inl ⟨_, rfl, Or.inr (Or.inl hp)⟩
    · rw [if_neg hp]
      by_cases hfull : (sm.session r).maxPlayers ≤ (sm.session r).players.len
      · rw [if_pos hfull]
        exact Or.inl ⟨_, rfl, Or.inr (Or.inr hfull)⟩
      · rw [if_neg hfull]
        exact Or.inr ⟨Nat.lt_of_not_le hcap, hp, lt_of_not_ge hfull, rfl⟩

/-- The removal half of a migration, for a player whose session is where the index says. -/
theorem detachPlayer_eq {existing : SessionID} {old : SessionRef} (p : PlayerID)
    (h : sm.sessions.lookup existing = some old) : sm.detachPlayer existing p = sm.dropPlayer old p := by
  unfold detachPlayer
  simp only [h]
  rfl

end Cases

/-- Every way a call can end, with what it returns and what it leaves behind. In `refused` the
target session turns a player away that has already left its old session. -/
inductive CallOutcome (sm : SessionManager) :
    Call → Except SessionError Unit → SessionManager → Prop
  | failed {c : Call} (e : SessionError) : CallOutcome sm c (.error e) sm
  | created {id : SessionID} {maxPlayers : ℤ} {now : Instant} (hid : id ∉ sm.sessions)
      (hlen : sm.sessions.len < maxTotalSessions) :
      CallOutcome sm (.createSession id maxPlayers now) (.ok ()) (sm.putSession id maxPlayers now)
  | deleted {id : SessionID} {r : SessionRef} (hr : sm.sessions.lookup id = some r) :
      CallOutcome sm (.deleteSession id) (.ok ()) (sm.dropSession id r)
  | rejoined {sid : SessionID} {p : PlayerID} {login : String} {r : SessionRef}
      (hr : sm.sessions.lookup sid = some r) (hi : sm.playerIndex.lookup p = some sid) :
      CallOutcome sm (.addPlayerToSession sid p login) (.ok ())
        (sm.modifySession r (·.resetPlayerTransport p))
  | joined {sid : SessionID} {p : PlayerID} {login : String} {r : SessionRef}
      (hr : sm.sessions.lookup sid = some r) (hi : sm.playerIndex.lookup p = none)
      (hcap : sm.playerIndex.len < maxTotalPlayers)
      (hroom : ((sm.session r).players.len : ℤ) < (sm.session r).maxPlayers) :
      CallOutcome sm (.addPlayerToSession sid p login) (.ok ())
        (sm.putPlayer r sid p { playerID := p, login := login })
  | refused {sid sid' : SessionID} {p : PlayerID} {login : String} {old : SessionRef} (e : SessionError)
      (hi : sm.playerIndex.lookup p = some sid') (hold : sm.sessions.lookup sid' = some old)
      (hp : p ∈ (sm.session old).players) :
      CallOutcome sm (.addPlayerToSession sid p login) (.error e) (sm.dropPlayer old p)
  | migrated {sid sid' : SessionID} {p : PlayerID} {login : String} {r old : SessionRef}
      (hr : sm.sessions.lookup sid = some r) (hi : sm.playerIndex.lookup p = some sid')
      (hs : sid' ≠ sid) (hold : sm.sessions.lookup sid' = some old)
      (hp : p ∈ (sm.session old).players)
      (hroom : ((sm.session r).players.len : ℤ) < (sm.session r).maxPlayers) :
      CallOutcome sm (.addPlayerToSession sid p login) (.ok ())
        ((sm.dropPlayer old p).putPlayer r sid p { playerID := p, login := login })
  | left {sid : SessionID} {p : PlayerID} {r : SessionRef} (hr : sm.sessions.lookup sid = some r)
      (hp : p ∈ (sm.session r).players) :
      CallOutcome sm (.removePlayerFromSession sid p) (.ok ()) (sm.dropPlayer r p)

theorem addPlayerToSession_outcome {sm : SessionManager} (hc : Consistent sm) (sid : SessionID)
    (p : PlayerID) (login : String) : CallOutcome sm (.addPlayerToSession sid p login)
      (sm.addPlayerToSession sid p login).1 (sm.addPlayerToSession sid p login).2 := by
  unfold addPlayerToSession
  cases hr : sm.sessions.lookup sid with
  | none => exact .failed _
  | some r =>
    cases hi : sm.playerIndex.lookup p with
    | none =>
      rcases admitPlayer_cases r sid p login sm with ⟨e, he, -⟩ | ⟨hcap, -, hroom, hok⟩
      · simp only [he]
        exact .failed e
      · simp only [hok]
        exact .joined hr hi hcap hroom
    | some sid' =>
      by_cases hs : sid' = sid
      · subst hs
        simp only [if_true]
        exact .rejoined hr hi
      · obtain ⟨old, hold, hp⟩ := (hc.index_iff p sid').mp hi
        have hne : r ≠ old := by
          rintro rfl
          exact hs (hc.ref_inj hold hr)
        simp only [if_neg hs, detachPlayer_eq p hold]
        rcases admitPlayer_cases r sid p login (sm.dropPlayer old p) with ⟨e, he, -⟩ | ⟨-, -, hroom, hok⟩
        · rw [he]
          exact .refused e hi hold hp
        · rw [dropPlayer_session_ne _ _ _ hne] at hroom
          rw [hok]
          exact .migrated hr hi hs hold hp hroom

theorem call_outcome {sm : SessionManager} (hc : Consistent sm) (c : Call) :
    CallOutcome sm c (sm.call c).1 (sm.call c).2 := by
  cases c with
  | createSession id maxPlayers now =>
    rcases createSession_cases id maxPlayers now sm with ⟨e, h⟩ | ⟨hid, hlen, h⟩
    · simp only [call, h]
      exact .failed e
    · simp only [call, h]
      exact .created hid hlen
  | deleteSession id =>
    rcases deleteSession_cases id sm with ⟨e, h⟩ | ⟨r, hr, h⟩
    · simp only [call, h]
      exact .failed e
    · simp only [call, h]
      exact .deleted hr
  | addPlayerToSession sid p login => exact addPlayerToSession_outcome hc sid p login
  | removePlayerFromSession sid p =>
    rcases removePlayerFromSession_cases sid p sm with ⟨e, h⟩ | ⟨r, hr, hp, h⟩
    · simp only [call, h]
      exact .failed e
    · simp only [call, h]
      exact .left hr hp

theorem Consistent.outcome {sm sm' : SessionManager} (hc : Consistent sm) {c : Call}
    {res : Except SessionError Unit} (h : CallOutcome sm c res sm') : Consistent sm' := by
  cases h with
  | failed e => exact hc
  | created hid _ => exact hc.putSession hid _ _
  | deleted hr => exact hc.dropSession hr
  | rejoined => exact hc.modifySession _ (Session.sameMembers_resetPlayerTransport _ _)
  | joined hr hi => exact hc.putPlayer hr hi _
  | refused e _ hold hp => exact hc.dropPlayer hold hp
  | migrated hr _ _ hold hp =>
    exact (hc.dropPlayer hold hp).putPlayer hr (AList.lookup_erase _ _) _
  | left hr hp => exact hc.dropPlayer hr hp

/-- Every call, successful or failing, keeps the tables consistent. -/
theorem Consistent.call {sm : SessionManager} (hc : Consistent sm) (c : Call) :
    Consistent (sm.call c).2 := hc.outcome (call_outcome hc c)

end SessionManager
end SturmRelay
