import SturmRelay.Relay.Invariant

/-! # Failing calls

A call that returns an error should leave everything as it was (`ErrorAtomic`). All of them do,
except one: a join that has to take the player out of its old session first, and is then refused by
the new one (`errorAtomic_iff`). In a state the server can reach, the one reason left for such a
refusal is that the new session is full (`refusedMigration_iff_full`). -/

namespace SturmRelay
namespace SessionManager
set_option autoImplicit false

/-- Nothing that the operations manage differs: the two maps, what the session objects hold, and
the two gauges. -/
structure Unchanged (sm sm' : SessionManager) : Prop where
  sessions : sm'.sessions = sm.sessions
  playerIndex : sm'.playerIndex = sm.playerIndex
  session : ∀ r, sm'.session r = sm.session r
  activePlayers : sm'.metrics.activePlayers = sm.metrics.activePlayers
  activeSessions : sm'.metrics.activeSessions = sm.metrics.activeSessions

theorem Unchanged.refl (sm : SessionManager) : Unchanged sm sm := ⟨rfl, rfl, fun _ => rfl, rfl, rfl⟩

/-- The call changes nothing if it returns an error. -/
def ErrorAtomic (sm : SessionManager) (c : Call) : Prop :=
  ∀ e, (sm.call c).1 = .error e → Unchanged sm (sm.call c).2

/-- A player that is nowhere cannot enter the session `r` points to. -/
def Refuses (sm : SessionManager) (r : SessionRef) (p : PlayerID) : Prop :=
  maxTotalPlayers ≤ sm.playerIndex.len ∨ p ∈ (sm.session r).players ∨
    (sm.session r).maxPlayers ≤ (sm.session r).players.len

/-- The call moves a player out of another session, into one that then refuses it. -/
def RefusedMigration (sm : SessionManager) : Call → Prop
  | .addPlayerToSession sid p _ => ∃ r sid', sm.sessions.lookup sid = some r ∧
      sm.playerIndex.lookup p = some sid' ∧ sid' ≠ sid ∧ Refuses (sm.detachPlayer sid' p) r p
  | _ => False

theorem detachPlayer_playerIndex (sm : SessionManager) (sid : SessionID) (p : PlayerID) :
    (sm.detachPlayer sid p).playerIndex = sm.playerIndex.erase p := by
  unfold detachPlayer
  cases sm.sessions.lookup sid <;> rfl

section Admit
variable {sm : SessionManager} {r : SessionRef} {sid : SessionID} {p : PlayerID} {login : String}

variable (sid login) in
theorem admitPlayer_of_refuses (h : Refuses sm r p) : ∃ e, sm.admitPlayer r sid p login = (.error e, sm) := by
  rcases admitPlayer_cases r sid p login sm with ⟨e, he, -⟩ | ⟨hlen, hp, hroom, -⟩
  · exact ⟨e, he⟩
  · exfalso
    rcases h with h | h | h
    · omega
    · exact hp h
    · omega

theorem admitPlayer_error {e : SessionError} (h : (sm.admitPlayer r sid p login).1 = .error e) :
    (sm.admitPlayer r sid p login).2 = sm ∧ Refuses sm r p := by
  rcases admitPlayer_cases r sid p login sm with ⟨e', he, hwhy⟩ | ⟨-, -, -, hok⟩
  · rw [he]
    exact ⟨rfl, hwhy⟩
  · rw [hok] at h
    cases h

end Admit

/-- A failing call either changes nothing or is a refused migration. -/
theorem call_error {sm : SessionManager} {c : Call} {e : SessionError} (h : (sm.call c).1 = .error e) :
    (sm.call c).2 = sm ∨ RefusedMigration sm c := by
  cases c with
  | createSession id maxPlayers now =>
    change ((sm.createSession id maxPlayers now).1.map fun _ => ()) = .error e at h
    change (sm.createSession id maxPlayers now).2 = sm ∨ _
    rcases createSession_cases id maxPlayers now sm with ⟨e', he⟩ | ⟨-, -, hok⟩
    · exact Or.inl (by rw [he])
    · rw [hok] at h
      cases h
  | deleteSession id =>
    change (sm.deleteSession id).1 = .error e at h
    change (sm.deleteSession id).2 = sm ∨ _
    rcases deleteSession_cases id sm with ⟨e', he⟩ | ⟨r, -, hok⟩
    · exact Or.inl (by rw [he])
    · rw [hok] at h
      cases h
  | addPlayerToSession sid p login =>
    change (sm.addPlayerToSession sid p login).1 = .error e at h
    change (sm.addPlayerToSession sid p login).2 = sm ∨ _
    unfold addPlayerToSession at h ⊢
    cases hr : sm.sessions.lookup sid with
    | none => exact Or.inl rfl
    | some r =>
      simp only [hr] at h ⊢
      cases hi : sm.playerIndex.lookup p with
      | none =>
        simp only [hi] at h ⊢
        exact Or.inl (admitPlayer_error h).1
      | some sid' =>
        simp only [hi] at h ⊢
        by_cases hs : sid' = sid
        · rw [if_pos hs] at h
          cases h
        · rw [if_neg hs] at h
          exact Or.inr ⟨r, sid', hr, hi, hs, (admitPlayer_error h).2⟩
  | removePlayerFromSession sid p =>
    change (sm.removePlayerFromSession sid p).1 = .error e at h
    change (sm.removePlayerFromSession sid p).2 = sm ∨ _
    rcases removePlayerFromSession_cases sid p sm with ⟨e', he⟩ | ⟨r, -, -, hok⟩
    · exact Or.inl (by rw [he])
    · rw [hok] at h
      cases h

/-- A refused migration returns an error and has taken the player out of the index. -/
theorem call_of_refusedMigration {sm : SessionManager} {c : Call} (h : RefusedMigration sm c) :
    (∃ e, (sm.call c).1 = .error e) ∧ (sm.call c).2.playerIndex ≠ sm.playerIndex := by
  cases c with
  | addPlayerToSession sid p login =>
    obtain ⟨r, sid', hr, hi, hs, hrefuse⟩ := h
    obtain ⟨e, he⟩ := admitPlayer_of_refuses sid login hrefuse
    have hcall : sm.call (.addPlayerToSession sid p login) = (.error e, sm.detachPlayer sid' p) := by
      change sm.addPlayerToSession sid p login = _
      unfold addPlayerToSession
      simp only [hr, hi, if_neg hs, he]
    rw [hcall]
    refine ⟨⟨e, rfl⟩, fun hsame => ?_⟩
    have hgone := AList.lookup_erase p sm.playerIndex
    rw [← detachPlayer_playerIndex sm sid' p, hsame, hi] at hgone
    cases hgone
  | createSession _ _ _ => exact h.elim
  | deleteSession _ => exact h.elim
  | removePlayerFromSession _ _ => exact h.elim

/-- A call is atomic on errors exactly if it is not a refused migration. -/
theorem errorAtomic_iff (sm : SessionManager) (c : Call) :
    ErrorAtomic sm c ↔ ¬ RefusedMigration sm c := by
  constructor
  · intro hatomic hrefused
    obtain ⟨⟨e, he⟩, hindex⟩ := call_of_refusedMigration hrefused
    exact hindex (hatomic e he).playerIndex
  · intro hrefused e he
    rw [(call_error he).resolve_right hrefused]
    exact .refl sm

/-! ### Refused migrations in reachable states -/

/-- In a sound state a migration is refused exactly if the new session is full. -/
theorem refusedMigration_iff_full {sm : SessionManager} (h : Sound sm) (sid : SessionID) (p : PlayerID)
    (login : String) :
    RefusedMigration sm (.addPlayerToSession sid p login) ↔
      ∃ r sid', sm.sessions.lookup sid = some r ∧ sm.playerIndex.lookup p = some sid' ∧ sid' ≠ sid ∧
        (sm.session r).maxPlayers ≤ (sm.session r).playerCount := by
  refine exists_congr fun r => exists_congr fun sid' => and_congr_right fun hr =>
    and_congr_right fun hi => and_congr_right fun hs => ?_
  obtain ⟨old, hold, hp⟩ := (h.consistent.index_iff p sid').mp hi
  have hne : r ≠ old := by
    rintro rfl
    exact hs (h.consistent.ref_inj hold hr)
  unfold Refuses
  rw [detachPlayer_eq p hold, dropPlayer_session_ne sm old p hne, dropPlayer_playerIndex]
  have hlen := Table.len_erase_of_mem (Table.mem_of_lookup hi)
  have hcap := h.limits.players_le
  constructor
  · rintro (h1 | h1 | h1)
    · omega
    · rw [h.consistent.mem_iff hr p, hi] at h1
      exact absurd (Option.some.inj h1) hs
    · exact h1
  · exact fun h1 => Or.inr (Or.inr h1)

/-- A duel that is full, and another game with one player. -/
def fullDuel : SessionManager :=
  runState tableStep newSessionManager
    [.call (.createSession "duel" 2 0), .call (.addPlayerToSession "duel" 1 "p1"),
      .call (.addPlayerToSession "duel" 2 "p2"), .call (.createSession "game" 12 0),
      .call (.addPlayerToSession "game" 3 "p3")]

/-- The duel refuses player 3, which has lost its place in the other game all the same. -/
theorem fullDuel_not_atomic :
    (fullDuel.call (.addPlayerToSession "duel" 3 "p3")).1 = .error (.sessionFull "duel" 2 2) ∧
    ¬ ErrorAtomic fullDuel (.addPlayerToSession "duel" 3 "p3") ∧
    3 ∈ (fullDuel.session 1).players ∧
    3 ∉ ((fullDuel.call (.addPlayerToSession "duel" 3 "p3")).2.session 1).players ∧
    (fullDuel.call (.addPlayerToSession "duel" 3 "p3")).2.findSessionByPlayer 3 = none := by
  refine ⟨rfl, fun hatomic => ?_, by decide, by decide, by decide⟩
  have hindex := (hatomic _ rfl).playerIndex
  exact absurd (congrArg (AList.lookup 3) hindex) (by decide)

end SessionManager
end SturmRelay
