import SturmRelay.Relay.ServeHTTP
import SturmRelay.Relay.Server

/-! # Being registered in a session

The adapters know a player by an `int`, the server by a `uint32`. `Registered pid sid` says that the
player index sends that player to the session; in a consistent manager this is what
`GET /sessions/{id}` lists.

A step of the server can take a registration away (`Evicts`) or bring one about (`Registers`). Both
are read off the step's input and the state before it, and all other steps leave the registration
as it is. -/

namespace SturmRelay
namespace SessionManager
set_option autoImplicit false

def Registered (pid : ℤ) (sid : SessionID) (sm : SessionManager) : Prop :=
  ∃ p ∈ sm.playerIndex.keys, (p.toNat : ℤ) = pid ∧ sm.playerIndex.lookup p = some sid

instance (pid : ℤ) (sid : SessionID) (sm : SessionManager) : Decidable (Registered pid sid sm) :=
  inferInstanceAs (Decidable (∃ p ∈ sm.playerIndex.keys, _ ∧ _))

/-- The call, if it succeeds, ends the player's registration in the session. -/
def Call.Evicts (pid : ℤ) (sid : SessionID) : Call → Prop
  | .createSession _ _ _ => False
  | .deleteSession id => id = sid
  | .addPlayerToSession id p _ => (p.toNat : ℤ) = pid ∧ id ≠ sid
  | .removePlayerFromSession id p => id = sid ∧ (p.toNat : ℤ) = pid

instance (pid : ℤ) (sid : SessionID) (c : Call) : Decidable (c.Evicts pid sid) :=
  match c with
  | .createSession _ _ _ => inferInstanceAs (Decidable False)
  | .deleteSession _ => inferInstanceAs (Decidable (_ = _))
  | .addPlayerToSession _ _ _ => inferInstanceAs (Decidable (_ ∧ _))
  | .removePlayerFromSession _ _ => inferInstanceAs (Decidable (_ ∧ _))

/-- The call registers the player in the session. -/
def Call.Registers (pid : ℤ) (sid : SessionID) : Call → Prop
  | .addPlayerToSession id p _ => (p.toNat : ℤ) = pid ∧ id = sid
  | _ => False

instance (pid : ℤ) (sid : SessionID) (c : Call) : Decidable (c.Registers pid sid) :=
  match c with
  | .addPlayerToSession _ _ _ => inferInstanceAs (Decidable (_ ∧ _))
  | .createSession _ _ _ => inferInstanceAs (Decidable False)
  | .deleteSession _ => inferInstanceAs (Decidable False)
  | .removePlayerFromSession _ _ => inferInstanceAs (Decidable False)

/-- A reaper pass with these readings finds the player of the session stale, in both phases. -/
def FoundStale (pid : ℤ) (sid : SessionID) (clk : ReapClock) (sm : SessionManager) : Prop :=
  ∃ r ∈ sm.sessions.lookup sid, ∃ p ∈ (sm.session r).playerIDs, (p.toNat : ℤ) = pid ∧
    (sm.session r).staleAt playerTimeout (clk.scan sid) p = true ∧
    (sm.session r).staleAt playerTimeout (clk.check sid p) p = true

instance (pid : ℤ) (sid : SessionID) (clk : ReapClock) (sm : SessionManager) :
    Decidable (FoundStale pid sid clk sm) :=
  inferInstanceAs (Decidable (∃ r ∈ sm.sessions.lookup sid, ∃ p ∈ (sm.session r).playerIDs, _ ∧ _))

/-- The step, if it succeeds, ends the player's registration in the session. -/
def RelayEvent.Evicts (pid : ℤ) (sid : SessionID) (sm : SessionManager) : RelayEvent → Prop
  | .call c _ => c.Evicts pid sid
  | .packet _ => False
  | .reap _ clk => FoundStale pid sid clk sm

instance (pid : ℤ) (sid : SessionID) (sm : SessionManager) (ev : RelayEvent) :
    Decidable (ev.Evicts pid sid sm) :=
  match ev with
  | .call c _ => inferInstanceAs (Decidable (c.Evicts pid sid))
  | .packet _ => inferInstanceAs (Decidable False)
  | .reap _ clk => inferInstanceAs (Decidable (FoundStale pid sid clk sm))

def RelayEvent.Registers (pid : ℤ) (sid : SessionID) : RelayEvent → Prop
  | .call c _ => c.Registers pid sid
  | _ => False

instance (pid : ℤ) (sid : SessionID) (ev : RelayEvent) : Decidable (ev.Registers pid sid) :=
  match ev with
  | .call c _ => inferInstanceAs (Decidable (c.Registers pid sid))
  | .packet _ => inferInstanceAs (Decidable False)
  | .reap _ _ => inferInstanceAs (Decidable False)

section Registered
variable {pid : ℤ} {sid : SessionID} {sm sm' : SessionManager}

theorem registered_iff : Registered pid sid sm ↔
    ∃ p : PlayerID, (p.toNat : ℤ) = pid ∧ sm.playerIndex.lookup p = some sid := by
  constructor
  · rintro ⟨p, -, hp, hi⟩
    exact ⟨p, hp, hi⟩
  · rintro ⟨p, hp, hi⟩
    exact ⟨p, AList.mem_keys.mpr (Table.mem_of_lookup hi), hp, hi⟩

theorem registered_toNat {p : PlayerID} :
    Registered p.toNat sid sm ↔ sm.playerIndex.lookup p = some sid := by
  rw [registered_iff]
  constructor
  · rintro ⟨q, hq, hi⟩
    rwa [UInt32.toNat_inj.mp (Int.ofNat_inj.mp hq)] at hi
  · exact fun hi => ⟨p, rfl, hi⟩

theorem registered_congr (h : sm'.playerIndex = sm.playerIndex) :
    Registered pid sid sm' ↔ Registered pid sid sm := by
  unfold Registered
  rw [h]

/-! ## Calls -/

/-- Joining the session one is in already does not touch the index. -/
theorem index_rejoin {p : PlayerID} (hi : sm.playerIndex.lookup p = some sid) (login : String) :
    (sm.call (.addPlayerToSession sid p login)).2.playerIndex = sm.playerIndex := by
  simp only [call, addPlayerToSession]
  split
  · rfl
  · simp only [hi, if_pos]
    rfl

theorem lookup_call (hc : Consistent sm) {c : Call} {p : PlayerID}
    (hkeep : ¬ c.Evicts p.toNat sid) (hi : sm.playerIndex.lookup p = some sid) :
    (sm.call c).2.playerIndex.lookup p = some sid := by
  by_cases hjoin : ∃ login, c = .addPlayerToSession sid p login
  · obtain ⟨login, rfl⟩ := hjoin
    rw [index_rejoin hi login, hi]
  · -- the call is about another player or another session, so the entry is not the one it edits
    have ho := call_outcome hc c
    generalize (sm.call c).1 = res, (sm.call c).2 = sm' at ho
    have hother : ∀ id q login, c = .addPlayerToSession id q login → p ≠ q := by
      rintro id q login rfl rfl
      by_cases hid : id = sid
      · exact hjoin ⟨login, by rw [hid]⟩
      · exact hkeep ⟨rfl, hid⟩
    cases ho with
    | failed e => exact hi
    | created hid hlen => exact hi
    | @deleted id r hr =>
      have hout : p ∉ (sm.session r).playerIDs := by
        intro hp
        rw [(hc.mem_iff hr p).mp hp] at hi
        exact hkeep (Option.some.inj hi)
      change (sm.playerIndex.eraseAll (sm.session r).playerIDs).lookup p = some sid
      rw [Table.lookup_eraseAll, if_neg hout, hi]
    | rejoined hr hq => exact hi
    | joined hr hq hcap hroom =>
      rw [putPlayer_playerIndex, AList.lookup_insert_ne (hother _ _ _ rfl), hi]
    | refused e hq hold hp =>
      rw [dropPlayer_playerIndex, AList.lookup_erase_ne (hother _ _ _ rfl), hi]
    | migrated hr hq hs hold hp hroom =>
      rw [putPlayer_playerIndex, AList.lookup_insert_ne (hother _ _ _ rfl), dropPlayer_playerIndex,
        AList.lookup_erase_ne (hother _ _ _ rfl), hi]
    | @left id q r hr hp =>
      have hne : p ≠ q := by
        rintro rfl
        rw [(hc.mem_iff hr p).mp hp] at hi
        exact hkeep ⟨Option.some.inj hi, rfl⟩
      rw [dropPlayer_playerIndex, AList.lookup_erase_ne hne, hi]

theorem registered_call (hc : Consistent sm) {c : Call} (hkeep : ¬ c.Evicts pid sid)
    (h : Registered pid sid sm) : Registered pid sid (sm.call c).2 := by
  obtain ⟨p, rfl, hi⟩ := registered_iff.mp h
  exact registered_iff.mpr ⟨p, rfl, lookup_call hc hkeep hi⟩

/-- An entry of the index was there before, or comes from the join that was called. -/
theorem lookup_of_call (hc : Consistent sm) {c : Call} {p : PlayerID}
    (hi : (sm.call c).2.playerIndex.lookup p = some sid) :
    sm.playerIndex.lookup p = some sid ∨ ∃ login, c = .addPlayerToSession sid p login := by
  have ho := call_outcome hc c
  generalize (sm.call c).1 = res, (sm.call c).2 = sm' at ho hi
  have herase : ∀ (m : Table PlayerID SessionID) q, (m.erase q).lookup p = some sid →
      m.lookup p = some sid := by
    intro m q h
    rw [Table.lookup_erase_eq_ite] at h
    split at h
    · cases h
    · exact h
  have hinsert : ∀ (m : Table PlayerID SessionID) q id, (m.insert q id).lookup p = some sid →
      m.lookup p = some sid ∨ (id = sid ∧ q = p) := by
    intro m q id h
    rw [Table.lookup_insert_eq_ite] at h
    split at h
    · next hq => exact Or.inr ⟨Option.some.inj h, hq.symm⟩
    · exact Or.inl h
  cases ho with
  | failed e => exact Or.inl hi
  | created hid hlen => exact Or.inl hi
  | @deleted id r hr =>
    change (sm.playerIndex.eraseAll (sm.session r).playerIDs).lookup p = some sid at hi
    rw [Table.lookup_eraseAll] at hi
    split at hi
    · cases hi
    · exact Or.inl hi
  | rejoined hr hq => exact Or.inl hi
  | @joined id q login r hr hq hcap hroom =>
    refine (hinsert _ _ _ hi).imp_right ?_
    rintro ⟨rfl, rfl⟩
    exact ⟨login, rfl⟩
  | refused e hq hold hp => exact Or.inl (herase _ _ hi)
  | @migrated id id' q login r old hr hq hs hold hp hroom =>
    rcases hinsert _ _ _ hi with hi | ⟨rfl, rfl⟩
    · exact Or.inl (herase _ _ hi)
    · exact Or.inr ⟨login, rfl⟩
  | left hr hp => exact Or.inl (herase _ _ hi)

theorem registered_of_call (hc : Consistent sm) {c : Call} (hnew : ¬ c.Registers pid sid)
    (h : Registered pid sid (sm.call c).2) : Registered pid sid sm := by
  obtain ⟨p, rfl, hi⟩ := registered_iff.mp h
  rcases lookup_of_call hc hi with hi | ⟨login, rfl⟩
  · exact registered_iff.mpr ⟨p, rfl, hi⟩
  · exact absurd ⟨rfl, rfl⟩ hnew

/-! ## Packets and the reaper -/

theorem index_handlePacket {net : Network} {o : RangeOrder PlayerID} {src : Endpoint} {data : Bytes}
    {now : Instant} {h : Handled} (hok : sm.handlePacket net o src data now = .ok h) :
    h.sm.playerIndex = sm.playerIndex := by
  rcases handlePacket_tables hok with ⟨hs, -⟩ | ⟨r, -, hs, -⟩
  · exact hs.playerIndex
  · rw [hs.playerIndex]
    cases src <;> rfl

theorem consistent_handlePacket (hc : Consistent sm) {net : Network} {o : RangeOrder PlayerID}
    {src : Endpoint} {data : Bytes} {now : Instant} {h : Handled}
    (hok : sm.handlePacket net o src data now = .ok h) : Consistent h.sm := by
  rcases handlePacket_tables hok with ⟨hs, -⟩ | ⟨r, -, hs, -⟩
  · exact hs.consistent hc
  · exact hs.consistent (hc.updatePlayer src r _ now)

theorem index_reapStaleSessions (hc : Consistent sm) (o : ReapOrder) (clk : ReapClock) :
    (sm.reapStaleSessions o clk).sm.playerIndex =
      sm.playerIndex.eraseAll (reapedAll clk sm (reapCollect o clk sm)) :=
  (reapEffect_reapApply clk (distinct_reapCollect hc o clk) sm).playerIndex

/-- Whoever the pass removes is stale when its session is scanned and when it is checked. -/
theorem foundStale_of_reapedAll (hc : Consistent sm) {o : ReapOrder} {clk : ReapClock} {p : PlayerID}
    (hi : sm.playerIndex.lookup p = some sid) (hp : p ∈ reapedAll clk sm (reapCollect o clk sm)) :
    FoundStale p.toNat sid clk sm := by
  obtain ⟨c, hcm, hpc, hl, hic⟩ := index_of_reapedAll (live_reapCollect o clk sm) hc hp
  obtain rfl : c.sessionID = sid := Option.some.inj (hic.symm.trans hi)
  obtain ⟨hlisted, hcheck⟩ := mem_reaped.mp hpc
  rw [(mem_reapCollect.mp hcm).2.1] at hlisted
  have hscan := Session.mem_stalePlayers.mp hlisted
  exact ⟨c.session, hl, p, Session.staleAt_mem hscan, rfl, hscan, hcheck⟩

theorem registered_reapStaleSessions (hc : Consistent sm) {o : ReapOrder} {clk : ReapClock}
    (hfresh : ¬ FoundStale pid sid clk sm) (h : Registered pid sid sm) :
    Registered pid sid (sm.reapStaleSessions o clk).sm := by
  obtain ⟨p, rfl, hi⟩ := registered_iff.mp h
  have hout : p ∉ reapedAll clk sm (reapCollect o clk sm) :=
    fun hp => hfresh (foundStale_of_reapedAll hc hi hp)
  refine registered_iff.mpr ⟨p, rfl, ?_⟩
  rw [index_reapStaleSessions hc, Table.lookup_eraseAll, if_neg hout, hi]

theorem registered_of_reapStaleSessions (hc : Consistent sm) {o : ReapOrder} {clk : ReapClock}
    (h : Registered pid sid (sm.reapStaleSessions o clk).sm) : Registered pid sid sm := by
  obtain ⟨p, rfl, hi⟩ := registered_iff.mp h
  rw [index_reapStaleSessions hc, Table.lookup_eraseAll] at hi
  split at hi
  · cases hi
  · exact registered_iff.mpr ⟨p, rfl, hi⟩

end Registered

/-! ## Steps of the server -/

section Steps
variable {net : Network} {s : Relay} {pid : ℤ} {sid : SessionID}

theorem consistent_relayStep (hc : Consistent s.sm) (ev : RelayEvent) :
    Consistent (relayStep net s ev).1.sm := by
  unfold relayStep
  split
  · exact hc
  · cases ev with
    | call c now => exact hc.call c
    | packet pkt =>
      dsimp only
      split
      · next hok => exact consistent_handlePacket hc hok
      · exact hc
    | reap o clk => exact hc.reapStaleSessions o clk

theorem registered_relayStep (hc : Consistent s.sm) {ev : RelayEvent}
    (hkeep : ¬ ev.Evicts pid sid s.sm) (h : Registered pid sid s.sm) :
    Registered pid sid (relayStep net s ev).1.sm := by
  unfold relayStep
  split
  · exact h
  · cases ev with
    | call c now => exact registered_call hc hkeep h
    | packet pkt =>
      dsimp only
      split
      · next hok => exact (registered_congr (index_handlePacket hok)).mpr h
      · exact h
    | reap o clk => exact registered_reapStaleSessions hc hkeep h

theorem registered_of_relayStep (hc : Consistent s.sm) {ev : RelayEvent}
    (hnew : ¬ ev.Registers pid sid) (h : Registered pid sid (relayStep net s ev).1.sm) :
    Registered pid sid s.sm := by
  unfold relayStep at h
  split at h
  · exact h
  · cases ev with
    | call c now => exact registered_of_call hc hnew h
    | packet pkt =>
      dsimp only at h
      split at h
      · next hok => exact (registered_congr (index_handlePacket hok)).mp h
      · exact h
    | reap o clk => exact registered_of_reapStaleSessions hc h

end Steps
end SessionManager

/-! ## Requests for one session -/

section Requests
variable {sid : SessionID} (hsid : '/' ∉ sid.toList)
include hsid

theorem splitAction_append (rest : String) : splitAction (sid ++ rest) =
    (sid ++ String.ofList (rest.toList.takeWhile (· ≠ '/')),
      String.ofList ((rest.toList.dropWhile (· ≠ '/')).drop 1)) := by
  have hall : ∀ c ∈ sid.toList, decide (c ≠ '/') = true := by
    intro c hc
    refine decide_eq_true ?_
    rintro rfl
    exact hsid hc
  unfold splitAction
  rw [String.toList_append, List.takeWhile_append_of_pos hall, List.dropWhile_append_of_pos hall,
    String.ofList_append, String.ofList_toList]

theorem splitAction_root : splitAction sid = (sid, "") := by
  have h := splitAction_append hsid ""
  simpa using h

theorem splitAction_join : splitAction (sid ++ "/join") = (sid, "join") := by
  rw [splitAction_append hsid "/join"]
  have hnone : String.ofList ("/join".toList.takeWhile (· ≠ '/')) = "" := by decide
  rw [hnone, String.append_empty]
  rfl

namespace SessionManager

theorem serveMux_join (body : Body) (now : Instant) (sm : SessionManager) :
    (sm.serveMux (.sessionByID (sid ++ "/join")) .post body now).2 = sm ∨
    ∃ req, body.join = some req ∧
      (sm.serveMux (.sessionByID (sid ++ "/join")) .post body now).2 =
        (sm.call (.addPlayerToSession sid req.playerID req.login)).2 := by
  simp only [serveMux, handleSessionByID, splitAction_join hsid]
  split
  · exact Or.inl rfl
  · split
    · exact Or.inl rfl
    · rw [if_neg (by decide), if_pos trivial]
      rcases handleSessionJoin_call .post sid body sm with h | ⟨req, hreq, -, h⟩
      · exact Or.inl h
      · exact Or.inr ⟨req, hreq, h⟩

/-- The players the answer lists are those registered in the session. -/
theorem serveMux_info {sm : SessionManager} (hc : Consistent sm) (body : Body) (now : Instant) :
    let resp := (sm.serveMux (.sessionByID sid) .get body now).1
    resp.status = 400 ∨
    (resp.status = 404 ∧ ∀ p, sm.playerIndex.lookup p ≠ some sid) ∨
    ∃ maxPlayers count ids, resp = ⟨200, .info sid maxPlayers count ids⟩ ∧
      ∀ p, p ∈ ids ↔ sm.playerIndex.lookup p = some sid := by
  simp only [serveMux, handleSessionByID, splitAction_root hsid]
  split
  · exact Or.inl rfl
  · split
    · exact Or.inl rfl
    · refine Or.inr ?_
      rw [if_pos trivial]
      unfold handleSessionRoot getSession
      cases hr : sm.sessions.lookup sid with
      | none =>
        refine Or.inl ⟨rfl, fun p hi => ?_⟩
        obtain ⟨r, hr', -⟩ := (hc.index_iff p sid).mp hi
        rw [hr] at hr'
        cases hr'
      | some r =>
        let s := sm.session r
        refine Or.inr ⟨s.maxPlayers, s.playerCount, s.playerIDs, ?_, fun p => hc.mem_iff hr p⟩
        dsimp only
        rw [hc.ref_id sid r hr]

end SessionManager
end Requests

namespace SessionManager

theorem index_handleSessions (method : Method) (body : Body) (now : Instant) (sm : SessionManager) :
    (sm.handleSessions method body now).2.playerIndex = sm.playerIndex := by
  have hcreate : ∀ id maxPlayers,
      (sm.createSession id maxPlayers now).2.playerIndex = sm.playerIndex := by
    intro id maxPlayers
    rcases createSession_cases id maxPlayers now sm with ⟨e, h⟩ | ⟨-, -, h⟩
    · rw [h]
    · rw [h]
      rfl
  unfold handleSessions
  repeat' split
  all_goals first
    | rfl
    | next h => rw [← hcreate, h]

/-! ## Requests and the index -/

section Index
variable {sm : SessionManager} (hc : Consistent sm) {sid id : SessionID} {p : PlayerID} {method : Method}
  {body : Body}
include hc

theorem lookup_of_handleSessionRoot
    (hi : (sm.handleSessionRoot method id).2.playerIndex.lookup p = some sid) :
    sm.playerIndex.lookup p = some sid := by
  rcases handleSessionRoot_call method id sm with he | he
  · rwa [he] at hi
  · rw [he] at hi
    rcases lookup_of_call hc hi with hold | ⟨login, hcall⟩
    · exact hold
    · cases hcall

theorem lookup_of_handleSessionLeave
    (hi : (sm.handleSessionLeave method id body).2.playerIndex.lookup p = some sid) :
    sm.playerIndex.lookup p = some sid := by
  rcases handleSessionLeave_call method id body sm with he | ⟨req, -, -, he⟩
  · rwa [he] at hi
  · rw [he] at hi
    rcases lookup_of_call hc hi with hold | ⟨login, hcall⟩
    · exact hold
    · cases hcall

theorem lookup_of_handleSessionJoin
    (hi : (sm.handleSessionJoin method id body).2.playerIndex.lookup p = some sid) :
    sm.playerIndex.lookup p = some sid ∨
      (method = .post ∧ body.join.map JoinRequest.playerID = some p) := by
  by_cases hmethod : method = .post
  · rcases handleSessionJoin_call method id body sm with he | ⟨req, hreq, -, he⟩
    · rw [he] at hi
      exact Or.inl hi
    · rw [he] at hi
      refine (lookup_of_call hc hi).imp_right ?_
      rintro ⟨login, hcall⟩
      cases hcall
      exact ⟨hmethod, by rw [hreq]; rfl⟩
  · rw [handleSessionJoin, if_pos hmethod] at hi
    exact Or.inl hi

end Index

theorem consistent_serveMux {sm : SessionManager} (hc : Consistent sm) (route : Route) (method : Method)
    (body : Body) (now : Instant) : Consistent (sm.serveMux route method body now).2 := by
  rcases serveMux_effect route method body now sm with h | ⟨c, -, h⟩
  · rw [h]
    exact hc
  · rw [h]
    exact hc.call c

end SessionManager
end SturmRelay
