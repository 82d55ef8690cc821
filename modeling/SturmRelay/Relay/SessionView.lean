import SturmRelay.Relay.SoloSession

/-! # What one session sees of the server

`view S sm` is the session under the key `S`, without its pointer. `Isolated S M K` says who belongs
there: the players in `M` are in `S` and in no other session, everybody else is somewhere else, and
only players of `S` use the connections in `K`. As long as that holds, an operation on another session
or on another player leaves the view as it is, and an operation on `S` does to the view what it would
do to a session on its own. -/

namespace SturmRelay
namespace SessionManager
set_option autoImplicit false

def view (S : SessionID) (sm : SessionManager) : Option Session :=
  (sm.sessions.lookup S).map sm.session

section View
variable {S : SessionID} {sm : SessionManager}

theorem view_of_lookup {r : SessionRef} (h : sm.sessions.lookup S = some r) :
    sm.view S = some (sm.session r) := by
  rw [view, h, Option.map_some]

theorem view_of_none (h : sm.sessions.lookup S = none) : sm.view S = none := by
  rw [view, h, Option.map_none]

theorem view_sameTables {sm' : SessionManager} (h : SameTables sm sm') : sm'.view S = sm.view S := by
  unfold view session
  rw [h.sessions, h.heap]

/-! ## The edits -/

theorem view_modifySession (hc : Consistent sm) {sid : SessionID} {r : SessionRef}
    (hr : sm.sessions.lookup sid = some r) (f : Session → Session) :
    (sm.modifySession r f).view S = if sid = S then some (f (sm.session r)) else sm.view S := by
  have hview : ∀ r', sm.sessions.lookup S = some r' →
      (sm.modifySession r f).view S = some ((sm.modifySession r f).session r') :=
    fun r' hr' => view_of_lookup hr'
  by_cases hs : sid = S
  · subst hs
    rw [if_pos rfl, hview r hr, modifySession_session_self]
  · rw [if_neg hs]
    cases hS : sm.sessions.lookup S with
    | none =>
      have hnone : (sm.modifySession r f).view S = none := view_of_none hS
      rw [hnone, view_of_none hS]
    | some r' =>
      have hne : r' ≠ r := by
        rintro rfl
        exact hs (hc.ref_inj hr hS)
      rw [hview r' hS, view_of_lookup hS, modifySession_session_ne _ _ _ hne]

theorem view_dropPlayer (hc : Consistent sm) {sid : SessionID} {r : SessionRef}
    (hr : sm.sessions.lookup sid = some r) (p : PlayerID) :
    (sm.dropPlayer r p).view S =
      if sid = S then some ((sm.session r).removePlayer p).2 else sm.view S :=
  view_modifySession hc hr fun s => (s.removePlayer p).2

theorem view_putPlayer (hc : Consistent sm) {sid : SessionID} {r : SessionRef}
    (hr : sm.sessions.lookup sid = some r) (p : PlayerID) (info : PlayerInfo) :
    (sm.putPlayer r sid p info).view S = if sid = S then
      some { sm.session r with players := (sm.session r).players.insert p info } else sm.view S :=
  view_modifySession hc hr fun s => { s with players := s.players.insert p info }

theorem view_putSession (hc : Consistent sm) (id : SessionID) (maxPlayers : ℤ) (now : Instant) :
    (sm.putSession id maxPlayers now).view S =
      if id = S then some (newSession id maxPlayers now) else sm.view S := by
  change ((sm.sessions.insert id sm.heap.next).lookup S).map
    (sm.heap.alloc (newSession id maxPlayers now)).cell = _
  rw [Table.lookup_insert_eq_ite]
  by_cases hs : id = S
  · rw [if_pos hs.symm, if_pos hs, Option.map_some, Heap.alloc_cell_self]
  · rw [if_neg (Ne.symm hs), if_neg hs]
    cases hS : sm.sessions.lookup S with
    | none => rw [view_of_none hS, Option.map_none]
    | some r =>
      rw [view_of_lookup hS, Option.map_some, Heap.alloc_cell_of_lt _ _ (hc.ref_lt S r hS)]
      rfl

theorem view_dropSession (id : SessionID) (r : SessionRef) :
    (sm.dropSession id r).view S = if id = S then none else sm.view S := by
  change ((sm.sessions.erase id).lookup S).map sm.session = _
  rw [Table.lookup_erase_eq_ite]
  by_cases hs : id = S
  · rw [if_pos hs.symm, if_pos hs, Option.map_none]
  · rw [if_neg (Ne.symm hs), if_neg hs]
    rfl

end View

/-- The session a call names. -/
def Call.sessionID : Call → SessionID
  | .createSession id _ _ => id
  | .deleteSession id => id
  | .addPlayerToSession sessionID _ _ => sessionID
  | .removePlayerFromSession sessionID _ => sessionID

/-! ## Who belongs to the session -/

def Belongs (S : SessionID) (M : PlayerID → Bool) (K : List Conn) (sid : SessionID) (p : PlayerID)
    (info : PlayerInfo) : Prop :=
  (sid = S ↔ M p = true) ∧ ∀ c, info.tcpConn = some c → (c ∈ K ↔ sid = S)

structure Isolated (S : SessionID) (M : PlayerID → Bool) (K : List Conn) (sm : SessionManager) : Prop where
  consistent : Consistent sm
  players : PlayersAll (Belongs S M K) sm

namespace Isolated
variable {S : SessionID} {M : PlayerID → Bool} {K : List Conn} {sm : SessionManager}

theorem index (h : Isolated S M K sm) {p : PlayerID} {sid : SessionID}
    (hi : sm.playerIndex.lookup p = some sid) : sid = S ↔ M p = true := by
  obtain ⟨r, hr, hp⟩ := (h.consistent.index_iff p sid).mp hi
  obtain ⟨info, hinfo⟩ := Table.lookup_of_mem hp
  exact (h.players sid r hr p info hinfo).1

theorem sameTables (h : Isolated S M K sm) {sm' : SessionManager} (hs : SameTables sm sm') :
    Isolated S M K sm' :=
  ⟨hs.consistent h.consistent, hs.playersAll h.players⟩

theorem call (h : Isolated S M K sm) {c : Call}
    (hjoin : ∀ sid p, joinedBy c (sm.call c).1 = some (sid, p) → (sid = S ↔ M p = true)) :
    Isolated S M K (sm.call c).2 := by
  refine ⟨h.consistent.call c, h.players.outcome h.consistent (call_outcome h.consistent c)
    (fun _ _ _ _ hq => hq) fun sid p hj => ⟨fun login => ⟨hjoin sid p hj, ?_⟩, fun info hq => ⟨hq.1, ?_⟩⟩⟩
  · intro conn hconn
    cases hconn
  · intro conn hconn
    cases hconn

theorem reap (h : Isolated S M K sm) (o : ReapOrder) (clk : ReapClock) :
    Isolated S M K (sm.reapStaleSessions o clk).sm :=
  ⟨h.consistent.reapStaleSessions o clk, h.players.reapApply (distinct_reapCollect h.consistent o clk)⟩

/-- The update of a sender that is in the session under `sid`. -/
theorem updateSender (h : Isolated S M K sm) {sid : SessionID} {r : SessionRef}
    (hr : sm.sessions.lookup sid = some r) {p : PlayerID} (hp : p ∈ (sm.session r).players)
    {src : Endpoint} (hsrc : ∀ c, src = .tcp c → (c ∈ K ↔ sid = S)) (now : Instant) :
    Isolated S M K (sm.modifySession r fun _ => ((sm.session r).updateSender src p now).2.2) := by
  obtain ⟨info, hinfo⟩ := Table.lookup_of_mem hp
  obtain ⟨info', heq, hnew, -⟩ := Session.updateSender_of_lookup src hinfo now
  have hb := h.players sid r hr p info hinfo
  have hi := (h.consistent.mem_iff hr p).mp hp
  have hmod : (sm.modifySession r fun _ => ((sm.session r).updateSender src p now).2.2) =
      sm.modifySession r fun s => { s with players := s.players.insert p info' } :=
    modifySession_congr heq
  rw [hmod]
  refine ⟨h.consistent.modifySession r (Session.sameMembers_insert hp info'),
    h.players.insertPlayer h.consistent hr ?_ (fun _ _ _ _ hq => hq) ⟨hb.1, fun c hc => ?_⟩⟩
  · intro sid' hi'
    rw [hi] at hi'
    exact (Option.some.inj hi').symm
  · exact (hnew c hc).elim (hb.2 c) (hsrc c)

/-! ## Calls -/

/-- A call that names another session, made for players outside `M`. -/
theorem view_outcome (h : Isolated S M K sm) {c : Call} {res : Except SessionError Unit}
    {sm' : SessionManager} (ho : CallOutcome sm c res sm') (hother : c.sessionID ≠ S)
    (hjoin : ∀ sid p login, c = .addPlayerToSession sid p login → M p = false) :
    sm'.view S = sm.view S := by
  have hc := h.consistent
  have hout : ∀ {p sid' : _}, M p = false → sm.playerIndex.lookup p = some sid' → sid' ≠ S := by
    intro p sid' hp hi he
    rw [(h.index hi).mp he] at hp
    cases hp
  cases ho with
  | failed e => rfl
  | created _ _ => exact (view_putSession hc _ _ _).trans (if_neg hother)
  | deleted hr => exact (view_dropSession _ _).trans (if_neg hother)
  | rejoined hr hi => exact (view_modifySession hc hr _).trans (if_neg hother)
  | joined hr hi => exact (view_putPlayer hc hr _ _).trans (if_neg hother)
  | refused e hi hold hp =>
    exact (view_dropPlayer hc hold _).trans (if_neg (hout (hjoin _ _ _ rfl) hi))
  | migrated hr hi _ hold hp =>
    have hsecond := view_putPlayer (S := S) (hc.dropPlayer hold hp) hr
    exact (hsecond _ _).trans ((if_neg hother).trans
      ((view_dropPlayer hc hold _).trans (if_neg (hout (hjoin _ _ _ rfl) hi))))
  | left hr hp => exact (view_dropPlayer hc hr _).trans (if_neg hother)

end Isolated

/-- The error is one of the two limits on the whole server. -/
def atCapacity : Except SessionError Unit → Bool
  | .error (.sessionCapacity _) => true
  | .error (.playerCapacity _) => true
  | _ => false

section SoloCalls
variable {S : SessionID} {sm : SessionManager}

theorem create_solo (hc : Consistent sm) {maxPlayers : ℤ} {now : Instant}
    (hcap : atCapacity (sm.call (.createSession S maxPlayers now)).1 = false) :
    (sm.call (.createSession S maxPlayers now)).1 = (Solo.create S maxPlayers now (sm.view S)).1 ∧
    (sm.call (.createSession S maxPlayers now)).2.view S =
      (Solo.create S maxPlayers now (sm.view S)).2 := by
  by_cases hid : S ∈ sm.sessions
  · obtain ⟨r, hr⟩ := Table.lookup_of_mem hid
    have heq : sm.createSession S maxPlayers now = (.error (.sessionExists S), sm) := if_pos hid
    rw [view_of_lookup hr, call, heq]
    exact ⟨rfl, view_of_lookup hr⟩
  · have hnone := view_of_none (AList.lookup_eq_none.mpr hid)
    have hroom : ¬ maxTotalSessions ≤ sm.sessions.len := by
      intro hfull
      have heq : sm.createSession S maxPlayers now = (.error (.sessionCapacity maxTotalSessions), sm) :=
        (if_neg hid).trans (if_pos hfull)
      rw [call, heq] at hcap
      cases hcap
    have heq : sm.createSession S maxPlayers now = (.ok sm.heap.next, sm.putSession S maxPlayers now) :=
      (if_neg hid).trans (if_neg hroom)
    rw [hnone, call, heq]
    exact ⟨rfl, (view_putSession hc S maxPlayers now).trans (if_pos rfl)⟩

theorem delete_solo : (sm.call (.deleteSession S)).1 = (Solo.delete S (sm.view S)).1 ∧
    (sm.call (.deleteSession S)).2.view S = (Solo.delete S (sm.view S)).2 := by
  rw [call, deleteSession]
  cases hr : sm.sessions.lookup S with
  | none =>
    rw [view_of_none hr]
    exact ⟨rfl, rfl⟩
  | some r =>
    rw [view_of_lookup hr]
    exact ⟨rfl, (view_dropSession S r).trans (if_pos rfl)⟩

theorem leave_solo (hc : Consistent sm) (p : PlayerID) :
    (sm.call (.removePlayerFromSession S p)).1 = (Solo.leave S p (sm.view S)).1 ∧
    (sm.call (.removePlayerFromSession S p)).2.view S = (Solo.leave S p (sm.view S)).2 := by
  rw [call, removePlayerFromSession]
  cases hr : sm.sessions.lookup S with
  | none =>
    rw [view_of_none hr]
    exact ⟨rfl, rfl⟩
  | some r =>
    rw [view_of_lookup hr, Solo.leave]
    by_cases hp : p ∈ (sm.session r).players
    · simp only [Session.removePlayer_fst, hp, decide_true, if_true, true_and]
      exact (view_dropPlayer hc hr p).trans (if_pos rfl)
    · simp only [Session.removePlayer_fst, hp, decide_false, Bool.false_eq_true, if_false,
        modifySession_removePlayer_of_notMem hp, true_and]
      exact view_of_lookup hr

/-- The rest of a join, in a state where the player is in no other session. -/
theorem admit_solo (hc : Consistent sm) {r : SessionRef} (hr : sm.sessions.lookup S = some r)
    {p : PlayerID} (hp : p ∉ (sm.session r).players) {login : String}
    (hcap : atCapacity (sm.admitPlayer r S p login).1 = false) :
    (sm.admitPlayer r S p login).1 = (Solo.join S p login (sm.view S)).1 ∧
    (sm.admitPlayer r S p login).2.view S = (Solo.join S p login (sm.view S)).2 := by
  have hroom : ¬ maxTotalPlayers ≤ sm.playerIndex.len := by
    intro hfull
    rw [admitPlayer, if_pos hfull] at hcap
    cases hcap
  rw [view_of_lookup hr, Solo.join, if_neg hp, admitPlayer, if_neg hroom]
  cases (sm.session r).addPlayer p login with
  | error e => exact ⟨rfl, view_of_lookup hr⟩
  | ok s' =>
    refine ⟨rfl, ?_⟩
    exact (view_modifySession hc hr fun _ => s').trans (if_pos rfl)

theorem join_solo (hc : Consistent sm) {p : PlayerID} {login : String}
    (hcap : atCapacity (sm.call (.addPlayerToSession S p login)).1 = false) :
    (sm.call (.addPlayerToSession S p login)).1 = (Solo.join S p login (sm.view S)).1 ∧
    (sm.call (.addPlayerToSession S p login)).2.view S = (Solo.join S p login (sm.view S)).2 := by
  rw [call, addPlayerToSession] at hcap ⊢
  cases hr : sm.sessions.lookup S with
  | none =>
    rw [view_of_none hr]
    exact ⟨rfl, rfl⟩
  | some r =>
    simp only [hr] at hcap ⊢
    cases hi : sm.playerIndex.lookup p with
    | none =>
      simp only [hi] at hcap ⊢
      have hp : p ∉ (sm.session r).players := by
        rw [hc.mem_iff hr, hi]
        exact Option.some_ne_none S ∘ Eq.symm
      exact admit_solo hc hr hp hcap
    | some sid' =>
      by_cases hs : sid' = S
      · subst hs
        simp only [if_true]
        rw [view_of_lookup hr, Solo.join, if_pos ((hc.mem_iff hr p).mpr hi)]
        exact ⟨rfl, (view_modifySession hc hr _).trans (if_pos rfl)⟩
      · -- the removal from the old session does not show
        obtain ⟨old, hold, hmem⟩ := (hc.index_iff p sid').mp hi
        have hne : r ≠ old := by
          rintro rfl
          exact hs (hc.ref_inj hold hr)
        have hview : (sm.dropPlayer old p).view S = sm.view S :=
          (view_dropPlayer hc hold p).trans (if_neg hs)
        have hp : p ∉ ((sm.dropPlayer old p).session r).players := by
          rw [dropPlayer_session_ne _ _ _ hne, hc.mem_iff hr, hi]
          exact fun he => hs (Option.some.inj he)
        simp only [hi, if_neg hs, detachPlayer_eq p hold] at hcap ⊢
        rw [← hview]
        exact admit_solo (hc.dropPlayer hold hmem) hr hp hcap

/-- A call that names the session does to it what it would do to a session on its own. -/
theorem call_solo (hc : Consistent sm) {c : Call} (hs : c.sessionID = S)
    (hcap : atCapacity (sm.call c).1 = false) :
    (sm.call c).1 = (Solo.call c (sm.view S)).1 ∧ (sm.call c).2.view S = (Solo.call c (sm.view S)).2 := by
  cases c with
  | createSession id maxPlayers now =>
    obtain rfl : id = S := hs
    exact create_solo hc hcap
  | deleteSession id =>
    obtain rfl : id = S := hs
    exact delete_solo
  | addPlayerToSession sid p login =>
    obtain rfl : sid = S := hs
    exact join_solo hc hcap
  | removePlayerFromSession sid p =>
    obtain rfl : sid = S := hs
    exact leave_solo hc p

end SoloCalls

/-! ## Reaper passes -/

def ReapClock.solo (clk : ReapClock) (sid : SessionID) : SoloClock where
  collect := clk.collect
  scan := clk.scan sid
  apply := clk.apply
  check := clk.check sid

section SoloReap
variable {S : SessionID} {M : PlayerID → Bool} {K : List Conn} {sm : SessionManager}

/-- The candidate phase 1 makes of the session, if it makes one. -/
def soloCandidate (o : ReapOrder) (clk : ReapClock) (sm : SessionManager) (S : SessionID)
    (r : SessionRef) : ReapCandidate where
  sessionID := S
  session := r
  stalePIDs := (sm.session r).stalePlayers (o.players S) playerTimeout (clk.scan S)

theorem eq_soloCandidate {o : ReapOrder} {clk : ReapClock} {r : SessionRef}
    (hr : sm.sessions.lookup S = some r) {c : ReapCandidate} (hcm : c ∈ reapCollect o clk sm)
    (hs : c.sessionID = S) : c = soloCandidate o clk sm S r := by
  obtain ⟨hlive, hstale, -⟩ := mem_reapCollect.mp hcm
  obtain ⟨csid, cr, cps⟩ := c
  dsimp only at hs hlive hstale
  subst hs
  rw [hr] at hlive
  cases hlive
  rw [hstale]
  rfl

/-- A connection that only players of `S` use is closed for one of them. -/
theorem Isolated.conn_reaped (h : Isolated S M K sm) {o : ReapOrder} {clk : ReapClock}
    {c : ReapCandidate} (hcm : c ∈ reapCollect o clk sm) {conn : Conn} (hK : conn ∈ K)
    (hconn : conn ∈ reapedConns clk sm c) : c.sessionID = S := by
  obtain ⟨p, -, hp⟩ := List.mem_flatMap.mp hconn
  obtain ⟨info, hinfo, htcp⟩ := mem_connOf.mp hp
  exact ((h.players _ _ (mem_reapCollect.mp hcm).1 p info hinfo).2 conn htcp).mp hK

theorem mem_emptiedIDs_solo {o : ReapOrder} {clk : ReapClock} {r : SessionRef}
    (hr : sm.sessions.lookup S = some r) (hcm : soloCandidate o clk sm S r ∈ reapCollect o clk sm) :
    S ∈ emptiedIDs clk sm (reapCollect o clk sm) ↔
      emptied clk sm (soloCandidate o clk sm S r) = true := by
  rw [mem_emptiedIDs]
  constructor
  · rintro ⟨c, hc, he, hs⟩
    rw [← eq_soloCandidate hr hc hs]
    exact he
  · exact fun he => ⟨_, hcm, he, rfl⟩

theorem solo_reap_of_candidate {o : ReapOrder} {clk : ReapClock} {r : SessionRef}
    (hcm : soloCandidate o clk sm S r ∈ reapCollect o clk sm) :
    Solo.reap (o.players S) (clk.solo S) (some (sm.session r)) =
      (if emptied clk sm (soloCandidate o clk sm S r) then none else some { sm.session r with
        players := (sm.session r).players.eraseAll (reaped clk sm (soloCandidate o clk sm S r)) },
      reapedConns clk sm (soloCandidate o clk sm S r)) := by
  refine (if_pos (mem_reapCollect.mp hcm).2.2).trans (Prod.ext ?_ rfl)
  unfold emptied
  simp only [decide_eq_true_eq]
  rfl

theorem solo_reap_of_no_candidate {o : ReapOrder} {clk : ReapClock} {r : SessionRef}
    (hr : sm.sessions.lookup S = some r) (hno : soloCandidate o clk sm S r ∉ reapCollect o clk sm) :
    Solo.reap (o.players S) (clk.solo S) (some (sm.session r)) = (some (sm.session r), []) :=
  if_neg fun hcond => hno (mem_reapCollect.mpr ⟨hr, rfl, hcond⟩)

/-- The session after a pass. -/
theorem view_reap (hc : Consistent sm) (o : ReapOrder) (clk : ReapClock) :
    (sm.reapStaleSessions o clk).sm.view S =
      (Solo.reap (o.players S) (clk.solo S) (sm.view S)).1 := by
  have he := reapEffect_reapApply clk (distinct_reapCollect hc o clk) sm
  have hlookup : (sm.reapStaleSessions o clk).sm.sessions.lookup S =
      if S ∈ emptiedIDs clk sm (reapCollect o clk sm) then none else sm.sessions.lookup S := by
    rw [show (sm.reapStaleSessions o clk).sm.sessions = _ from he.sessions, Table.lookup_eraseAll]
  cases hr : sm.sessions.lookup S with
  | none =>
    rw [hr, ite_self] at hlookup
    rw [view_of_none hr, view_of_none hlookup]
    rfl
  | some r =>
    rw [hr] at hlookup
    rw [view_of_lookup hr]
    by_cases hcand : soloCandidate o clk sm S r ∈ reapCollect o clk sm
    · have hgone := mem_emptiedIDs_solo hr hcand
      rw [solo_reap_of_candidate hcand]
      cases hempty : emptied clk sm (soloCandidate o clk sm S r) with
      | true =>
        rw [if_pos (hgone.mpr hempty)] at hlookup
        exact view_of_none hlookup
      | false =>
        rw [if_neg fun hin => Bool.eq_false_iff.mp hempty (hgone.mp hin)] at hlookup
        exact (view_of_lookup hlookup).trans (congrArg some (he.session_mem _ hcand))
    · have hnone : ∀ c ∈ reapCollect o clk sm, c.sessionID ≠ S := fun c hcm hs =>
        hcand (eq_soloCandidate hr hcm hs ▸ hcm)
      rw [if_neg fun hin => by
        obtain ⟨c, hcm, -, hs⟩ := mem_emptiedIDs.mp hin
        exact hnone c hcm hs] at hlookup
      rw [solo_reap_of_no_candidate hr hcand, view_of_lookup hlookup]
      refine congrArg some (he.session_other r fun c hcm hrc => hnone c hcm ?_)
      exact hc.ref_inj (mem_reapCollect.mp hcm).1 (hrc ▸ hr)

/-- The connections of the session that a pass closes. -/
theorem Isolated.closed_reap (h : Isolated S M K sm) (o : ReapOrder) (clk : ReapClock) {conn : Conn}
    (hK : conn ∈ K) : conn ∈ (sm.reapStaleSessions o clk).closed ↔
      conn ∈ (Solo.reap (o.players S) (clk.solo S) (sm.view S)).2 := by
  have hclosed : conn ∈ (sm.reapStaleSessions o clk).closed ↔
      ∃ c ∈ reapCollect o clk sm, c.sessionID = S ∧ conn ∈ reapedConns clk sm c := by
    rw [show (sm.reapStaleSessions o clk).closed = _ from
      reapApply_closed clk (distinct_reapCollect h.consistent o clk) sm, List.mem_flatMap]
    exact exists_congr fun c => and_congr_right fun hcm =>
      ⟨fun hconn => ⟨h.conn_reaped hcm hK hconn, hconn⟩, fun hconn => hconn.2⟩
  rw [hclosed]
  cases hr : sm.sessions.lookup S with
  | none =>
    rw [view_of_none hr]
    refine iff_of_false ?_ List.not_mem_nil
    rintro ⟨c, hcm, rfl, -⟩
    rw [(mem_reapCollect.mp hcm).1] at hr
    cases hr
  | some r =>
    rw [view_of_lookup hr]
    by_cases hcand : soloCandidate o clk sm S r ∈ reapCollect o clk sm
    · rw [solo_reap_of_candidate hcand]
      constructor
      · rintro ⟨c, hcm, hs, hconn⟩
        exact eq_soloCandidate hr hcm hs ▸ hconn
      · exact fun hconn => ⟨_, hcand, rfl, hconn⟩
    · rw [solo_reap_of_no_candidate hr hcand]
      refine iff_of_false ?_ List.not_mem_nil
      rintro ⟨c, hcm, hs, -⟩
      exact hcand (eq_soloCandidate hr hcm hs ▸ hcm)

end SoloReap
end SessionManager
end SturmRelay
