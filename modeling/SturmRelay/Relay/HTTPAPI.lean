import SturmRelay.Relay.Consistency

/-! # The HTTP API of the session manager

`internal/relay/httpapi.go`, the handlers behind the mux. A request reaches them as its route, its
method and, for each of the three request types, what `decodeJSONBody` makes of its body (`none`
when decoding fails), so every body the decoder can be given is covered. Log lines are left out.

`serveMux_effect`: whatever the request, its effect on the manager is that of at most one call,
with arguments the handlers have checked. -/

namespace SturmRelay
set_option autoImplicit false

inductive Method
  | get
  | post
  | delete
  | other (name : String)
  deriving DecidableEq, Repr

/-- Where the mux sends a request. `sessionByID` carries the path after `/sessions/`; `unhandled`
is a request the mux answers itself. -/
inductive Route
  | health
  | sessions
  | sessionByID (path : String)
  | unhandled
  deriving DecidableEq, Repr

structure CreateRequest where
  sessionID : SessionID
  maxPlayers : ℤ
  deriving DecidableEq, Repr

structure JoinRequest where
  playerID : PlayerID
  login : String
  deriving DecidableEq, Repr

structure LeaveRequest where
  playerID : PlayerID
  deriving DecidableEq, Repr

/-- The body of a request, as `decodeJSONBody` reads it into each of the request types. -/
structure Body where
  create : Option CreateRequest := none
  join : Option JoinRequest := none
  leave : Option LeaveRequest := none
  deriving DecidableEq, Repr

inductive Payload
  | error (text : String)
  | health (activeSessions activePlayers : ℤ)
  | created (sessionID : SessionID) (maxPlayers : ℤ)
  | info (sessionID : SessionID) (maxPlayers : ℤ) (playerCount : ℕ) (playerIDs : List PlayerID)
  | joined (sessionID : SessionID) (playerID : PlayerID)
  | empty
  deriving DecidableEq, Repr

structure Response where
  status : ℕ
  payload : Payload
  deriving DecidableEq, Repr

def maxSessionPlayers : ℤ := 32

/-- `^[a-zA-Z0-9_-]{1,64}$`. -/
def sessionIDPattern (id : String) : Bool :=
  decide (1 ≤ id.toList.length) && decide (id.toList.length ≤ 64) &&
    id.toList.all fun c =>
      ('a' ≤ c && c ≤ 'z') || ('A' ≤ c && c ≤ 'Z') || ('0' ≤ c && c ≤ '9') || c == '_' || c == '-'

/-- `strings.SplitN(path, "/", 2)`: the session ID and the action, empty if there is none. -/
def splitAction (path : String) : String × String :=
  (String.ofList (path.toList.takeWhile (· ≠ '/')),
    String.ofList ((path.toList.dropWhile (· ≠ '/')).drop 1))

/-- The player limit a creation request ends up with. -/
def clampMaxPlayers (maxPlayers : ℤ) : ℤ :=
  let maxPlayers := if maxPlayers ≤ 0 then 12 else maxPlayers
  if maxPlayers > maxSessionPlayers then maxSessionPlayers else maxPlayers

namespace SessionManager

def methodNotAllowed : Response := ⟨405, .error "method not allowed"⟩

def handleHealth (method : Method) (sm : SessionManager) : Response :=
  if method ≠ .get then methodNotAllowed
  else ⟨200, .health sm.metrics.activeSessions sm.metrics.activePlayers⟩

def handleSessions (method : Method) (body : Body) (now : Instant) (sm : SessionManager) :
    Response × SessionManager :=
  if method ≠ .post then (methodNotAllowed, sm)
  else
    match body.create with
    | none => (⟨400, .error "invalid request body"⟩, sm)
    | some req =>
      if req.sessionID = "" then (⟨400, .error "session_id required"⟩, sm)
      else if sessionIDPattern req.sessionID = false then
        (⟨400, .error "session_id must be alphanumeric/hyphens/underscores, max 64 chars"⟩, sm)
      else
        match sm.createSession req.sessionID (clampMaxPlayers req.maxPlayers) now with
        | (.error e, sm) => (⟨409, .error e.message⟩, sm)
        | (.ok r, sm) => (⟨201, .created (sm.session r).id (sm.session r).maxPlayers⟩, sm)

def handleSessionRoot (method : Method) (sessionID : SessionID) (sm : SessionManager) :
    Response × SessionManager :=
  match method with
  | .get =>
    match sm.getSession sessionID with
    | none => (⟨404, .error "session not found"⟩, sm)
    | some r =>
      let s := sm.session r
      (⟨200, .info s.id s.maxPlayers s.playerCount s.playerIDs⟩, sm)
  | .delete =>
    match sm.deleteSession sessionID with
    | (.error e, sm) => (⟨404, .error e.message⟩, sm)
    | (.ok _, sm) => (⟨204, .empty⟩, sm)
  | _ => (methodNotAllowed, sm)

def handleSessionJoin (method : Method) (sessionID : SessionID) (body : Body) (sm : SessionManager) :
    Response × SessionManager :=
  if method ≠ .post then (methodNotAllowed, sm)
  else
    match body.join with
    | none => (⟨400, .error "invalid request body"⟩, sm)
    | some req =>
      if req.playerID = 0 then (⟨400, .error "player_id required"⟩, sm)
      else
        match sm.addPlayerToSession sessionID req.playerID req.login with
        | (.error e, sm) => (⟨409, .error e.message⟩, sm)
        | (.ok _, sm) => (⟨200, .joined sessionID req.playerID⟩, sm)

def handleSessionLeave (method : Method) (sessionID : SessionID) (body : Body) (sm : SessionManager) :
    Response × SessionManager :=
  if method ≠ .post then (methodNotAllowed, sm)
  else
    match body.leave with
    | none => (⟨400, .error "invalid request body"⟩, sm)
    | some req =>
      if req.playerID = 0 then (⟨400, .error "player_id required"⟩, sm)
      else
        match sm.removePlayerFromSession sessionID req.playerID with
        | (.error e, sm) => (⟨404, .error e.message⟩, sm)
        | (.ok _, sm) => (⟨204, .empty⟩, sm)

def handleSessionByID (path : String) (method : Method) (body : Body) (sm : SessionManager) :
    Response × SessionManager :=
  let sessionID := (splitAction path).1
  let action := (splitAction path).2
  if sessionID = "" then (⟨400, .error "session_id required in path"⟩, sm)
  else if sessionIDPattern sessionID = false then (⟨400, .error "invalid session_id"⟩, sm)
  else if action = "" then sm.handleSessionRoot method sessionID
  else if action = "join" then sm.handleSessionJoin method sessionID body
  else if action = "leave" then sm.handleSessionLeave method sessionID body
  else (⟨404, .error "unknown action"⟩, sm)

/-- The mux and the handler it picks. -/
def serveMux (route : Route) (method : Method) (body : Body) (now : Instant) (sm : SessionManager) :
    Response × SessionManager :=
  match route with
  | .health => (sm.handleHealth method, sm)
  | .sessions => sm.handleSessions method body now
  | .sessionByID path => sm.handleSessionByID path method body
  | .unhandled => (⟨404, .error "404 page not found"⟩, sm)

/-! ## The effect of a request -/

/-- The calls the handlers make. -/
def Call.Admissible : Call → Prop
  | .createSession id maxPlayers _ =>
    sessionIDPattern id = true ∧ 1 ≤ maxPlayers ∧ maxPlayers ≤ maxSessionPlayers
  | .deleteSession id => sessionIDPattern id = true
  | .addPlayerToSession sessionID playerID _ => sessionIDPattern sessionID = true ∧ playerID ≠ 0
  | .removePlayerFromSession sessionID playerID => sessionIDPattern sessionID = true ∧ playerID ≠ 0

theorem clampMaxPlayers_bounds (maxPlayers : ℤ) :
    1 ≤ clampMaxPlayers maxPlayers ∧ clampMaxPlayers maxPlayers ≤ maxSessionPlayers := by
  unfold clampMaxPlayers maxSessionPlayers
  dsimp only
  split <;> split <;> omega

/-- No effect, or the effect of one admissible call. -/
def CallEffect (sm sm' : SessionManager) : Prop :=
  sm' = sm ∨ ∃ c : Call, c.Admissible ∧ sm' = (sm.call c).2

theorem handleSessions_effect (method : Method) (body : Body) (now : Instant) (sm : SessionManager) :
    CallEffect sm (sm.handleSessions method body now).2 := by
  unfold handleSessions
  split
  · exact Or.inl rfl
  · split
    · exact Or.inl rfl
    · next req _ =>
      split
      · exact Or.inl rfl
      · split
        · exact Or.inl rfl
        · next hpat =>
          refine Or.inr ⟨.createSession req.sessionID (clampMaxPlayers req.maxPlayers) now, ?_, ?_⟩
          · exact ⟨by simpa using hpat, clampMaxPlayers_bounds req.maxPlayers⟩
          · unfold call
            split <;> simp_all

theorem handleSessionRoot_call (method : Method) (sid : SessionID) (sm : SessionManager) :
    (sm.handleSessionRoot method sid).2 = sm ∨
    (sm.handleSessionRoot method sid).2 = (sm.call (.deleteSession sid)).2 := by
  unfold handleSessionRoot
  split
  · split <;> exact Or.inl rfl
  · refine Or.inr ?_
    unfold call
    split <;> simp_all
  · exact Or.inl rfl

theorem handleSessionRoot_effect (method : Method) {sid : SessionID} (hsid : sessionIDPattern sid = true)
    (sm : SessionManager) : CallEffect sm (sm.handleSessionRoot method sid).2 := by
  rcases handleSessionRoot_call method sid sm with h | h
  · exact Or.inl h
  · exact Or.inr ⟨.deleteSession sid, hsid, h⟩

/-- A join request makes at most the call it is for. -/
theorem handleSessionJoin_call (method : Method) (sid : SessionID) (body : Body) (sm : SessionManager) :
    (sm.handleSessionJoin method sid body).2 = sm ∨
    ∃ req, body.join = some req ∧ req.playerID ≠ 0 ∧ (sm.handleSessionJoin method sid body).2 =
      (sm.call (.addPlayerToSession sid req.playerID req.login)).2 := by
  unfold handleSessionJoin
  split
  · exact Or.inl rfl
  · split
    · exact Or.inl rfl
    · next req hreq =>
      split
      · exact Or.inl rfl
      · next hp =>
        refine Or.inr ⟨req, hreq, hp, ?_⟩
        unfold call
        split <;> simp_all

theorem handleSessionJoin_effect (method : Method) {sid : SessionID} (hsid : sessionIDPattern sid = true)
    (body : Body) (sm : SessionManager) : CallEffect sm (sm.handleSessionJoin method sid body).2 := by
  rcases handleSessionJoin_call method sid body sm with h | ⟨req, -, hp, h⟩
  · exact Or.inl h
  · exact Or.inr ⟨.addPlayerToSession sid req.playerID req.login, ⟨hsid, hp⟩, h⟩

theorem handleSessionLeave_call (method : Method) (sid : SessionID) (body : Body) (sm : SessionManager) :
    (sm.handleSessionLeave method sid body).2 = sm ∨
    ∃ req, body.leave = some req ∧ req.playerID ≠ 0 ∧ (sm.handleSessionLeave method sid body).2 =
      (sm.call (.removePlayerFromSession sid req.playerID)).2 := by
  unfold handleSessionLeave
  split
  · exact Or.inl rfl
  · split
    · exact Or.inl rfl
    · next req hreq =>
      split
      · exact Or.inl rfl
      · next hp =>
        refine Or.inr ⟨req, hreq, hp, ?_⟩
        unfold call
        split <;> simp_all

theorem handleSessionLeave_effect (method : Method) {sid : SessionID} (hsid : sessionIDPattern sid = true)
    (body : Body) (sm : SessionManager) : CallEffect sm (sm.handleSessionLeave method sid body).2 := by
  rcases handleSessionLeave_call method sid body sm with h | ⟨req, -, hp, h⟩
  · exact Or.inl h
  · exact Or.inr ⟨.removePlayerFromSession sid req.playerID, ⟨hsid, hp⟩, h⟩

theorem serveMux_effect (route : Route) (method : Method) (body : Body) (now : Instant)
    (sm : SessionManager) : CallEffect sm (sm.serveMux route method body now).2 := by
  cases route with
  | health => exact Or.inl rfl
  | sessions => exact handleSessions_effect method body now sm
  | unhandled => exact Or.inl rfl
  | sessionByID path =>
    change CallEffect sm (sm.handleSessionByID path method body).2
    unfold handleSessionByID
    dsimp only
    split
    · exact Or.inl rfl
    · split
      · exact Or.inl rfl
      · next hpat =>
        have hsid : sessionIDPattern (splitAction path).1 = true := by simpa using hpat
        split
        · exact handleSessionRoot_effect method hsid sm
        · split
          · exact handleSessionJoin_effect method hsid body sm
          · split
            · exact handleSessionLeave_effect method hsid body sm
            · exact Or.inl rfl

end SessionManager

end SturmRelay
