import SturmRelay.Foundations.Bytes
import SturmRelay.Foundations.Runs
import SturmRelay.Relay.HTTPAPI

/-! # Authorisation and rate limits in front of the handlers

`internal/relay/httpapi.go`, `ServeHTTP`: the method decides between the key check followed by the
global and the per-IP limiter, and the read limiter; what passes goes to the mux. Each limiter reads
the clock for itself, and so does `CreateSession`, so a request carries three instants.

What `net/http` does is a parameter (`NetHTTP`): which handler its mux picks, or which answer the
mux gives on its own, and how `net.SplitHostPort` splits an address.

`unauthorized_invisible`: with a key configured, a request without it changes nothing the session
manager holds, and the requests the key check refuses can be deleted from any sequence of requests
without changing a limiter, the session manager, or the answer to any other request. -/

namespace SturmRelay
set_option autoImplicit false

/-! ## Rate limits -/

def uint64Size : ℕ := 2 ^ 64

structure HTTPRateLimit where
  count : ℕ := 0
  second : ℤ := 0
  maxRate : ℕ
  deriving DecidableEq, Repr

def HTTPRateLimit.allow (rl : HTTPRateLimit) (now : Instant) : Bool × HTTPRateLimit :=
  let rl := if rl.second ≠ unix now then { rl with second := unix now, count := 0 } else rl
  let rl := { rl with count := (rl.count + 1) % uint64Size }
  (decide (rl.count ≤ rl.maxRate), rl)

structure IPBucket where
  count : ℕ := 0
  second : ℤ := 0
  deriving DecidableEq, Repr

structure PerIPLimit where
  buckets : Table String IPBucket := ∅

/-- The buckets a full limiter deletes before it looks at the caller's. -/
def PerIPLimit.stale (l : PerIPLimit) (now : ℤ) : List String :=
  l.buckets.keys.filter fun ip => (l.buckets.lookup ip).any fun b => b.second < now - 1

def PerIPLimit.allow (l : PerIPLimit) (ip : String) (maxRate : ℕ) (now : Instant) :
    Bool × PerIPLimit :=
  let buckets :=
    if 10000 < l.buckets.len then Table.eraseAll l.buckets (l.stale (unix now)) else l.buckets
  let b := (buckets.lookup ip).getD {}
  let b := if b.second ≠ unix now then { b with second := unix now, count := 0 } else b
  let b := { b with count := (b.count + 1) % uint64Size }
  (decide (b.count ≤ maxRate), ⟨buckets.insert ip b⟩)

/-! ## Requests -/

/-- What the clock says at each place where serving a request reads it. -/
structure RequestClock where
  rateLimit : Instant
  perIPLimit : Instant
  createSession : Instant
  deriving DecidableEq, Repr

structure Request where
  method : Method
  path : String
  header : Table String (List Bytes)
  remoteAddr : String
  body : Body
  clock : RequestClock

/-- `Header.Get`: the first value under the name, empty if there is none. -/
def Request.headerGet (r : Request) (name : String) : Bytes :=
  match r.header.lookup name with
  | some (value :: _) => value
  | _ => []

/-- The parts of `net/http` and `net` that decide where a request goes. -/
structure NetHTTP where
  mux : Request → Except Response Route
  splitHostPort : String → Option String

def NetHTTP.extractClientIP (lib : NetHTTP) (r : Request) : String :=
  (lib.splitHostPort r.remoteAddr).getD r.remoteAddr

/-- `crypto/subtle`: 1 for equal contents, 0 otherwise. -/
def constantTimeCompare (x y : Bytes) : ℕ := if x = y then 1 else 0

/-! ## The API -/

structure HTTPAPI where
  sm : SessionManager
  rateLimit : HTTPRateLimit
  readRateLimit : HTTPRateLimit
  perIPLimit : PerIPLimit
  perIPRate : ℕ
  apiKey : Bytes

def newHTTPAPI (sm : SessionManager) (apiKey : Bytes) (globalRate perIPRate : ℕ) : HTTPAPI where
  sm := sm
  rateLimit := { maxRate := if globalRate = 0 then 200 else globalRate }
  readRateLimit := { maxRate := 2000 }
  perIPLimit := {}
  perIPRate := if perIPRate = 0 then 20 else perIPRate
  apiKey := apiKey

namespace HTTPAPI

def checkAPIKey (a : HTTPAPI) (r : Request) : Bool :=
  if a.apiKey = [] then true
  else constantTimeCompare (r.headerGet "Authorization") (ascii "Bearer " ++ a.apiKey) == 1

def unauthorized : Response := ⟨401, .error "unauthorized"⟩

def rateLimitExceeded : Response := ⟨429, .error "rate limit exceeded"⟩

def muxServeHTTP (lib : NetHTTP) (a : HTTPAPI) (r : Request) : HTTPAPI × Response :=
  match lib.mux r with
  | .error resp => (a, resp)
  | .ok route =>
    let served := a.sm.serveMux route r.method r.body r.clock.createSession
    ({ a with sm := served.2 }, served.1)

def serveHTTP (lib : NetHTTP) (a : HTTPAPI) (r : Request) : HTTPAPI × Response :=
  if r.method ≠ .get then
    if a.checkAPIKey r = false then (a, unauthorized)
    else
      let global := a.rateLimit.allow r.clock.rateLimit
      let a := { a with rateLimit := global.2 }
      if global.1 = false then (a, rateLimitExceeded)
      else
        let perIP := a.perIPLimit.allow (lib.extractClientIP r) a.perIPRate r.clock.perIPLimit
        let a := { a with perIPLimit := perIP.2 }
        if perIP.1 = false then (a, rateLimitExceeded) else muxServeHTTP lib a r
  else
    let read := a.readRateLimit.allow r.clock.rateLimit
    let a := { a with readRateLimit := read.2 }
    if read.1 = false then (a, rateLimitExceeded) else muxServeHTTP lib a r

/-! ## What a request can do -/

/-- The request carries the key, exactly. -/
def Authorized (key : Bytes) (r : Request) : Prop :=
  r.headerGet "Authorization" = ascii "Bearer " ++ key

instance (key : Bytes) (r : Request) : Decidable (Authorized key r) :=
  inferInstanceAs (Decidable (_ = _))

theorem checkAPIKey_iff {a : HTTPAPI} (hkey : a.apiKey ≠ []) (r : Request) :
    a.checkAPIKey r = true ↔ Authorized a.apiKey r := by
  unfold checkAPIKey constantTimeCompare Authorized
  rw [if_neg hkey]
  split <;> simp_all

section Serve
variable (lib : NetHTTP) (a : HTTPAPI) (r : Request)

@[simp] theorem muxServeHTTP_apiKey : (muxServeHTTP lib a r).1.apiKey = a.apiKey := by
  unfold muxServeHTTP
  split <;> rfl

theorem serveHTTP_apiKey : (serveHTTP lib a r).1.apiKey = a.apiKey := by
  unfold serveHTTP
  dsimp only
  repeat' split
  all_goals simp

variable {lib a r}

theorem serveHTTP_unauthorized (hkey : a.apiKey ≠ []) (hmethod : r.method ≠ .get)
    (hauth : ¬ Authorized a.apiKey r) : serveHTTP lib a r = (a, unauthorized) := by
  have hcheck : a.checkAPIKey r = false :=
    Bool.eq_false_iff.mpr fun h => hauth ((checkAPIKey_iff hkey r).mp h)
  unfold serveHTTP
  rw [if_pos hmethod, if_pos hcheck]

/-- No handler changes anything on GET. -/
theorem serveMux_get (route : Route) (body : Body) (now : Instant) (sm : SessionManager) :
    (sm.serveMux route .get body now).2 = sm := by
  cases route with
  | health => rfl
  | sessions => rfl
  | unhandled => rfl
  | sessionByID path =>
    change (sm.handleSessionByID path .get body).2 = sm
    unfold SessionManager.handleSessionByID
    dsimp only
    split
    · rfl
    · split
      · rfl
      · split
        · unfold SessionManager.handleSessionRoot
          dsimp only
          split <;> rfl
        · split
          · rfl
          · split <;> rfl

theorem muxServeHTTP_get (hmethod : r.method = .get) : (muxServeHTTP lib a r).1.sm = a.sm := by
  unfold muxServeHTTP
  split
  · rfl
  · rw [hmethod]
    exact serveMux_get _ _ _ _

theorem serveHTTP_get (hmethod : r.method = .get) : (serveHTTP lib a r).1.sm = a.sm := by
  unfold serveHTTP
  rw [if_neg (not_not.mpr hmethod)]
  dsimp only
  split
  · rfl
  · exact muxServeHTTP_get hmethod

theorem serveHTTP_sm_of_not_authorized (hkey : a.apiKey ≠ []) (hauth : ¬ Authorized a.apiKey r) :
    (serveHTTP lib a r).1.sm = a.sm := by
  by_cases hmethod : r.method = .get
  · exact serveHTTP_get hmethod
  · rw [serveHTTP_unauthorized hkey hmethod hauth]

end Serve

/-! ## Sequences of requests -/

/-- The requests that are left when the unauthorised ones other than GET are deleted. -/
def admissible (key : Bytes) (r : Request) : Bool := decide (r.method = .get ∨ Authorized key r)

theorem unauthorized_invisible (lib : NetHTTP) (a : HTTPAPI) (hkey : a.apiKey ≠ [])
    (reqs : List Request) :
    AllSteps (serveHTTP lib) (fun before r _ =>
      ¬ Authorized a.apiKey r → (serveHTTP lib before r).1.sm = before.sm) a reqs ∧
    runState (serveHTTP lib) a (reqs.filter (admissible a.apiKey)) = runState (serveHTTP lib) a reqs ∧
    trace (serveHTTP lib) a (reqs.filter (admissible a.apiKey)) =
      (trace (serveHTTP lib) a reqs).filter fun x => admissible a.apiKey x.2.1 := by
  have hinv : ∀ before r, before.apiKey = a.apiKey → (serveHTTP lib before r).1.apiKey = a.apiKey :=
    fun before r h => (serveHTTP_apiKey lib before r).trans h
  constructor
  · refine allSteps_of_invariant (I := fun before => before.apiKey = a.apiKey) (C := fun _ _ _ => True)
      (fun before r h _ => hinv before r h) ?_ rfl (fun _ _ => trivial)
    intro before r h _ hauth
    exact serveHTTP_sm_of_not_authorized (h.symm ▸ hkey) (h.symm ▸ hauth)
  · refine run_filter_of_stutter (I := fun before => before.apiKey = a.apiKey) hinv ?_ rfl reqs
    intro before r h hk
    obtain ⟨hmethod, hauth⟩ := not_or.mp (of_decide_eq_false hk)
    rw [serveHTTP_unauthorized (h.symm ▸ hkey) hmethod (h.symm ▸ hauth)]

/-- The patterns registered with the mux, for paths it does not clean. -/
def registered : NetHTTP where
  mux r :=
    if r.path = "/health" then .ok .health
    else if r.path = "/sessions" then .ok .sessions
    else if r.path.toList.take 10 = "/sessions/".toList then
      .ok (.sessionByID (String.ofList (r.path.toList.drop 10)))
    else .error ⟨404, .error "404 page not found"⟩
  splitHostPort addr := some (String.ofList (addr.toList.takeWhile (· ≠ ':')))

/-- Two attempts to create a session, the second one with the key. -/
def createTwice : List Request :=
  [⟨.post, "/sessions", ∅, "10.0.0.1:4000", { create := some ⟨"game", 8⟩ }, ⟨0, 0, 0⟩⟩,
    ⟨.post, "/sessions", AList.singleton "Authorization" [ascii "Bearer key"], "10.0.0.1:4000",
      { create := some ⟨"game", 8⟩ }, ⟨0, 0, 0⟩⟩]

theorem createTwice_first_invisible :
    let a := newHTTPAPI newSessionManager (ascii "key") 0 0
    a.apiKey ≠ [] ∧ (createTwice.filter (admissible a.apiKey)).length = 1 ∧
      (trace (serveHTTP registered) a createTwice).map (·.2.2) =
        [unauthorized, ⟨201, .created "game" 8⟩] ∧
      runState (serveHTTP registered) a (createTwice.filter (admissible a.apiKey)) =
        runState (serveHTTP registered) a createTwice :=
  ⟨by decide, by decide +kernel, by decide +kernel,
    (unauthorized_invisible registered _ (by decide) createTwice).2.1⟩

end HTTPAPI
end SturmRelay
