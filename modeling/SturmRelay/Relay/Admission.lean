import SturmRelay.Relay.PerIPLimit

/-! # Which requests reach the handlers

`internal/relay/httpapi.go`, `ServeHTTP` with its three limiters, against the requests so far. A
`Ledger` keeps no counters and no seconds: it remembers the requests that each limiter was asked about,
and a limiter allows a request if it was asked about fewer than its rate in the same second. As long as
no clock reading goes back, and for fewer than `2 ^ 64` requests, the server answers as the ledger does.

The global limiter is asked first, and counts what the per-IP limiter then refuses. So one address can
use up the second for everybody, which is what `budget_shared` says. -/

namespace SturmRelay
set_option autoImplicit false

namespace HTTPRateLimit

/-! ## A limiter and the calls so far -/

/-- What the limiter says about a second. -/
def countAt (rl : HTTPRateLimit) (sec : ℤ) : ℕ := if rl.second = sec then rl.count else 0

theorem allow_fst (rl : HTTPRateLimit) (now : Instant) :
    (rl.allow now).1 = decide ((rl.countAt (unix now) + 1) % uint64Size ≤ rl.maxRate) := by
  unfold allow countAt
  by_cases h : rl.second = unix now
  · simp only [h, ne_eq, not_true_eq_false, if_false, if_true]
  · simp only [h, ne_eq, not_false_eq_true, if_false, if_true]

theorem countAt_allow (rl : HTTPRateLimit) (now : Instant) (sec : ℤ) :
    (rl.allow now).2.countAt sec =
      if sec = unix now then (rl.countAt sec + 1) % uint64Size else 0 := by
  unfold allow countAt
  by_cases h : rl.second = unix now
  · by_cases hsec : sec = unix now
    · simp only [h, hsec, ne_eq, not_true_eq_false, if_false, if_true]
    · simp only [h, ne_eq, not_true_eq_false, if_false, if_neg hsec, if_neg (Ne.symm hsec)]
  · by_cases hsec : sec = unix now
    · simp only [h, hsec, ne_eq, not_false_eq_true, if_false, if_true]
    · simp only [h, ne_eq, not_false_eq_true, if_true, if_neg hsec, if_neg (Ne.symm hsec)]

@[simp] theorem allow_maxRate (rl : HTTPRateLimit) (now : Instant) :
    (rl.allow now).2.maxRate = rl.maxRate := by
  unfold allow
  dsimp only
  split <;> rfl

/-- From the second `now` on, the limiter counts the calls made at `times`. -/
structure Tallies (times : List Instant) (now : ℤ) (rl : HTTPRateLimit) : Prop where
  past : ∀ t ∈ times, unix t ≤ now
  count : ∀ sec, now ≤ sec → rl.countAt sec = times.countP (unix · = sec) % uint64Size

theorem tallies_start (now : ℤ) (maxRate : ℕ) : Tallies [] now { maxRate := maxRate } where
  past t ht := absurd ht List.not_mem_nil
  count sec _ := by
    unfold countAt
    exact ite_self 0

theorem Tallies.mono {times : List Instant} {now now' : ℤ} {rl : HTTPRateLimit}
    (h : Tallies times now rl) (hle : now ≤ now') : Tallies times now' rl where
  past t ht := (h.past t ht).trans hle
  count sec hs := h.count sec (hle.trans hs)

/-- One more call, in the present second. -/
theorem Tallies.allow {times : List Instant} {t : Instant} {rl : HTTPRateLimit}
    (h : Tallies times (unix t) rl) : Tallies (times ++ [t]) (unix t) (rl.allow t).2 where
  past t' ht' := by
    rcases List.mem_append.mp ht' with ht' | ht'
    · exact h.past t' ht'
    · rw [List.mem_singleton.mp ht']
  count sec hs := by
    rw [countAt_allow, List.countP_append, List.countP_singleton]
    by_cases hsec : sec = unix t
    · subst hsec
      rw [if_pos rfl, if_pos (decide_eq_true rfl), h.count _ le_rfl, Nat.mod_add_mod]
    · -- nobody has called in a second that is still to come
      have hnone : times.countP (unix · = sec) = 0 := by
        refine List.countP_eq_zero.mpr fun t' ht' => ?_
        have := h.past t' ht'
        simp only [decide_eq_true_eq]
        omega
      have hne : ¬ decide (unix t = sec) = true := by
        simp only [decide_eq_true_eq]
        omega
      rw [if_neg hsec, if_neg hne, hnone]
      rfl

/-- The answer, if the calls of the second fit in the counter. -/
theorem Tallies.answer {times : List Instant} {t : Instant} {rl : HTTPRateLimit}
    (h : Tallies times (unix t) rl) (hfew : times.length + 1 < uint64Size) :
    (rl.allow t).1 = decide (times.countP (unix · = unix t) < rl.maxRate) := by
  have hle : times.countP (unix · = unix t) ≤ times.length := List.countP_le_length
  rw [allow_fst, h.count _ le_rfl, Nat.mod_add_mod, Nat.mod_eq_of_lt (by omega)]
  exact decide_eq_decide.mpr Nat.succ_le_iff

end HTTPRateLimit

/-- The answer of the per-IP limiter in the same terms. -/
theorem PerIPLimit.Counts.answer {history : List PerIPLimit.IPCall} {c : PerIPLimit.IPCall}
    {l : PerIPLimit} (h : PerIPLimit.Counts history (unix c.now) l) (maxRate : ℕ)
    (hfew : history.length + 1 < uint64Size) :
    PerIPLimit.Counts (history ++ [c]) (unix c.now) (l.allow c.ip maxRate c.now).2 ∧
      (l.allow c.ip maxRate c.now).1 =
        decide (PerIPLimit.calls history c.ip (unix c.now) < maxRate) := by
  have hpruned : PerIPLimit.Counts history (unix c.now) (l.prune (unix c.now)) :=
    h.mono le_rfl fun ip _ hs => PerIPLimit.countAt_prune l hs ip
  obtain ⟨hcounts, hanswer⟩ := hpruned.bump maxRate
  have hle : PerIPLimit.calls history c.ip (unix c.now) ≤ history.length := List.countP_le_length
  refine ⟨hcounts, hanswer.trans ?_⟩
  rw [Nat.mod_eq_of_lt (by omega)]
  exact decide_eq_decide.mpr Nat.succ_le_iff

/-! ## The ledger -/

/-- The requests each limiter was asked about, and those other than GET that reached the handlers. -/
structure Ledger where
  sm : SessionManager
  mutating : List Request := []
  perIP : List Request := []
  reads : List Request := []
  served : List Request := []

/-- What the server is configured with. -/
structure Limits where
  apiKey : Bytes
  globalRate : ℕ
  perIPRate : ℕ

namespace Ledger

def askedIn (requests : List Request) (sec : ℤ) : ℕ :=
  requests.countP fun r => unix r.clock.rateLimit = sec

def askedBy (lib : NetHTTP) (requests : List Request) (ip : String) (sec : ℤ) : ℕ :=
  requests.countP fun r => lib.extractClientIP r = ip ∧ unix r.clock.perIPLimit = sec

/-- The handlers, behind every limiter. -/
def handle (lib : NetHTTP) (g : Ledger) (r : Request) : Ledger × Response :=
  match lib.mux r with
  | .error resp => (g, resp)
  | .ok route =>
    ({ g with sm := (g.sm.serveMux route r.method r.body r.clock.createSession).2 },
      (g.sm.serveMux route r.method r.body r.clock.createSession).1)

def serve (lib : NetHTTP) (cfg : Limits) (g : Ledger) (r : Request) : Ledger × Response :=
  if r.method = .get then
    if askedIn g.reads (unix r.clock.rateLimit) < 2000 then
      { g with reads := g.reads ++ [r] }.handle lib r
    else ({ g with reads := g.reads ++ [r] }, HTTPAPI.rateLimitExceeded)
  else if cfg.apiKey ≠ [] ∧ ¬ HTTPAPI.Authorized cfg.apiKey r then (g, HTTPAPI.unauthorized)
  else if askedIn g.mutating (unix r.clock.rateLimit) < cfg.globalRate then
    if askedBy lib g.perIP (lib.extractClientIP r) (unix r.clock.perIPLimit) < cfg.perIPRate then
      { g with mutating := g.mutating ++ [r]
               perIP := g.perIP ++ [r]
               served := g.served ++ [r] }.handle lib r
    else
      ({ g with mutating := g.mutating ++ [r], perIP := g.perIP ++ [r] }, HTTPAPI.rateLimitExceeded)
  else ({ g with mutating := g.mutating ++ [r] }, HTTPAPI.rateLimitExceeded)

/-- The handlers leave the record of the requests alone. -/
structure SameRecord (g g' : Ledger) : Prop where
  mutating : g'.mutating = g.mutating
  perIP : g'.perIP = g.perIP
  reads : g'.reads = g.reads
  served : g'.served = g.served

theorem sameRecord_handle (lib : NetHTTP) (g : Ledger) (r : Request) :
    SameRecord g (g.handle lib r).1 := by
  unfold handle
  split <;> exact ⟨rfl, rfl, rfl, rfl⟩

/-! ## What the ledger lets through -/

/-- Each rate holds of what has been let through so far. -/
structure Bounded (lib : NetHTTP) (cfg : Limits) (g : Ledger) : Prop where
  asked : g.perIP.Sublist g.mutating
  passed : g.served.Sublist g.perIP
  inSecond : ∀ sec, askedIn g.perIP sec ≤ cfg.globalRate
  byAddress : ∀ ip sec, askedBy lib g.served ip sec ≤ cfg.perIPRate

section Bounds
variable {lib : NetHTTP} {cfg : Limits} {g : Ledger}

theorem askedIn_concat (requests : List Request) (r : Request) (sec : ℤ) :
    askedIn (requests ++ [r]) sec =
      askedIn requests sec + if unix r.clock.rateLimit = sec then 1 else 0 := by
  unfold askedIn
  rw [List.countP_append, List.countP_singleton]
  simp only [decide_eq_true_eq]

theorem askedBy_concat (requests : List Request) (r : Request) (ip : String) (sec : ℤ) :
    askedBy lib (requests ++ [r]) ip sec = askedBy lib requests ip sec +
      if lib.extractClientIP r = ip ∧ unix r.clock.perIPLimit = sec then 1 else 0 := by
  unfold askedBy
  rw [List.countP_append, List.countP_singleton]
  simp only [decide_eq_true_eq]

theorem SameRecord.bounded {g' : Ledger} (h : SameRecord g g') (hb : Bounded lib cfg g) :
    Bounded lib cfg g' := by
  obtain ⟨hm, hp, -, hs⟩ := h
  refine ⟨?_, ?_, ?_, ?_⟩
  · rw [hm, hp]
    exact hb.asked
  · rw [hp, hs]
    exact hb.passed
  · rw [hp]
    exact hb.inSecond
  · rw [hs]
    exact hb.byAddress

/-- A request the global limiter lets through is within the second's rate. -/
theorem Bounded.inSecond_concat (hb : Bounded lib cfg g) {r : Request}
    (hglobal : askedIn g.mutating (unix r.clock.rateLimit) < cfg.globalRate) (sec : ℤ) :
    askedIn (g.perIP ++ [r]) sec ≤ cfg.globalRate := by
  have hold := hb.inSecond sec
  rw [askedIn_concat]
  by_cases hsec : unix r.clock.rateLimit = sec
  · subst hsec
    have hle : askedIn g.perIP (unix r.clock.rateLimit) ≤ askedIn g.mutating (unix r.clock.rateLimit) :=
      hb.asked.countP_le
    rw [if_pos rfl]
    omega
  · rw [if_neg hsec]
    omega

theorem Bounded.byAddress_concat (hb : Bounded lib cfg g) {r : Request}
    (hip : askedBy lib g.perIP (lib.extractClientIP r) (unix r.clock.perIPLimit) < cfg.perIPRate)
    (ip : String) (sec : ℤ) : askedBy lib (g.served ++ [r]) ip sec ≤ cfg.perIPRate := by
  have hold := hb.byAddress ip sec
  rw [askedBy_concat]
  by_cases hsame : lib.extractClientIP r = ip ∧ unix r.clock.perIPLimit = sec
  · obtain ⟨rfl, rfl⟩ := hsame
    have hle : askedBy lib g.served (lib.extractClientIP r) (unix r.clock.perIPLimit) ≤
        askedBy lib g.perIP (lib.extractClientIP r) (unix r.clock.perIPLimit) := hb.passed.countP_le
    rw [if_pos ⟨rfl, rfl⟩]
    omega
  · rw [if_neg hsame]
    omega

theorem Bounded.serve (hb : Bounded lib cfg g) (r : Request) : Bounded lib cfg (g.serve lib cfg r).1 := by
  unfold Ledger.serve
  split
  · split
    · exact (sameRecord_handle lib _ r).bounded ⟨hb.asked, hb.passed, hb.inSecond, hb.byAddress⟩
    · exact ⟨hb.asked, hb.passed, hb.inSecond, hb.byAddress⟩
  · split
    · exact hb
    · split
      · next hglobal =>
        split
        · next hip =>
          exact (sameRecord_handle lib _ r).bounded ⟨hb.asked.append_right [r],
            hb.passed.append_right [r], hb.inSecond_concat hglobal, hb.byAddress_concat hip⟩
        · exact ⟨hb.asked.append_right [r], hb.passed.trans (List.sublist_append_left _ _),
            hb.inSecond_concat hglobal, hb.byAddress⟩
      · exact ⟨hb.asked.trans (List.sublist_append_left _ _), hb.passed, hb.inSecond, hb.byAddress⟩

end Bounds
end Ledger

/-! ## The server keeps the ledger -/

namespace HTTPAPI

/-- The configuration that `NewHTTPAPI` makes of its arguments. -/
def limits (apiKey : Bytes) (globalRate perIPRate : ℕ) : Limits where
  apiKey := apiKey
  globalRate := if globalRate = 0 then 200 else globalRate
  perIPRate := if perIPRate = 0 then 20 else perIPRate

/-- What the per-IP limiter is asked. -/
def ipCall (lib : NetHTTP) (r : Request) : PerIPLimit.IPCall where
  ip := lib.extractClientIP r
  now := r.clock.perIPLimit

/-- Neither clock reading of a later request is before that of an earlier one. -/
def InOrder (r r' : Request) : Prop :=
  r.clock.rateLimit ≤ r'.clock.rateLimit ∧ r.clock.perIPLimit ≤ r'.clock.perIPLimit

instance (r r' : Request) : Decidable (InOrder r r') := inferInstanceAs (Decidable (_ ∧ _))

/-- The limiters count what the ledger remembers, from the seconds `now` and `now'` on; `n` requests
have been served. -/
structure Mirrors (lib : NetHTTP) (cfg : Limits) (n : ℕ) (now now' : ℤ) (g : Ledger) (a : HTTPAPI) :
    Prop where
  sm : a.sm = g.sm
  apiKey : a.apiKey = cfg.apiKey
  globalRate : a.rateLimit.maxRate = cfg.globalRate
  readRate : a.readRateLimit.maxRate = 2000
  perIPRate : a.perIPRate = cfg.perIPRate
  mutating : HTTPRateLimit.Tallies (g.mutating.map (·.clock.rateLimit)) now a.rateLimit
  reads : HTTPRateLimit.Tallies (g.reads.map (·.clock.rateLimit)) now a.readRateLimit
  perIP : PerIPLimit.Counts (g.perIP.map (ipCall lib)) now' a.perIPLimit
  mutatingLen : g.mutating.length ≤ n
  readsLen : g.reads.length ≤ n
  perIPLen : g.perIP.length ≤ n

section Mirrors
variable {lib : NetHTTP} {cfg : Limits} {n : ℕ} {now now' : ℤ} {g : Ledger} {a : HTTPAPI}

theorem Mirrors.mono (h : Mirrors lib cfg n now now' g a) {m : ℕ} {later later' : ℤ} (hn : n ≤ m)
    (hle : now ≤ later) (hle' : now' ≤ later') : Mirrors lib cfg m later later' g a :=
  { h with
    mutating := h.mutating.mono hle
    reads := h.reads.mono hle
    perIP := h.perIP.mono hle' fun _ _ _ => rfl
    mutatingLen := h.mutatingLen.trans hn
    readsLen := h.readsLen.trans hn
    perIPLen := h.perIPLen.trans hn }

/-- Behind the limiters both do the same. -/
theorem Mirrors.handle (h : Mirrors lib cfg n now now' g a) (r : Request) :
    Mirrors lib cfg n now now' (g.handle lib r).1 (muxServeHTTP lib a r).1 ∧
      (muxServeHTTP lib a r).2 = (g.handle lib r).2 := by
  unfold Ledger.handle muxServeHTTP
  cases lib.mux r with
  | error resp => exact ⟨h, rfl⟩
  | ok route =>
    dsimp only
    rw [h.sm]
    exact ⟨{ h with sm := rfl }, rfl⟩

theorem checkAPIKey_eq_false (ha : a.apiKey = cfg.apiKey) (r : Request) :
    a.checkAPIKey r = false ↔ cfg.apiKey ≠ [] ∧ ¬ Authorized cfg.apiKey r := by
  by_cases hkey : a.apiKey = []
  · have hopen : a.checkAPIKey r = true := by
      unfold checkAPIKey
      rw [if_pos hkey]
    rw [hopen]
    exact ⟨fun h => absurd h.symm Bool.false_ne_true, fun h => absurd (ha.symm.trans hkey) h.1⟩
  · rw [← Bool.not_eq_true, checkAPIKey_iff hkey, ha]
    exact ⟨fun h => ⟨ha ▸ hkey, h⟩, fun h => h.2⟩

theorem askedIn_eq (requests : List Request) (sec : ℤ) :
    (requests.map (·.clock.rateLimit)).countP (unix · = sec) = Ledger.askedIn requests sec := by
  unfold Ledger.askedIn
  rw [List.countP_map]
  rfl

theorem askedBy_eq (requests : List Request) (ip : String) (sec : ℤ) :
    PerIPLimit.calls (requests.map (ipCall lib)) ip sec = Ledger.askedBy lib requests ip sec := by
  unfold PerIPLimit.calls Ledger.askedBy
  rw [List.countP_map]
  rfl

/-- The answer of a limiter decides between the two branches of the server and of the ledger. -/
theorem branch_of_answer {allowed : Bool} {P : Prop} [Decidable P] (h : allowed = decide P)
    {x y : HTTPAPI × Response} {gx gy : Ledger × Response}
    (hyes : P → Mirrors lib cfg n now now' gx.1 x.1 ∧ x.2 = gx.2)
    (hno : ¬ P → Mirrors lib cfg n now now' gy.1 y.1 ∧ y.2 = gy.2) :
    Mirrors lib cfg n now now' (if P then gx else gy).1 (if allowed = false then y else x).1 ∧
      (if allowed = false then y else x).2 = (if P then gx else gy).2 := by
  by_cases hP : P
  · have htrue : ¬ allowed = false := by
      rw [h, decide_eq_true hP]
      decide
    rw [if_pos hP, if_neg htrue]
    exact hyes hP
  · have hfalse : allowed = false := by
      rw [h]
      exact decide_eq_false hP
    rw [if_neg hP, if_pos hfalse]
    exact hno hP

section Turn
variable {r : Request}
  (h : Mirrors lib cfg n (unix r.clock.rateLimit) (unix r.clock.perIPLimit) g a)
  (hfew : n + 1 < uint64Size)
include h

theorem Mirrors.countRead :
    Mirrors lib cfg (n + 1) (unix r.clock.rateLimit) (unix r.clock.perIPLimit)
      { g with reads := g.reads ++ [r] }
      { a with readRateLimit := (a.readRateLimit.allow r.clock.rateLimit).2 } :=
  { h.mono (Nat.le_succ n) le_rfl le_rfl with
    readRate := (HTTPRateLimit.allow_maxRate _ _).trans h.readRate
    reads := by
      rw [List.map_append]
      exact h.reads.allow
    readsLen := by
      have hlen := h.readsLen
      rw [List.length_append, List.length_singleton]
      omega }

theorem Mirrors.countMutating :
    Mirrors lib cfg (n + 1) (unix r.clock.rateLimit) (unix r.clock.perIPLimit)
      { g with mutating := g.mutating ++ [r] }
      { a with rateLimit := (a.rateLimit.allow r.clock.rateLimit).2 } :=
  { h.mono (Nat.le_succ n) le_rfl le_rfl with
    globalRate := (HTTPRateLimit.allow_maxRate _ _).trans h.globalRate
    mutating := by
      rw [List.map_append]
      exact h.mutating.allow
    mutatingLen := by
      have hlen := h.mutatingLen
      rw [List.length_append, List.length_singleton]
      omega }

include hfew

theorem Mirrors.answerRead : (a.readRateLimit.allow r.clock.rateLimit).1 =
    decide (Ledger.askedIn g.reads (unix r.clock.rateLimit) < 2000) := by
  have hlen := h.readsLen
  have hanswer := h.reads.answer (by rw [List.length_map]; omega)
  rw [askedIn_eq, h.readRate] at hanswer
  exact hanswer

theorem Mirrors.answerGlobal : (a.rateLimit.allow r.clock.rateLimit).1 =
    decide (Ledger.askedIn g.mutating (unix r.clock.rateLimit) < cfg.globalRate) := by
  have hlen := h.mutatingLen
  have hanswer := h.mutating.answer (by rw [List.length_map]; omega)
  rw [askedIn_eq, h.globalRate] at hanswer
  exact hanswer

/-- The per-IP limiter, after the global one has counted the request. -/
theorem Mirrors.perIPTurn :
    Mirrors lib cfg (n + 1) (unix r.clock.rateLimit) (unix r.clock.perIPLimit)
        { g with mutating := g.mutating ++ [r], perIP := g.perIP ++ [r] }
        { a with
          rateLimit := (a.rateLimit.allow r.clock.rateLimit).2
          perIPLimit := (a.perIPLimit.allow (lib.extractClientIP r) a.perIPRate
            r.clock.perIPLimit).2 } ∧
      (a.perIPLimit.allow (lib.extractClientIP r) a.perIPRate r.clock.perIPLimit).1 =
        decide (Ledger.askedBy lib g.perIP (lib.extractClientIP r) (unix r.clock.perIPLimit) <
          cfg.perIPRate) := by
  have hlen := h.perIPLen
  obtain ⟨hcounts, hanswer⟩ := PerIPLimit.Counts.answer (c := ipCall lib r) h.perIP a.perIPRate
    (by rw [List.length_map]; omega)
  constructor
  · exact { h.countMutating with
      perIP := by
        rw [List.map_append]
        exact hcounts
      perIPLen := by
        rw [List.length_append, List.length_singleton]
        omega }
  · rw [askedBy_eq] at hanswer
    rw [← h.perIPRate]
    exact hanswer

theorem Mirrors.serve :
    Mirrors lib cfg (n + 1) (unix r.clock.rateLimit) (unix r.clock.perIPLimit)
        (g.serve lib cfg r).1 (serveHTTP lib a r).1 ∧
      (serveHTTP lib a r).2 = (g.serve lib cfg r).2 := by
  unfold serveHTTP Ledger.serve
  by_cases hget : r.method = .get
  · rw [if_neg (not_not.mpr hget), if_pos hget]
    exact branch_of_answer (h.answerRead hfew) (fun _ => h.countRead.handle r)
      fun _ => ⟨h.countRead, rfl⟩
  · rw [if_pos hget, if_neg hget]
    by_cases hauth : a.checkAPIKey r = false
    · rw [if_pos hauth, if_pos ((checkAPIKey_eq_false h.apiKey r).mp hauth)]
      exact ⟨h.mono (Nat.le_succ n) le_rfl le_rfl, rfl⟩
    · rw [if_neg hauth, if_neg (mt (checkAPIKey_eq_false h.apiKey r).mpr hauth)]
      obtain ⟨hboth, hip⟩ := h.perIPTurn hfew
      refine branch_of_answer (h.answerGlobal hfew) (fun _ => ?_) fun _ => ⟨h.countMutating, rfl⟩
      refine branch_of_answer hip (fun _ => ?_) fun _ => ⟨hboth, rfl⟩
      -- that the request is served is for the record only
      have hserved : Mirrors lib cfg (n + 1) (unix r.clock.rateLimit) (unix r.clock.perIPLimit)
          { g with mutating := g.mutating ++ [r]
                   perIP := g.perIP ++ [r]
                   served := g.served ++ [r] } _ := { hboth with }
      exact hserved.handle r

end Turn

theorem mirrors_new (lib : NetHTTP) (sm : SessionManager) (apiKey : Bytes) (globalRate perIPRate : ℕ)
    (now now' : ℤ) : Mirrors lib (limits apiKey globalRate perIPRate) 0 now now' { sm := sm }
      (newHTTPAPI sm apiKey globalRate perIPRate) where
  sm := rfl
  apiKey := rfl
  globalRate := rfl
  readRate := rfl
  perIPRate := rfl
  mutating := HTTPRateLimit.tallies_start now _
  reads := HTTPRateLimit.tallies_start now _
  perIP := PerIPLimit.counts_start now'
  mutatingLen := Nat.le_refl 0
  readsLen := Nat.le_refl 0
  perIPLen := Nat.le_refl 0

end Mirrors

/-! ## Sequences of requests -/

/-- The ledger of a sequence of requests. -/
def ledger (lib : NetHTTP) (sm : SessionManager) (cfg : Limits) (reqs : List Request) : Ledger :=
  runState (Ledger.serve lib cfg) { sm := sm } reqs

theorem unix_le_unix {t t' : Instant} (h : t ≤ t') : unix t ≤ unix t' :=
  Int.ediv_le_ediv (by decide) h

/-- A later request finds the limiters and the ledger in agreement, in its own seconds. -/
theorem mirrors_before (lib : NetHTTP) (sm : SessionManager) (apiKey : Bytes)
    (globalRate perIPRate : ℕ) {reqs : List Request} {r : Request}
    (hclock : (reqs ++ [r]).Pairwise InOrder) (hfew : reqs.length < uint64Size) :
    Mirrors lib (limits apiKey globalRate perIPRate) reqs.length (unix r.clock.rateLimit)
      (unix r.clock.perIPLimit) (ledger lib sm (limits apiKey globalRate perIPRate) reqs)
      (runState (serveHTTP lib) (newHTTPAPI sm apiKey globalRate perIPRate) reqs) := by
  induction reqs using List.reverseRecOn generalizing r with
  | nil => exact mirrors_new lib sm apiKey globalRate perIPRate _ _
  | append_singleton reqs r' ih =>
    obtain ⟨hbefore, -, hlast⟩ := List.pairwise_append.mp hclock
    have horder : InOrder r' r :=
      hlast r' (List.mem_append_right _ (List.mem_singleton.mpr rfl)) r (List.mem_singleton.mpr rfl)
    rw [List.length_append, List.length_singleton] at hfew ⊢
    have hnext := ((ih hbefore (by omega)).serve hfew).1
    unfold ledger
    rw [runState_append, runState_append]
    exact hnext.mono le_rfl (unix_le_unix horder.1) (unix_le_unix horder.2)

theorem bounded_ledger (lib : NetHTTP) (sm : SessionManager) (cfg : Limits) (reqs : List Request) :
    Ledger.Bounded lib cfg (ledger lib sm cfg reqs) :=
  run_invariant (I := fun g => Ledger.Bounded lib cfg g) (fun _ r hb => hb.serve r)
    ⟨List.Sublist.refl _, List.Sublist.refl _, fun _ => Nat.zero_le _, fun _ _ => Nat.zero_le _⟩ reqs

/-- Every request is answered, and changes the sessions, as the ledger of the requests before it says;
and the ledger lets at most the global rate of a second through to the handlers, and at most the per-IP
rate from one address. -/
theorem admission_exact (lib : NetHTTP) (sm : SessionManager) (apiKey : Bytes)
    (globalRate perIPRate : ℕ) (reqs : List Request) (hclock : reqs.Pairwise InOrder)
    (hfew : reqs.length < uint64Size) :
    (trace (serveHTTP lib) (newHTTPAPI sm apiKey globalRate perIPRate) reqs).map
        (fun x => (x.2.1, x.1.sm, x.2.2)) =
      (trace (Ledger.serve lib (limits apiKey globalRate perIPRate)) { sm := sm } reqs).map
        (fun x => (x.2.1, x.1.sm, x.2.2)) ∧
    (∀ sec, Ledger.askedIn (ledger lib sm (limits apiKey globalRate perIPRate) reqs).served sec ≤
      (limits apiKey globalRate perIPRate).globalRate) ∧
    ∀ ip sec, Ledger.askedBy lib (ledger lib sm (limits apiKey globalRate perIPRate) reqs).served ip sec ≤
      (limits apiKey globalRate perIPRate).perIPRate := by
  have hb := bounded_ledger lib sm (limits apiKey globalRate perIPRate) reqs
  refine ⟨?_, fun sec => hb.passed.countP_le.trans (hb.inSecond sec), hb.byAddress⟩
  clear hb
  induction reqs using List.reverseRecOn with
  | nil => rfl
  | append_singleton reqs r ih =>
    have hbefore := (List.pairwise_append.mp hclock).1
    rw [List.length_append, List.length_singleton] at hfew
    have hmirror := mirrors_before lib sm apiKey globalRate perIPRate hclock (by omega)
    rw [trace_append, trace_append, List.map_append, List.map_append, ih hbefore (by omega)]
    congr 1
    show [(r, _, _)] = [(r, _, _)]
    rw [(hmirror.serve hfew).2, hmirror.sm]
    rfl

/-- Requests of one second, two from one address and one from another, to create a session each. -/
def createThree : List Request :=
  [⟨.post, "/sessions", ∅, "10.0.0.1:4000", { create := some ⟨"game1", 8⟩ }, ⟨0, 0, 0⟩⟩,
    ⟨.post, "/sessions", ∅, "10.0.0.1:4001", { create := some ⟨"game2", 8⟩ }, ⟨1, 1, 1⟩⟩,
    ⟨.post, "/sessions", ∅, "10.0.0.2:4000", { create := some ⟨"game3", 8⟩ }, ⟨2, 2, 2⟩⟩]

/-- With a rate of one request for each address and two in all, the second is refused by the one limiter and
the third by the other. -/
theorem createThree_exact : createThree.Pairwise InOrder ∧
    (trace (serveHTTP registered) (newHTTPAPI newSessionManager [] 2 1) createThree).map (·.2.2.status) =
      [201, 429, 429] ∧
    (trace (serveHTTP registered) (newHTTPAPI newSessionManager [] 2 1) createThree).map
        (fun x => (x.2.1, x.1.sm, x.2.2)) =
      (trace (Ledger.serve registered (limits [] 2 1)) { sm := newSessionManager }
        createThree).map (fun x => (x.2.1, x.1.sm, x.2.2)) :=
  ⟨by decide, by decide +kernel,
    (admission_exact registered newSessionManager [] 2 1 createThree (by decide) (by decide)).1⟩

/-- The requests other than GET that pass the key check. -/
def Counted (apiKey : Bytes) (r : Request) : Prop :=
  r.method ≠ .get ∧ (apiKey = [] ∨ Authorized apiKey r)

instance (apiKey : Bytes) (r : Request) : Decidable (Counted apiKey r) :=
  inferInstanceAs (Decidable (_ ∧ _))

theorem mutating_serve (lib : NetHTTP) (cfg : Limits) (g : Ledger) (r : Request) :
    (g.serve lib cfg r).1.mutating = g.mutating ++ if Counted cfg.apiKey r then [r] else [] := by
  have hkey : (cfg.apiKey = [] ∨ Authorized cfg.apiKey r) ↔
      ¬ (cfg.apiKey ≠ [] ∧ ¬ Authorized cfg.apiKey r) := by
    rw [not_and_or, not_not, not_not]
  unfold Ledger.serve
  by_cases hget : r.method = .get
  · have hnot : ¬ Counted cfg.apiKey r := fun h => h.1 hget
    rw [if_pos hget, if_neg hnot, List.append_nil]
    split
    · exact (Ledger.sameRecord_handle lib _ r).mutating
    · rfl
  · rw [if_neg hget]
    by_cases hauth : cfg.apiKey ≠ [] ∧ ¬ Authorized cfg.apiKey r
    · have hnot : ¬ Counted cfg.apiKey r := fun h => hkey.mp h.2 hauth
      rw [if_pos hauth, if_neg hnot, List.append_nil]
    · have hcounted : Counted cfg.apiKey r := ⟨hget, hkey.mpr hauth⟩
      rw [if_neg hauth, if_pos hcounted]
      split
      · split
        · exact (Ledger.sameRecord_handle lib _ r).mutating
        · rfl
      · rfl

/-- The global limiter is asked about every request that passes the key check, served or not. -/
theorem mutating_ledger (lib : NetHTTP) (sm : SessionManager) (cfg : Limits) (reqs : List Request) :
    (ledger lib sm cfg reqs).mutating = reqs.filter fun r => Counted cfg.apiKey r := by
  induction reqs using List.reverseRecOn with
  | nil => rfl
  | append_singleton reqs r ih =>
    unfold ledger at ih ⊢
    rw [runState_append, List.filter_append, ← ih]
    refine (mutating_serve lib cfg _ r).trans ?_
    congr 1
    by_cases hcounted : Counted cfg.apiKey r
    · simp [hcounted]
    · simp [hcounted]

/-- Once the global rate of a second has been asked for, be it by one address, nobody's request of that
second is served any more: what the per-IP limiter has refused counts. -/
theorem budget_shared (lib : NetHTTP) (sm : SessionManager) (apiKey : Bytes)
    (globalRate perIPRate : ℕ) (reqs : List Request) (r : Request)
    (hclock : (reqs ++ [r]).Pairwise InOrder) (hfew : reqs.length + 1 < uint64Size)
    (hcounted : Counted apiKey r)
    (hspent : (limits apiKey globalRate perIPRate).globalRate ≤
      Ledger.askedIn (reqs.filter fun q => Counted apiKey q) (unix r.clock.rateLimit)) :
    (serveHTTP lib (runState (serveHTTP lib) (newHTTPAPI sm apiKey globalRate perIPRate) reqs) r).2 =
        rateLimitExceeded ∧
      (serveHTTP lib (runState (serveHTTP lib) (newHTTPAPI sm apiKey globalRate perIPRate) reqs) r).1.sm =
        (runState (serveHTTP lib) (newHTTPAPI sm apiKey globalRate perIPRate) reqs).sm := by
  have hmirror := mirrors_before lib sm apiKey globalRate perIPRate hclock (by omega)
  have hstep := hmirror.serve hfew
  have hrefused : (ledger lib sm (limits apiKey globalRate perIPRate) reqs).serve lib
      (limits apiKey globalRate perIPRate) r =
      ({ ledger lib sm (limits apiKey globalRate perIPRate) reqs with
          mutating := (ledger lib sm (limits apiKey globalRate perIPRate) reqs).mutating ++ [r] },
        rateLimitExceeded) := by
    have hkey : ¬ ((limits apiKey globalRate perIPRate).apiKey ≠ [] ∧
        ¬ Authorized (limits apiKey globalRate perIPRate).apiKey r) := by
      rintro ⟨hne, hnot⟩
      exact hcounted.2.elim hne hnot
    have hfull : ¬ Ledger.askedIn (ledger lib sm (limits apiKey globalRate perIPRate) reqs).mutating
        (unix r.clock.rateLimit) < (limits apiKey globalRate perIPRate).globalRate := by
      rw [mutating_ledger]
      exact Nat.not_lt.mpr hspent
    unfold Ledger.serve
    rw [if_neg hcounted.1, if_neg hkey, if_neg hfull]
  rw [hrefused] at hstep
  exact ⟨hstep.2, hstep.1.sm.trans hmirror.sm.symm⟩

/-- An attempt to create a session, from one of two addresses. -/
def createFrom (remoteAddr : String) : Request :=
  ⟨.post, "/sessions", ∅, remoteAddr, { create := some ⟨"game", 8⟩ }, ⟨0, 0, 0⟩⟩

/-- With two requests a second for all and one for each address, the second request of one address is
refused and leaves nothing for the other. -/
theorem secondAddress_refused :
    (trace (serveHTTP registered) (newHTTPAPI newSessionManager [] 2 1)
        [createFrom "10.0.0.1:4000", createFrom "10.0.0.1:4000"]).map (·.2.2) =
      [⟨201, .created "game" 8⟩, rateLimitExceeded] ∧
    (serveHTTP registered (runState (serveHTTP registered) (newHTTPAPI newSessionManager [] 2 1)
      [createFrom "10.0.0.1:4000", createFrom "10.0.0.1:4000"]) (createFrom "10.0.0.2:4000")).2 =
      rateLimitExceeded :=
  ⟨by decide +kernel, (budget_shared registered newSessionManager [] 2 1
    [createFrom "10.0.0.1:4000", createFrom "10.0.0.1:4000"] (createFrom "10.0.0.2:4000") (by decide)
    (by decide) (by decide) (by decide)).1⟩

end HTTPAPI
end SturmRelay
