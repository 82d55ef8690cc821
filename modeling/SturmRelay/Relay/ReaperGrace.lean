import SturmRelay.Relay.Server

/-! # How much time the reaper gives a player

Runs in which the reaper's two phases are steps of their own and anything may happen between them,
packet updates through old session pointers included. `Watched` carries, besides the manager and
what phase 1 found, the history so far and the time of the last step; neither is looked at by a
step.

`KeepsGrace` is what the comment above `StalePlayers` promises: a player is removed no sooner than
`PlayerTimeout` after its latest join and after its latest accepted packet. The code measures a
player that has been silent since its join by the age of the session instead, and a re-join makes a
player silent again. `allSteps_keepsGrace` says that this is all that can go wrong, besides actions
through session pointers that are out of date. -/

namespace SturmRelay
namespace SessionManager
set_option autoImplicit false

/-! ## Steps -/

structure Watched where
  sm : SessionManager
  pending : List ReapCandidate := []
  facts : List Fact := []
  clock : Instant := 0

def Watched.start : Watched := { sm := newSessionManager }

inductive WatchEvent
  | call (c : Call) (now : Instant)
  | packet (r : SessionRef) (p : PlayerID) (src : Endpoint) (now : Instant)
  | collect (o : ReapOrder) (clk : ReapClock) (now : Instant)
  | apply (clk : ReapClock) (now : Instant)

def WatchEvent.now : WatchEvent → Instant
  | .call _ now => now
  | .packet _ _ _ now => now
  | .collect _ _ now => now
  | .apply _ now => now

/-- The clock readings taken in a step. -/
def WatchEvent.Reads : WatchEvent → Instant → Prop
  | .call (.createSession _ _ t') now, t => t = t' ∨ t = now
  | .call _ now, t => t = now
  | .packet _ _ _ now, t => t = now
  | .collect _ clk _, t => t = clk.collect ∨ ∃ sid, t = clk.scan sid
  | .apply clk _, t => t = clk.apply ∨ ∃ sid p, t = clk.check sid p

def watchStep (s : Watched) (ev : WatchEvent) : Watched × Option Fact :=
  match ev with
  | .call c now =>
    let fact := joinFact c (s.sm.call c).1 now
    ({ s with sm := (s.sm.call c).2, facts := s.facts ++ fact.toList, clock := now }, fact)
  | .packet r p src now =>
    let fact := packetFact p src now (s.sm.updatePlayer src r p now).1
    ({ s with sm := (s.sm.updatePlayer src r p now).2, facts := s.facts ++ fact.toList, clock := now }, fact)
  | .collect o clk now => ({ s with pending := reapCollect o clk s.sm, clock := now }, none)
  | .apply clk now => ({ s with sm := (reapApply clk s.pending s.sm).sm, pending := [], clock := now }, none)

/-- The clock does not run backwards: every reading of the step lies between the end of the step
before and its own end. -/
def Timely (s : Watched) (ev : WatchEvent) : Prop :=
  s.clock ≤ ev.now ∧ ∀ t, ev.Reads t → s.clock ≤ t ∧ t ≤ ev.now

/-! ## The property and the condition -/

def noteAccepted (p : PlayerID) (last : Option Instant) : Fact → Option Instant
  | .joined _ _ _ => last
  | .accepted p' _ now => if p' = p then some now else last

/-- When the player's last packet was accepted. -/
def lastAccepted (facts : List Fact) (p : PlayerID) : Option Instant :=
  facts.foldl (noteAccepted p) none

/-- At time `t` the player's latest join of the session and its latest accepted packet are
`PlayerTimeout` ago or more. -/
def OutOfGrace (facts : List Fact) (sid : SessionID) (p : PlayerID) (t : Instant) : Prop :=
  (∃ tj, lastJoin facts sid p = some tj ∧ playerTimeout ≤ t - tj) ∧
    ∀ ta, lastAccepted facts p = some ta → playerTimeout ≤ t - ta

/-- Phase 2 removes a player only when it is out of grace. -/
def KeepsGrace (s : Watched) : WatchEvent → Prop
  | .apply clk _ => ∀ c ∈ s.pending, ∀ p ∈ (s.sm.session c.session).players,
      p ∉ ((reapApply clk s.pending s.sm).sm.session c.session).players →
        OutOfGrace s.facts c.sessionID p (clk.check c.sessionID p)
  | _ => True

/-- A player that is silent since its latest join has joined `PlayerTimeout` ago or more, or is in
a session that is not older than that. -/
def SilenceCounted (facts : List Fact) (sid : SessionID) (s : Session) (p : PlayerID) (t : Instant) : Prop :=
  ∀ info, s.players.lookup p = some info → info.lastSeen = none → playerTimeout < t - s.createdAt →
    ∀ tj, lastJoin facts sid p = some tj → playerTimeout ≤ t - tj

/-- The condition on a step: a packet is accepted only through the session its sender is in, phase 2
acts only on sessions that are still in the map, and the players it checks are not measured by
their session's age while they are new. -/
def Careful (s : Watched) : WatchEvent → Prop
  | .packet r p src now => (s.sm.updatePlayer src r p now).1.accepted = true →
      s.sm.findSessionByPlayer p = some r
  | .apply clk _ => (∀ c ∈ s.pending, Live s.sm c ∨ NothingToReap clk s.sm c) ∧
      ∀ c ∈ s.pending, ∀ p ∈ c.stalePIDs,
        SilenceCounted s.facts c.sessionID (s.sm.session c.session) p (clk.check c.sessionID p)
  | _ => True

/-! ## The history in order -/

def Fact.time : Fact → Instant
  | .joined _ _ now => now
  | .accepted _ _ now => now

section Facts
variable {facts : List Fact} {sid : SessionID} {p : PlayerID}

theorem lastAccepted_append (fact : Fact) :
    lastAccepted (facts ++ [fact]) p = noteAccepted p (lastAccepted facts p) fact := by
  unfold lastAccepted
  rw [List.foldl_append]
  rfl

theorem lastJoin_append (fact : Fact) :
    lastJoin (facts ++ [fact]) sid p = noteJoin sid p (lastJoin facts sid p) fact := by
  unfold lastJoin
  rw [List.foldl_append]
  rfl

theorem lastPacket_append (fact : Fact) :
    lastPacket (facts ++ [fact]) sid p = notePacket sid p (lastPacket facts sid p) fact := by
  unfold lastPacket
  rw [List.foldl_append]
  rfl

/-- What a reading of the history takes a time from is in the history. -/
theorem time_of_foldl {note : Option Instant → Fact → Option Instant}
    (hnote : ∀ last f, note last f = last ∨ note last f = some f.time) {t : Instant}
    (h : facts.foldl note none = some t) : ∃ f ∈ facts, f.time = t := by
  induction facts using List.reverseRecOn with
  | nil => cases h
  | append_singleton facts fact ih =>
    rw [List.foldl_append] at h
    rcases hnote (facts.foldl note none) fact with hold | hnew
    · obtain ⟨f, hf, ht⟩ := ih (hold.symm.trans h)
      exact ⟨f, List.mem_append_left _ hf, ht⟩
    · exact ⟨fact, List.mem_append_right _ (List.mem_singleton.mpr rfl), Option.some.inj (hnew.symm.trans h)⟩

theorem time_of_lastJoin {t : Instant} (h : lastJoin facts sid p = some t) : ∃ f ∈ facts, f.time = t := by
  refine time_of_foldl (fun last f => ?_) h
  cases f with
  | accepted p' src now => exact Or.inl rfl
  | joined sid' p' now =>
    by_cases hme : sid' = sid ∧ p' = p
    · exact Or.inr (if_pos hme)
    · exact Or.inl (if_neg hme)

theorem time_of_lastAccepted {t : Instant} (h : lastAccepted facts p = some t) :
    ∃ f ∈ facts, f.time = t := by
  refine time_of_foldl (fun last f => ?_) h
  cases f with
  | joined sid' p' now => exact Or.inl rfl
  | accepted p' src now =>
    by_cases hme : p' = p
    · exact Or.inr (if_pos hme)
    · exact Or.inl (if_neg hme)

variable (sid p) in
/-- In a history in order of time, the last packet since the latest join is the last packet, and
without one the last packet came before the join. -/
theorem lastPacket_order (hsorted : facts.Pairwise fun f f' => f.time ≤ f'.time) :
    (∀ e t, lastPacket facts sid p = some (e, t) → lastAccepted facts p = some t ∧
      ∀ tj, lastJoin facts sid p = some tj → tj ≤ t) ∧
    (lastPacket facts sid p = none → ∀ tj ta, lastJoin facts sid p = some tj →
      lastAccepted facts p = some ta → ta ≤ tj) := by
  induction facts using List.reverseRecOn with
  | nil =>
    constructor
    · intro e t h
      cases h
    · intro _ tj ta h
      cases h
  | append_singleton facts fact ih =>
    obtain ⟨hs, -, hlast⟩ := List.pairwise_append.mp hsorted
    obtain ⟨ih1, ih2⟩ := ih hs
    have hbefore : ∀ f ∈ facts, f.time ≤ fact.time := fun f hf => hlast f hf fact (List.mem_singleton.mpr rfl)
    rw [lastPacket_append, lastAccepted_append, lastJoin_append]
    cases fact with
    | joined sid' p' now =>
      by_cases hme : sid' = sid ∧ p' = p
      · simp only [notePacket, noteJoin, noteAccepted, if_pos hme]
        constructor
        · intro e t h
          cases h
        · intro _ tj ta hj ha
          cases hj
          obtain ⟨f, hf, rfl⟩ := time_of_lastAccepted ha
          exact hbefore f hf
      · simp only [notePacket, noteJoin, noteAccepted, if_neg hme]
        exact ⟨ih1, ih2⟩
    | accepted p' src now =>
      by_cases hme : p' = p
      · simp only [notePacket, noteJoin, noteAccepted, if_pos hme]
        constructor
        · intro e t h
          cases h
          refine ⟨rfl, fun tj hj => ?_⟩
          obtain ⟨f, hf, rfl⟩ := time_of_lastJoin hj
          exact hbefore f hf
        · intro h
          cases h
      · simp only [notePacket, noteJoin, noteAccepted, if_neg hme]
        exact ⟨ih1, ih2⟩

theorem sorted_append {clock now : Instant} (hsorted : facts.Pairwise fun f f' => f.time ≤ f'.time)
    (hpast : ∀ f ∈ facts, f.time ≤ clock) (hle : clock ≤ now) {fact : Option Fact}
    (hfact : ∀ f, fact = some f → f.time = now) :
    (facts ++ fact.toList).Pairwise (fun f f' => f.time ≤ f'.time) ∧
      ∀ f ∈ facts ++ fact.toList, f.time ≤ now := by
  have hnow : ∀ f ∈ facts, f.time ≤ now := fun f hf => (hpast f hf).trans hle
  cases fact with
  | none =>
    rw [Option.toList_none, List.append_nil]
    exact ⟨hsorted, hnow⟩
  | some fact =>
    have ht := hfact fact rfl
    refine ⟨List.pairwise_append.mpr ⟨hsorted, List.pairwise_singleton _ _, ?_⟩, ?_⟩
    · intro f hf f' hf'
      rw [Option.toList_some, List.mem_singleton] at hf'
      rw [hf', ht]
      exact hnow f hf
    · intro f hf
      rw [Option.toList_some, List.mem_append, List.mem_singleton] at hf
      rcases hf with hf | rfl
      · exact hnow f hf
      · exact ht.le

end Facts

theorem time_joinFact (c : Call) (res : Except SessionError Unit) {now : Instant} {f : Fact}
    (h : joinFact c res now = some f) : f.time = now := by
  obtain ⟨j, -, rfl⟩ := Option.map_eq_some_iff.mp h
  rfl

theorem time_packetFact (p : PlayerID) (src : Endpoint) {now : Instant} (v : PacketVerdict) {f : Fact}
    (h : packetFact p src now v = some f) : f.time = now := by
  unfold packetFact at h
  split at h
  · cases h
    rfl
  · cases h

/-! ## Every run -/

structure Orderly (s : Watched) : Prop where
  tracked : Tracked s.facts s.sm
  distinct : Distinct s.pending
  sorted : s.facts.Pairwise fun f f' => f.time ≤ f'.time
  past : ∀ f ∈ s.facts, f.time ≤ s.clock

theorem orderly_start : Orderly .start where
  tracked := by
    refine ⟨consistent_new, fun sid r hr => ?_⟩
    simp [Watched.start, newSessionManager] at hr
  distinct := ⟨List.nodup_nil, List.nodup_nil, fun _ h => nomatch h⟩
  sorted := List.Pairwise.nil
  past := fun _ h => nomatch h

/-- A rejected packet leaves every entry where the history has it, whatever pointer it came
through. -/
theorem Tracked.updatePlayer_rejected {facts : List Fact} {sm : SessionManager} (ht : Tracked facts sm)
    {src : Endpoint} {r : SessionRef} {p : PlayerID} {now : Instant}
    (hv : (sm.updatePlayer src r p now).1.accepted = false) :
    Tracked facts (sm.updatePlayer src r p now).2 := by
  refine ⟨ht.consistent.updatePlayer src r p now, ?_⟩
  cases hp : (sm.session r).players.lookup p with
  | none =>
    rw [updatePlayer_of_notMem src hp]
    exact ht.players
  | some info =>
    obtain ⟨v, info', hu, hheard⟩ := updatePlayer_of_lookup src hp now
    rw [hu] at hv ⊢
    refine LiveAll.modifySession ht.players r
      (f := fun s => { s with players := s.players.insert p info' }) fun sid hs q info'' hq => ?_
    change ((sm.session r).players.insert p info').lookup q = some info'' at hq
    rw [Table.lookup_insert_eq_ite] at hq
    by_cases hqp : q = p
    · rw [if_pos hqp] at hq
      cases hq
      rw [hqp]
      exact (hs p info hp).of_rejected hheard hv
    · rw [if_neg hqp] at hq
      exact hs q info'' hq

theorem Orderly.watchStep {s : Watched} (h : Orderly s) {ev : WatchEvent} (htime : Timely s ev)
    (hcare : Careful s ev) : Orderly (watchStep s ev).1 := by
  have hc := h.tracked.consistent
  cases ev with
  | call c now =>
    obtain ⟨hsorted, hpast⟩ := sorted_append h.sorted h.past htime.1
      (fun f hf => time_joinFact c (s.sm.call c).1 hf)
    exact ⟨⟨hc.call c, tracks_call hc h.tracked.players c now⟩, h.distinct, hsorted, hpast⟩
  | packet r p src now =>
    obtain ⟨hsorted, hpast⟩ := sorted_append h.sorted h.past htime.1
      (fun f hf => time_packetFact p src (s.sm.updatePlayer src r p now).1 hf)
    refine ⟨?_, h.distinct, hsorted, hpast⟩
    change Tracked (s.facts ++ (packetFact p src now (s.sm.updatePlayer src r p now).1).toList)
      (s.sm.updatePlayer src r p now).2
    cases hv : (s.sm.updatePlayer src r p now).1.accepted with
    | true =>
      exact ⟨hc.updatePlayer src r p now, tracks_updatePlayer hc h.tracked.players (hcare hv) src now⟩
    | false =>
      have hnone : packetFact p src now (s.sm.updatePlayer src r p now).1 = none := by
        unfold packetFact
        rw [hv]
        rfl
      rw [hnone, Option.toList_none, List.append_nil]
      exact h.tracked.updatePlayer_rejected hv
  | collect o clk now =>
    exact ⟨h.tracked, distinct_reapCollect hc o clk, h.sorted,
      fun f hf => (h.past f hf).trans htime.1⟩
  | apply clk now =>
    exact ⟨⟨consistent_reapApply hcare.1 h.distinct hc, h.tracked.players.reapApply h.distinct⟩,
      orderly_start.distinct, h.sorted, fun f hf => (h.past f hf).trans htime.1⟩

/-- A stale player of a live session is out of grace, if its silence was counted from its join. -/
theorem Orderly.outOfGrace {s : Watched} (h : Orderly s) {sid : SessionID} {r : SessionRef}
    (hr : s.sm.sessions.lookup sid = some r) {p : PlayerID} {t : Instant}
    (hstale : (s.sm.session r).staleAt playerTimeout t p = true)
    (hsilent : SilenceCounted s.facts sid (s.sm.session r) p t) : OutOfGrace s.facts sid p t := by
  obtain ⟨info, hp⟩ := Table.lookup_of_mem (Session.staleAt_mem hstale)
  have htr := h.tracked.players sid r hr p info hp
  obtain ⟨tj, hj⟩ := Option.isSome_iff_exists.mp htr.joined
  obtain ⟨hheard, hquiet⟩ := lastPacket_order sid p h.sorted
  simp only [Session.staleAt, hp, Session.isStale] at hstale
  have hseen := htr.lastSeen
  cases hlast : lastPacket s.facts sid p with
  | none =>
    rw [hlast, Option.map_none] at hseen
    simp only [hseen, decide_eq_true_eq] at hstale
    have hlong := hsilent info hp hseen hstale tj hj
    refine ⟨⟨tj, hj, hlong⟩, fun ta ha => ?_⟩
    exact hlong.trans (sub_le_sub_left (hquiet hlast tj ta hj ha) t)
  | some last =>
    obtain ⟨e, seen⟩ := last
    rw [hlast, Option.map_some] at hseen
    simp only [hseen, decide_eq_true_eq] at hstale
    obtain ⟨hacc, hafter⟩ := hheard e seen hlast
    refine ⟨⟨tj, hj, hstale.le.trans (sub_le_sub_left (hafter tj hj) t)⟩, fun ta ha => ?_⟩
    rw [hacc] at ha
    cases ha
    exact hstale.le

/-- Among careful phases 2, those that keep the grace are the ones that count a silent player's time
from its join. -/
theorem Orderly.keepsGrace_iff {s : Watched} (h : Orderly s) {clk : ReapClock} {now : Instant}
    (hlive : ∀ c ∈ s.pending, Live s.sm c ∨ NothingToReap clk s.sm c) :
    KeepsGrace s (.apply clk now) ↔ ∀ c ∈ s.pending, ∀ p ∈ c.stalePIDs,
      SilenceCounted s.facts c.sessionID (s.sm.session c.session) p (clk.check c.sessionID p) := by
  have hafter : ∀ c ∈ s.pending, ∀ p, p ∈ ((reapApply clk s.pending s.sm).sm.session c.session).players ↔
      p ∈ (s.sm.session c.session).players ∧ p ∉ reaped clk s.sm c := by
    intro c hcm p
    rw [(reapEffect_reapApply clk h.distinct s.sm).session_mem c hcm]
    exact Table.mem_eraseAll
  constructor
  · intro hkeep c hcm p hlisted info hp hsilent hold tj hj
    have hstale : (s.sm.session c.session).staleAt playerTimeout (clk.check c.sessionID p) p = true := by
      simp only [Session.staleAt, hp, Session.isStale, hsilent, hold, decide_true]
    have hreaped := mem_reaped.mpr ⟨hlisted, hstale⟩
    obtain ⟨⟨tj', hj', hlong⟩, -⟩ := hkeep c hcm p (Table.mem_of_lookup hp) fun hin =>
      ((hafter c hcm p).mp hin).2 hreaped
    rw [hj] at hj'
    cases hj'
    exact hlong
  · intro hsilent c hcm p hp hgone
    have hreaped : p ∈ reaped clk s.sm c := by
      by_contra hkept
      exact hgone ((hafter c hcm p).mpr ⟨hp, hkept⟩)
    obtain ⟨hlisted, hstale⟩ := mem_reaped.mp hreaped
    exact h.outOfGrace (live_of_reaped hlive hcm hreaped) hstale (hsilent c hcm p hlisted)

theorem Orderly.keepsGrace {s : Watched} (h : Orderly s) {ev : WatchEvent} (hcare : Careful s ev) :
    KeepsGrace s ev := by
  cases ev with
  | apply clk now => exact (h.keepsGrace_iff hcare.1).mpr hcare.2
  | call c now => exact trivial
  | packet r p src now => exact trivial
  | collect o clk now => exact trivial

/-- In every run with a clock that does not run backwards, if every step is careful then the reaper
never removes a player before its grace is over. -/
theorem allSteps_keepsGrace (events : List WatchEvent)
    (htime : AllSteps watchStep (fun s ev _ => Timely s ev) .start events)
    (hcare : AllSteps watchStep (fun s ev _ => Careful s ev) .start events) :
    AllSteps watchStep (fun s ev _ => KeepsGrace s ev) .start events :=
  allSteps_of_invariant (C := fun s ev _ => Timely s ev ∧ Careful s ev)
    (fun _ _ h hC => h.watchStep hC.1 hC.2) (fun _ _ h hC => h.keepsGrace hC.2) orderly_start
    (fun x hx => ⟨htime x hx, hcare x hx⟩)

/-! ### A player that stays away, and a late joiner -/

/-- Player 1 joins a new game at `joins` seconds, sends nothing, and a reaper pass comes at `reaps`
seconds. -/
def silentPlayer (joins reaps : ℤ) : List WatchEvent :=
  [.call (.createSession "game" 12 0) 0, .call (.addPlayerToSession "game" 1 "p1") (joins * second),
    .collect .listed (.still (reaps * second)) (reaps * second),
    .apply (.still (reaps * second)) (reaps * second)]

theorem timely_silentPlayer {joins reaps : ℤ} (hj : 0 ≤ joins) (hr : joins ≤ reaps) :
    AllSteps watchStep (fun s ev _ => Timely s ev) .start (silentPlayer joins reaps) := by
  have hj' : 0 ≤ joins * second := Int.mul_nonneg hj (by decide)
  have hr' : joins * second ≤ reaps * second := Int.mul_le_mul_of_nonneg_right hr (by decide)
  refine allSteps_cons.mpr ⟨⟨le_refl _, ?_⟩, allSteps_cons.mpr ⟨⟨hj', ?_⟩,
    allSteps_cons.mpr ⟨⟨hr', ?_⟩, allSteps_cons.mpr ⟨⟨le_refl _, ?_⟩, fun x hx => nomatch hx⟩⟩⟩⟩
  · rintro t (rfl | rfl) <;> exact ⟨le_refl _, le_refl _⟩
  · rintro t rfl
    exact ⟨hj', le_refl _⟩
  · rintro t (rfl | ⟨_, rfl⟩) <;> exact ⟨hr', le_refl _⟩
  · rintro t (rfl | ⟨_, _, rfl⟩) <;> exact ⟨le_refl _, le_refl _⟩

/-- Joined with the game and reaped after 200 s of silence: the grace is kept. -/
theorem silentPlayer_keepsGrace :
    AllSteps watchStep (fun s ev _ => KeepsGrace s ev) .start (silentPlayer 0 200) := by
  refine allSteps_keepsGrace _ (timely_silentPlayer (by decide) (by decide)) ?_
  refine allSteps_cons.mpr ⟨trivial, allSteps_cons.mpr ⟨trivial, allSteps_cons.mpr ⟨trivial,
    allSteps_cons.mpr ⟨⟨?_, ?_⟩, fun x hx => nomatch hx⟩⟩⟩⟩
  · exact fun c hcm => Or.inl (mem_reapCollect.mp hcm).1
  · intro c hcm p hp info _ _ _ tj hj
    change c ∈ [(⟨"game", 0, [1]⟩ : ReapCandidate)] at hcm
    rw [List.mem_singleton] at hcm
    subst hcm
    rw [List.mem_singleton] at hp
    subst hp
    cases hj
    decide

/-- Joined 100 s after the game was created and reaped 1 s later. -/
theorem lateJoiner_evicted :
    AllSteps watchStep (fun s ev _ => Timely s ev) .start (silentPlayer 100 101) ∧
    ¬ AllSteps watchStep (fun s ev _ => KeepsGrace s ev) .start (silentPlayer 100 101) := by
  refine ⟨timely_silentPlayer (by decide) (by decide), fun h => ?_⟩
  obtain ⟨-, h⟩ := allSteps_cons.mp h
  obtain ⟨-, h⟩ := allSteps_cons.mp h
  obtain ⟨-, h⟩ := allSteps_cons.mp h
  obtain ⟨h, -⟩ := allSteps_cons.mp h
  obtain ⟨⟨tj, hj, hlong⟩, -⟩ := h ⟨"game", 0, [1]⟩ (by decide) 1 (by decide) (by decide)
  cases hj
  exact absurd hlong (by decide)

end SessionManager
end SturmRelay
