import SturmRelay.Adapter.ICEPeer
import SturmRelay.Foundations.Runs

/-! # Which credentials a peer uses

One peer, the messages handed to its `HandleIceMsg` one after the other, and its `run`, in any
interleaving. `run` takes the oldest message of the channel, so a newer one can be left behind it;
and a message whose look at `remoteUfrag` came before `run` recorded it is pushed although `run` will
not read the channel again. `newestUsed_iff`: these are the only ways to ignore the newest message. A
message that finds the ufrag recorded either carries it or starts a restart (`Looked`), and what the
channel holds before `run` takes a message ends in the one delivered last (`Queued`). -/

namespace SturmRelay
namespace Adapter
set_option autoImplicit false

/-- Where `HandleIceMsg` stands. `currentUfrag` is the `remoteUfrag` it has read. -/
inductive Handler
  | idle
  | checking (msg : FafIceMsg)
  | pushing (msg : FafIceMsg) (currentUfrag : String) (phase : ICEPeer.PushPhase)
  deriving DecidableEq, Repr

/-- A message `HandleIceMsg` has dealt with, and whether it started a restart for it. -/
structure Delivery where
  msg : FafIceMsg
  restarted : Bool
  deriving DecidableEq, Repr

structure Signaling where
  peer : ICEPeer
  handler : Handler := .idle
  /-- The message `run` has taken. -/
  taken : Option FafIceMsg := none
  /-- The last message delivered. -/
  last : Option Delivery := none

/-- `handle` is the next step of `HandleIceMsg`; `iceMsg none` is a text that does not parse. -/
inductive SignalingEvent
  | iceMsg (parsed : Option FafIceMsg)
  | handle
  | start
  | run (ev : ICEPeer.RunEvent)
  deriving DecidableEq, Repr

namespace Signaling

def iceMsg (parsed : Option FafIceMsg) (s : Signaling) : Signaling :=
  match s.handler, parsed with
  | .idle, some msg => if msg.hasCredentials then { s with handler := .checking msg } else s
  | _, _ => s

def handle (s : Signaling) : Signaling :=
  match s.handler with
  | .idle => s
  | .checking msg =>
    if s.peer.isRestart msg then { s with handler := .idle, last := some ⟨msg, true⟩ }
    else { s with handler := .pushing msg s.peer.remoteUfrag .select }
  | .pushing msg currentUfrag phase =>
    let pushed := s.peer.push msg phase
    match pushed.2 with
    | none => { s with peer := pushed.1, handler := .idle, last := some ⟨msg, false⟩ }
    | some next => { s with peer := pushed.1, handler := .pushing msg currentUfrag next }

def run (ev : ICEPeer.RunEvent) (s : Signaling) : Signaling :=
  let peer := s.peer.advance ev
  match peer.phase with
  | .taken msg => { s with peer := peer, taken := some msg }
  | _ => { s with peer := peer }

def step (s : Signaling) : SignalingEvent → Signaling × Unit
  | .iceMsg parsed => (s.iceMsg parsed, ())
  | .handle => (s.handle, ())
  | .start => ({ s with peer := s.peer.start }, ())
  | .run ev => (s.run ev, ())

/-- Once `run` has taken a message, the last message delivered has the ufrag `run` uses, or a restart
has been started for it. -/
def NewestUsed (s : Signaling) : Prop :=
  ∀ taken, s.taken = some taken → ∀ d, s.last = some d → d.msg.ufrag = taken.ufrag ∨ d.restarted = true

/-- When `run` takes the oldest message of the channel, the newest one has the same ufrag; and what is
pushed after that without having seen a ufrag has the one that was taken. -/
def UsesNewest (s : Signaling) : SignalingEvent → Prop
  | .run .take => ∀ msg rest, s.peer.phase = .waiting → s.peer.remoteMsg = msg :: rest →
      ∀ newest, rest.getLast? = some newest → newest.ufrag = msg.ufrag
  | .handle => ∀ msg phase, s.handler = .pushing msg "" phase → (s.peer.push msg phase).2 = none →
      ∀ taken, s.taken = some taken → msg.ufrag = taken.ufrag
  | _ => True

/-! ## What a step does -/

/-- A step, by what it does to the message taken and the message delivered last. -/
inductive Effect (s : Signaling) : SignalingEvent → Signaling → Prop
  | quiet {ev : SignalingEvent} {s' : Signaling} (htaken : s'.taken = s.taken) (hlast : s'.last = s.last)
      (hcond : s.UsesNewest ev) : Effect s ev s'
  | took {msg : FafIceMsg} {rest : List FafIceMsg} {s' : Signaling} (hphase : s.peer.phase = .waiting)
      (hqueue : s.peer.remoteMsg = msg :: rest) (htaken : s'.taken = some msg)
      (hlast : s'.last = s.last) : Effect s (.run .take) s'
  | restarted {msg : FafIceMsg} {s' : Signaling} (hhandler : s.handler = .checking msg)
      (hrestart : s.peer.isRestart msg = true) (htaken : s'.taken = s.taken)
      (hlast : s'.last = some ⟨msg, true⟩) : Effect s .handle s'
  | pushed {msg : FafIceMsg} {currentUfrag : String} {phase : ICEPeer.PushPhase} {s' : Signaling}
      (hhandler : s.handler = .pushing msg currentUfrag phase) (hdone : (s.peer.push msg phase).2 = none)
      (htaken : s'.taken = s.taken) (hlast : s'.last = some ⟨msg, false⟩) : Effect s .handle s'

/-- What is known of `run` from the message it has taken. -/
structure Consistent (s : Signaling) : Prop where
  early : s.peer.phase.early = true → s.taken = none
  taken : ∀ msg, s.peer.phase = .taken msg → s.taken = some msg
  ufrag : ∀ ufrag, s.peer.remoteUfrag = ufrag → ufrag ≠ "" →
    ∃ taken, s.taken = some taken ∧ taken.ufrag = ufrag

/-- A message that is pushed although its handler has seen a ufrag carries the ufrag of the message
that was taken. -/
def Looked (s : Signaling) : Prop :=
  ∀ msg currentUfrag phase, s.handler = .pushing msg currentUfrag phase → currentUfrag ≠ "" →
    ∃ taken, s.taken = some taken ∧ msg.ufrag = taken.ufrag

/-- The channel before `run` takes a message: the message delivered last is the newest one in it. -/
structure Queued (s : Signaling) : Prop where
  fresh : s.last = none → s.peer.remoteMsg.length ≤ 1
  newest : ∀ d, s.last = some d → s.peer.remoteMsg.getLast? = some d.msg ∧ d.restarted = false
  full : ∀ msg currentUfrag, s.handler = .pushing msg currentUfrag .drop →
    remoteMsgCap ≤ s.peer.remoteMsg.length

theorem push_phase (msg : FafIceMsg) (p : ICEPeer) (phase : ICEPeer.PushPhase) :
    (p.push msg phase).1.phase = p.phase ∧ (p.push msg phase).1.remoteUfrag = p.remoteUfrag := by
  cases phase with
  | drop => exact ⟨rfl, rfl⟩
  | select | send =>
    unfold ICEPeer.push
    dsimp only
    split <;> exact ⟨rfl, rfl⟩

theorem usesNewest_handle {s : Signaling} (h : ∀ msg phase, s.handler = .pushing msg "" phase →
    (s.peer.push msg phase).2 ≠ none) : s.UsesNewest .handle :=
  fun msg phase hpush hdone => absurd hdone (h msg phase hpush)

theorem effect_handle (s : Signaling) : Effect s .handle s.handle := by
  unfold handle
  cases hhandler : s.handler with
  | idle => exact .quiet rfl rfl (usesNewest_handle (by simp [hhandler]))
  | checking msg =>
    dsimp only
    split
    · next hrestart => exact .restarted hhandler hrestart rfl rfl
    · exact .quiet rfl rfl (usesNewest_handle (by simp [hhandler]))
  | pushing msg currentUfrag phase =>
    dsimp only
    cases hdone : (s.peer.push msg phase).2 with
    | none => exact .pushed hhandler hdone rfl rfl
    | some next =>
      refine .quiet rfl rfl (usesNewest_handle fun msg' phase' hpush => ?_)
      rw [hhandler] at hpush
      cases hpush
      simp [hdone]

theorem usesNewest_run {s : Signaling} {ev : ICEPeer.RunEvent}
    (h : ev = .take → s.peer.phase = .waiting → s.peer.remoteMsg = []) : s.UsesNewest (.run ev) := by
  cases ev with
  | take =>
    intro msg rest hphase hqueue
    rw [h rfl hphase] at hqueue
    cases hqueue
  | _ => trivial

theorem effect_run {s : Signaling} (h : Consistent s) (ev : ICEPeer.RunEvent) :
    Effect s (.run ev) (s.run ev) := by
  have hmove := s.peer.runMove_advance ev
  unfold run
  generalize s.peer.advance ev = p at hmove
  cases hmove with
  | take hphase hqueue => exact .took hphase hqueue rfl rfl
  | record hphase => exact .quiet rfl rfl trivial
  | other hufrag htaken hearly htake =>
    have hcond := usesNewest_run htake
    dsimp only
    split
    · next msg hp => exact .quiet (h.taken msg (htaken msg hp)).symm rfl hcond
    · exact .quiet rfl rfl hcond

theorem effect_step {s : Signaling} (h : Consistent s) (ev : SignalingEvent) :
    Effect s ev (s.step ev).1 := by
  cases ev with
  | iceMsg parsed =>
    simp only [step, iceMsg]
    repeat' split
    all_goals exact .quiet rfl rfl trivial
  | handle => exact effect_handle s
  | start => exact .quiet rfl rfl trivial
  | run ev => exact effect_run h ev

/-! ## The record of `run` -/

theorem Consistent.ufrag_none {s : Signaling} (h : Consistent s) (hnone : s.taken = none) :
    s.peer.remoteUfrag = "" := by
  by_contra hne
  obtain ⟨taken, htaken, -⟩ := h.ufrag _ rfl hne
  rw [hnone] at htaken
  cases htaken

theorem Consistent.handle {s : Signaling} (h : Consistent s) : Consistent s.handle := by
  unfold Signaling.handle
  cases hhandler : s.handler with
  | idle => exact h
  | checking msg =>
    dsimp only
    split <;> exact ⟨h.early, h.taken, h.ufrag⟩
  | pushing msg currentUfrag phase =>
    obtain ⟨hphase, hufrag⟩ := push_phase msg s.peer phase
    have hpushed : ∀ s' : Signaling, s'.peer = (s.peer.push msg phase).1 → s'.taken = s.taken →
        Consistent s' := by
      intro s' hpeer htaken
      refine ⟨?_, ?_, ?_⟩
      · rw [hpeer, hphase, htaken]
        exact h.early
      · rw [hpeer, hphase, htaken]
        exact h.taken
      · rw [hpeer, hufrag, htaken]
        exact h.ufrag
    dsimp only
    split <;> exact hpushed _ rfl rfl

theorem Consistent.run {s : Signaling} (h : Consistent s) (ev : ICEPeer.RunEvent) :
    Consistent (s.run ev) := by
  have hmove := s.peer.runMove_advance ev
  unfold Signaling.run
  generalize s.peer.advance ev = p at hmove
  cases hmove with
  | take hphase hqueue =>
    have hnone := h.ufrag_none (h.early (by rw [hphase]; rfl))
    exact ⟨nofun, fun _ he => by cases he; rfl, fun ufrag he hne => absurd (he.symm.trans hnone) hne⟩
  | @record msg hphase =>
    exact ⟨nofun, nofun, fun ufrag he _ => ⟨msg, h.taken _ hphase, he⟩⟩
  | other hufrag htaken hearly htake =>
    dsimp only
    split
    · next msg hp =>
      have hsame := h.taken msg (htaken msg hp)
      refine ⟨fun he => ?_, fun msg' he => ?_, ?_⟩
      · rw [hp] at he
        cases he
      · rw [hp] at he
        cases he
        rfl
      · rw [hufrag, ← hsame]
        exact h.ufrag
    · next hp =>
      refine ⟨fun he => h.early (hearly he), fun msg he => absurd he (hp msg), ?_⟩
      rw [hufrag]
      exact h.ufrag

theorem Consistent.step {s : Signaling} (h : Consistent s) (ev : SignalingEvent) :
    Consistent (s.step ev).1 := by
  cases ev with
  | iceMsg parsed =>
    simp only [Signaling.step, iceMsg]
    repeat' split
    all_goals exact ⟨h.early, h.taken, h.ufrag⟩
  | handle => exact h.handle
  | start =>
    simp only [Signaling.step, ICEPeer.start]
    split
    · next hphase => exact ⟨fun _ => h.early (by rw [hphase]; rfl), nofun, h.ufrag⟩
    · exact ⟨h.early, h.taken, h.ufrag⟩
  | run ev => exact h.run ev

/-! ## What a handler has seen -/

/-- A message that is not a restart carries the ufrag on record, if there is one. -/
theorem ufrag_of_not_isRestart {p : ICEPeer} {msg : FafIceMsg} (h : p.isRestart msg = false)
    (hne : p.remoteUfrag ≠ "") : msg.ufrag = p.remoteUfrag := by
  unfold ICEPeer.isRestart at h
  simpa [hne] using h

/-- `run` takes at most one message. -/
theorem taken_step {s : Signaling} (h : Consistent s) (ev : SignalingEvent) {taken : FafIceMsg}
    (htaken : s.taken = some taken) : (s.step ev).1.taken = some taken := by
  cases effect_step h ev with
  | quiet he _ _ => rw [he, htaken]
  | took hphase _ _ _ =>
    rw [h.early (by rw [hphase]; rfl)] at htaken
    cases htaken
  | restarted _ _ he _ => rw [he, htaken]
  | pushed _ _ he _ => rw [he, htaken]

theorem Looked.step {s : Signaling} (h : Looked s) (hc : Consistent s) (ev : SignalingEvent) :
    Looked (s.step ev).1 := by
  intro msg currentUfrag phase hpush hne
  -- the handler was pushing before, or has just looked
  have hbefore : (∃ phase', s.handler = .pushing msg currentUfrag phase') ∨
      (s.handler = .checking msg ∧ s.peer.isRestart msg = false ∧ currentUfrag = s.peer.remoteUfrag) := by
    cases ev with
    | iceMsg parsed =>
      simp only [Signaling.step, iceMsg] at hpush
      repeat' split at hpush
      all_goals simp_all
    | start => exact Or.inl ⟨phase, hpush⟩
    | run ev =>
      simp only [Signaling.step, Signaling.run] at hpush
      split at hpush <;> exact Or.inl ⟨phase, hpush⟩
    | handle =>
      simp only [Signaling.step, Signaling.handle] at hpush
      repeat' split at hpush
      all_goals simp_all
  obtain ⟨taken, htaken, hufrag⟩ : ∃ taken, s.taken = some taken ∧ msg.ufrag = taken.ufrag := by
    rcases hbefore with ⟨phase', hpush'⟩ | ⟨-, hrestart, rfl⟩
    · exact h msg currentUfrag phase' hpush' hne
    · obtain ⟨taken, htaken, hufrag⟩ := hc.ufrag _ rfl hne
      exact ⟨taken, htaken, (ufrag_of_not_isRestart hrestart hne).trans hufrag.symm⟩
  exact ⟨taken, taken_step hc ev htaken, hufrag⟩

/-! ## The channel -/

/-- A push that goes through puts its message at the end. -/
theorem Queued.delivered {s s' : Signaling} {msg : FafIceMsg}
    (hqueue : s'.peer.remoteMsg = s.peer.remoteMsg ++ [msg]) (hhandler : s'.handler = .idle)
    (hlast : s'.last = some ⟨msg, false⟩) : Queued s' where
  fresh hnone := by
    rw [hlast] at hnone
    cases hnone
  newest d hd := by
    rw [hlast] at hd
    cases hd
    rw [hqueue]
    exact ⟨List.getLast?_concat, rfl⟩
  full msg currentUfrag hpush := by
    rw [hhandler] at hpush
    cases hpush

theorem Queued.handle {s : Signaling} (h : Queued s) (hufrag : s.peer.remoteUfrag = "") :
    Queued s.handle := by
  unfold Signaling.handle
  cases hhandler : s.handler with
  | idle => exact h
  | checking msg =>
    have hrestart : s.peer.isRestart msg = false := by simp [ICEPeer.isRestart, hufrag]
    simp only [hrestart, Bool.false_eq_true, if_false]
    exact ⟨h.fresh, h.newest, by simp⟩
  | pushing msg currentUfrag phase =>
    cases phase with
    | select =>
      by_cases hroom : s.peer.remoteMsg.length < remoteMsgCap
      · simp only [ICEPeer.push, if_pos hroom]
        exact .delivered (s := s) rfl rfl rfl
      · simp only [ICEPeer.push, if_neg hroom]
        exact ⟨h.fresh, h.newest, fun _ _ _ => Nat.le_of_not_lt hroom⟩
    | drop =>
      have hfull : 4 ≤ s.peer.remoteMsg.length := h.full msg currentUfrag hhandler
      refine ⟨fun hnone => ?_, fun d hd => ?_, by simp [ICEPeer.push]⟩
      · have hfresh := h.fresh hnone
        omega
      · obtain ⟨hlast, hrest⟩ := h.newest d hd
        refine ⟨?_, hrest⟩
        show s.peer.remoteMsg.tail.getLast? = some d.msg
        rw [List.getLast?_tail, if_neg (by omega), hlast]
    | send =>
      by_cases hroom : s.peer.remoteMsg.length < remoteMsgCap
      · simp only [ICEPeer.push, if_pos hroom]
        exact .delivered (s := s) rfl rfl rfl
      · simp only [ICEPeer.push, if_neg hroom]
        exact ⟨h.fresh, h.newest, by simp⟩

/-- Only the step in which `run` takes a message touches the channel. -/
theorem remoteMsg_advance (p : ICEPeer) (ev : ICEPeer.RunEvent) :
    (p.advance ev).remoteMsg = p.remoteMsg ∨ ∃ msg, (p.advance ev).phase = .taken msg := by
  cases ev with
  | take =>
    unfold ICEPeer.advance
    dsimp only
    split
    · exact Or.inr ⟨_, rfl⟩
    · exact Or.inl rfl
  | gathered | noCredentials | record | connected | connectFailed =>
    unfold ICEPeer.advance
    dsimp only
    split <;> exact Or.inl rfl

theorem Queued.step {s : Signaling} (h : s.taken = none → Queued s) (hc : Consistent s)
    (ev : SignalingEvent) : (s.step ev).1.taken = none → Queued (s.step ev).1 := by
  intro hnone
  have hbefore : s.taken = none := by
    cases htaken : s.taken with
    | none => rfl
    | some taken =>
      rw [taken_step hc ev htaken] at hnone
      cases hnone
  have hq := h hbefore
  cases ev with
  | iceMsg parsed =>
    simp only [Signaling.step, iceMsg]
    repeat' split
    all_goals first | exact hq | exact ⟨hq.fresh, hq.newest, by simp⟩
  | handle => exact hq.handle (hc.ufrag_none hbefore)
  | start =>
    have hqueue : s.peer.start.remoteMsg = s.peer.remoteMsg := by
      unfold ICEPeer.start
      split <;> rfl
    refine ⟨?_, ?_, ?_⟩ <;> (simp only [Signaling.step, hqueue])
    · exact hq.fresh
    · exact hq.newest
    · exact hq.full
  | run ev =>
    simp only [Signaling.step, Signaling.run] at hnone ⊢
    split at hnone
    · cases hnone
    · next hphase =>
      have hqueue := (remoteMsg_advance s.peer ev).resolve_right fun ⟨msg, hmsg⟩ => hphase msg hmsg
      refine ⟨?_, ?_, ?_⟩ <;> simp only [hqueue]
      · exact hq.fresh
      · exact hq.newest
      · exact hq.full

/-! ## Runs -/

structure Sound (s : Signaling) : Prop where
  consistent : Consistent s
  looked : Looked s
  queued : s.taken = none → Queued s

theorem Sound.step {s : Signaling} (h : Sound s) (ev : SignalingEvent) : Sound (s.step ev).1 :=
  ⟨h.consistent.step ev, h.looked.step h.consistent ev, Queued.step h.queued h.consistent ev⟩

/-- The newest message of the channel is the one delivered last, or nothing has been delivered yet
and the channel holds no second one. -/
theorem Queued.newest_iff {s : Signaling} (h : Queued s) {msg : FafIceMsg} {rest : List FafIceMsg}
    (hqueue : s.peer.remoteMsg = msg :: rest) :
    (∀ d, s.last = some d → d.msg.ufrag = msg.ufrag) ↔
      ∀ newest, rest.getLast? = some newest → newest.ufrag = msg.ufrag := by
  cases hlast : s.last with
  | none =>
    have hlen := h.fresh hlast
    rw [hqueue, List.length_cons] at hlen
    have hnil : rest = [] := List.eq_nil_of_length_eq_zero (by omega)
    simp [hnil]
  | some d =>
    have hnewest := (h.newest d hlast).1
    rw [hqueue, List.getLast?_cons] at hnewest
    cases hrest : rest.getLast? with
    | none =>
      rw [hrest] at hnewest
      cases hnewest
      simp
    | some newest =>
      rw [hrest] at hnewest
      cases hnewest
      simp

theorem newestUsed_effect {s s' : Signaling} {ev : SignalingEvent} (h : Sound s)
    (hs : NewestUsed s) (he : Effect s ev s') : NewestUsed s' ↔ UsesNewest s ev := by
  unfold NewestUsed
  cases he with
  | quiet htaken hlast hcond =>
    rw [htaken, hlast]
    exact iff_of_true hs hcond
  | @took msg rest _ hphase hqueue htaken hlast =>
    have hnone := h.consistent.early (by rw [hphase]; rfl)
    have hq := h.queued hnone
    rw [htaken, hlast]
    constructor
    · intro hnew msg' rest' _ hqueue'
      rw [hqueue] at hqueue'
      cases hqueue'
      refine (hq.newest_iff hqueue).mp fun d hd => (hnew msg rfl d hd).resolve_right ?_
      simp [(hq.newest d hd).2]
    · rintro hcond taken he d hd
      cases he
      exact Or.inl ((hq.newest_iff hqueue).mpr (hcond msg rest hphase hqueue) d hd)
  | restarted hhandler hrestart htaken hlast =>
    rw [htaken, hlast]
    refine iff_of_true ?_ (usesNewest_handle (by simp [hhandler]))
    rintro taken - d hd
    cases hd
    exact Or.inr rfl
  | @pushed msg currentUfrag phase _ hhandler hdone htaken hlast =>
    rw [htaken, hlast]
    constructor
    · intro hnew msg' phase' hpush _ taken ht
      rw [hhandler] at hpush
      cases hpush
      simpa using hnew taken ht ⟨msg, false⟩ rfl
    · rintro hcond taken ht d hd
      cases hd
      refine Or.inl ?_
      by_cases hseen : currentUfrag = ""
      · subst hseen
        exact hcond msg phase hhandler hdone taken ht
      · obtain ⟨taken', ht', hufrag⟩ := h.looked msg currentUfrag phase hhandler hseen
        rw [ht] at ht'
        cases ht'
        exact hufrag

/-- A new peer, with the message `ReplaceICEPeer` puts in its channel. -/
def init (playerID : ℤ) (login : String) (offerer : Bool) (onRestart : RestartID) (conn : SocketID)
    (ownsConn : Bool) (initialMsg : Option FafIceMsg) : Signaling :=
  { peer := (ICEPeer.fresh playerID login offerer onRestart conn ownsConn).preload initialMsg }

theorem newestUsed_iff (playerID : ℤ) (login : String) (offerer : Bool) (onRestart : RestartID)
    (conn : SocketID) (ownsConn : Bool) (initialMsg : Option FafIceMsg) (events : List SignalingEvent) :
    AllSteps step (fun s ev _ => NewestUsed (s.step ev).1)
        (init playerID login offerer onRestart conn ownsConn initialMsg) events ↔
      AllSteps step (fun s ev _ => UsesNewest s ev)
        (init playerID login offerer onRestart conn ownsConn initialMsg) events := by
  refine allSteps_iff_of_invariant (I := Sound) (P := NewestUsed) (fun s ev h => h.step ev)
    (fun s ev h hs => newestUsed_effect h hs (effect_step h.consistent ev)) ?_ ?_ events
  · refine ⟨⟨fun _ => rfl, nofun, fun ufrag he hne => absurd he.symm hne⟩, nofun, fun _ => ⟨fun _ => ?_, nofun, nofun⟩⟩
    cases initialMsg <;> simp [init, ICEPeer.fresh, ICEPeer.preload]
  · exact nofun

/-- The remote peer restarts while this one still gathers candidates: two messages with different
credentials wait when `run` comes to take one. -/
def gatheringEvents : List SignalingEvent :=
  [.start, .iceMsg (some ⟨"old", "pw", false⟩), .handle, .handle,
    .iceMsg (some ⟨"new", "pw", false⟩), .handle, .handle, .run .gathered]

theorem olderMessage_taken :
    ¬ AllSteps step (fun s ev _ => NewestUsed (s.step ev).1) (init 2 "peer" true 0 0 true none)
      (gatheringEvents ++ [.run .take]) := by
  intro h
  have hlast := (allSteps_concat.mp h).2 ⟨"old", "pw", false⟩ rfl ⟨⟨"new", "pw", false⟩, false⟩ rfl
  exact absurd hlast (by decide)

end Signaling
end Adapter
end SturmRelay
