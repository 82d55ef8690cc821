import SturmRelay.Adapter.GPGNetServer
import Mathlib.Data.List.Nodup

/-! # The lobby queue delivers exactly once

Five invariants, each kept by every move:

* `Locking`: `queueMu` is held by the call that is between its `Lock` and its `Unlock`.
* `Closed`: past the close, `lobbyReady` is closed.
* `Taken`: once the read loop has taken the queue, the queue stays empty. This is where the order of
  close, check, append and swap matters: a call that saw `lobbyReady` open holds `queueMu` until it
  has appended, and the swap needs `queueMu`.
* `Accounting`: a call has its message written or waiting, once, if and only if it has returned and
  was not rejected.
* `Readiness`: before `lobbyReady` is closed nothing has been written and nobody is on the way to
  write; it is closed only after the game has reported `Lobby`.

The first four, with the bound on the queue, are `Queueing`: they do not ask which game the messages
are for. -/

namespace SturmRelay
namespace Adapter
set_option autoImplicit false

open GPGNet (Message Outgoing)

/-- Between `queueMu.Lock()` and `queueMu.Unlock()`. -/
def CallState.holdsLock : CallState → Bool
  | .checking _ => true
  | .appending _ => true
  | _ => false

/-- Returned, and not rejected. -/
def CallState.accepted : CallState → Bool
  | .done _ outcome => decide (outcome ≠ .rejected)
  | _ => false

/-- The read loop is past the close. -/
def LoopState.pastClose : LoopState → Bool
  | .flushing => true
  | .sending _ => true
  | _ => false

namespace GPGNetServer
variable {createLobby : Outgoing} {ev : GPGNetEvent} {g g' : GPGNetServer}

/-! ## Locking -/

def Locking (g : GPGNetServer) : Prop := ∀ i, g.queueMu = some i ↔ (g.calls i).holdsLock = true

/-- A call that neither takes nor gives back the lock. -/
theorem Locking.update (h : Locking g) {i : CallID} {st : CallState}
    (hst : st.holdsLock = (g.calls i).holdsLock) :
    ∀ j, g.queueMu = some j ↔ (Function.update g.calls i st j).holdsLock = true := by
  intro j
  by_cases hj : j = i
  · subst hj
    rw [Function.update_self, hst]
    exact h j
  · rw [Function.update_of_ne hj]
    exact h j

theorem Locking.acquire (h : Locking g) (hfree : g.queueMu = none) {i : CallID} {st : CallState}
    (hst : st.holdsLock = true) :
    ∀ j, some i = some j ↔ (Function.update g.calls i st j).holdsLock = true := by
  intro j
  by_cases hj : j = i
  · subst hj
    simp [hst]
  · have hnot : (g.calls j).holdsLock ≠ true := by
      rw [Ne, ← h j, hfree]
      simp
    rw [Function.update_of_ne hj]
    exact ⟨fun he => absurd (Option.some.inj he).symm hj, fun he => absurd he hnot⟩

theorem Locking.release (h : Locking g) {i : CallID} (hheld : (g.calls i).holdsLock = true)
    {st : CallState} (hst : st.holdsLock = false) :
    ∀ j, none = some j ↔ (Function.update g.calls i st j).holdsLock = true := by
  intro j
  refine ⟨(fun he => absurd he (by simp)), fun he => ?_⟩
  by_cases hj : j = i
  · subst hj
    rw [Function.update_self, hst] at he
    cases he
  · rw [Function.update_of_ne hj, ← h j, (h i).mpr hheld] at he
    exact absurd (Option.some.inj he).symm hj

theorem Locking.move (h : Locking g) (hm : Move createLobby g ev g') : Locking g' := by
  cases hm with
  | stay hsend => exact h
  | start msg hcall => exact h.update (by rw [hcall]; rfl)
  | lock hcall hfree => exact h.acquire hfree rfl
  | ready hcall hready => exact h.release (by rw [hcall]; rfl) rfl
  | notReady hcall hready => exact h.update (by rw [hcall]; rfl)
  | reject hcall hfull => exact h.release (by rw [hcall]; rfl) rfl
  | enqueue hcall hroom => exact h.release (by rw [hcall]; rfl) rfl
  | send hcall => exact h.update (by rw [hcall]; rfl)
  | report st hloop => exact h
  | createLobby hloop => exact h
  | close hloop =>
    unfold closeLobbyReady
    split <;> exact h
  | swap hloop hfree => exact h
  | flushed hloop => exact h
  | flush hloop => exact h
  | sendToGame msg => exact h

/-! ## The close -/

structure Closed (g : GPGNetServer) : Prop where
  once : g.lobbyOnce = g.lobbyReady
  past : g.loop.pastClose = true → g.lobbyReady = true

theorem Closed.move (h : Closed g) (hm : Move createLobby g ev g') : Closed g' := by
  cases hm with
  | report st hloop => exact ⟨h.once, fun hpast => by cases st <;> cases hpast⟩
  | createLobby hloop => exact ⟨h.once, nofun⟩
  | close hloop =>
    unfold closeLobbyReady
    split
    · next honce => exact ⟨h.once, fun _ => h.once ▸ honce⟩
    · exact ⟨rfl, fun _ => rfl⟩
  | swap hloop hfree => exact ⟨h.once, fun _ => h.past (by rw [hloop]; rfl)⟩
  | flushed hloop => exact ⟨h.once, nofun⟩
  | flush hloop => exact ⟨h.once, fun _ => h.past (by rw [hloop]; rfl)⟩
  | _ => exact ⟨h.once, h.past⟩

/-! ## Readiness -/

structure Readiness (g : GPGNetServer) : Prop where
  sending : ∀ i msg, g.calls i = .sending msg → g.lobbyReady = true
  written : g.writtenQueued ≠ [] → g.lobbyReady = true
  reported : g.lobbyReady = true ∨ g.loop = .closing → .lobby ∈ g.reports

theorem sending_update {i : CallID} {st : CallState} {P : Prop}
    (h : ∀ j msg, g.calls j = .sending msg → P) (hst : ∀ msg, st = .sending msg → P) :
    ∀ j msg, Function.update g.calls i st j = .sending msg → P := by
  intro j msg hj
  by_cases he : j = i
  · subst he
    rw [Function.update_self] at hj
    exact hst msg hj
  · rw [Function.update_of_ne he] at hj
    exact h j msg hj

theorem writtenQueued_write (m : WrittenMessage) (g : GPGNetServer) :
    (g.write m).writtenQueued = g.writtenQueued ++ m.queued.toList := by
  unfold writtenQueued write
  rw [List.filterMap_append]
  cases hm : m.queued <;> simp [hm]

theorem writtenQueued_write_none (msg : Outgoing) (g : GPGNetServer) :
    (g.write ⟨none, msg⟩).writtenQueued = g.writtenQueued :=
  (writtenQueued_write ⟨none, msg⟩ g).trans (List.append_nil _)

theorem writtenQueued_write_some (i : CallID) (msg : Outgoing) (g : GPGNetServer) :
    (g.write ⟨some i, msg⟩).writtenQueued = g.writtenQueued ++ [⟨i, msg⟩] :=
  writtenQueued_write ⟨some i, msg⟩ g

theorem Readiness.move (h : Readiness g) (hc : Closed g) (hm : Move createLobby g ev g') :
    Readiness g' := by
  cases hm with
  | stay hsend => exact h
  | start msg hcall => exact ⟨sending_update h.sending (by simp), h.written, h.reported⟩
  | lock hcall hfree => exact ⟨sending_update h.sending (by simp), h.written, h.reported⟩
  | ready hcall hready => exact ⟨sending_update h.sending fun _ _ => hready, h.written, h.reported⟩
  | notReady hcall hready => exact ⟨sending_update h.sending (by simp), h.written, h.reported⟩
  | reject hcall hfull => exact ⟨sending_update h.sending (by simp), h.written, h.reported⟩
  | enqueue hcall hroom => exact ⟨sending_update h.sending (by simp), h.written, h.reported⟩
  | send hcall =>
    exact ⟨sending_update h.sending (by simp), fun _ => h.sending _ _ hcall, h.reported⟩
  | report st hloop =>
    refine ⟨h.sending, h.written, ?_⟩
    rintro (hready | hclosing)
    · exact List.mem_append_left _ (h.reported (Or.inl hready))
    · cases st <;> cases hclosing
      exact List.mem_append_right _ (List.mem_singleton.mpr rfl)
  | createLobby hloop =>
    refine ⟨h.sending, fun hw => h.written ?_, ?_⟩
    · change (g.write ⟨none, createLobby⟩).writtenQueued ≠ [] at hw
      rwa [writtenQueued_write_none] at hw
    · rintro (hready | hclosing)
      · exact h.reported (Or.inl hready)
      · cases hclosing
  | close hloop =>
    have hlobby := h.reported (Or.inr hloop)
    unfold closeLobbyReady
    split
    · exact ⟨h.sending, h.written, fun _ => hlobby⟩
    · exact ⟨fun _ _ _ => rfl, fun _ => rfl, fun _ => hlobby⟩
  | swap hloop hfree =>
    have hready := hc.past (by rw [hloop]; rfl)
    exact ⟨h.sending, h.written, fun _ => h.reported (Or.inl hready)⟩
  | flushed hloop =>
    refine ⟨h.sending, h.written, ?_⟩
    rintro (hready | hclosing)
    · exact h.reported (Or.inl hready)
    · cases hclosing
  | flush hloop =>
    have hready := hc.past (by rw [hloop]; rfl)
    exact ⟨h.sending, fun _ => hready, fun _ => h.reported (Or.inl hready)⟩
  | sendToGame msg =>
    refine ⟨h.sending, fun hw => h.written ?_, h.reported⟩
    rwa [writtenQueued_write_none] at hw

/-! ## The queue is taken once -/

/-- The read loop has taken the queue. -/
def Swapped (g : GPGNetServer) : Prop := g.lobbyProcessed = true ∨ ∃ queue, g.loop = .sending queue

structure Taken (g : GPGNetServer) : Prop where
  ready : Swapped g → g.lobbyReady = true
  empty : Swapped g → g.messageQueue = []
  appending : Swapped g → ∀ i msg, g.calls i ≠ .appending msg
  processed : g.lobbyProcessed = true → g.pending = []

theorem appending_update {i : CallID} {st : CallState} (h : ∀ j msg, g.calls j ≠ .appending msg)
    (hst : ∀ msg, st ≠ .appending msg) :
    ∀ j msg, Function.update g.calls i st j ≠ .appending msg := by
  intro j msg
  by_cases he : j = i
  · subst he
    rw [Function.update_self]
    exact hst msg
  · rw [Function.update_of_ne he]
    exact h j msg

theorem pending_sending {queue : List QueuedMessage} (hloop : g.loop = .sending queue) :
    g.pending = queue ++ g.messageQueue := by
  unfold pending
  rw [hloop]

theorem pending_idle (hloop : ∀ queue, g.loop ≠ .sending queue) : g.pending = g.messageQueue := by
  unfold pending
  split
  · next queue hsend => exact absurd hsend (hloop queue)
  · rfl

theorem Taken.not_swapped (h : Taken g) {i : CallID} {msg : Outgoing}
    (hcall : g.calls i = .appending msg) : ¬ Swapped g :=
  fun hs => h.appending hs i msg hcall

/-- A move of one call, other than one that starts or ends an append. -/
theorem Taken.update (h : Taken g) {i : CallID} {st : CallState}
    (hst : Swapped g → ∀ msg, st ≠ .appending msg) (hcalls : g'.calls = Function.update g.calls i st)
    (hready : g'.lobbyReady = g.lobbyReady) (hqueue : g'.messageQueue = g.messageQueue)
    (hloop : g'.loop = g.loop) (hproc : g'.lobbyProcessed = g.lobbyProcessed) : Taken g' := by
  have hswap : Swapped g' → Swapped g := by
    unfold Swapped
    rw [hloop, hproc]
    exact id
  have hpend : g'.pending = g.pending := by
    unfold pending
    rw [hloop, hqueue]
  refine ⟨?_, ?_, ?_, ?_⟩
  · intro hs
    rw [hready]
    exact h.ready (hswap hs)
  · intro hs
    rw [hqueue]
    exact h.empty (hswap hs)
  · intro hs
    rw [hcalls]
    exact appending_update (h.appending (hswap hs)) (hst (hswap hs))
  · intro hp
    rw [hpend]
    exact h.processed (hproc ▸ hp)

/-- A move of the read loop outside the flush. -/
theorem Taken.idle (h : Taken g) (hcalls : g'.calls = g.calls)
    (hready : g.lobbyReady = true → g'.lobbyReady = true)
    (hqueue : g'.messageQueue = g.messageQueue) (hproc : g'.lobbyProcessed = g.lobbyProcessed)
    (hloop : ∀ queue, g'.loop ≠ .sending queue) : Taken g' := by
  have hswap : Swapped g' → Swapped g := by
    rintro (hp | ⟨queue, hsend⟩)
    · exact Or.inl (hproc ▸ hp)
    · exact absurd hsend (hloop queue)
  refine ⟨fun hs => hready (h.ready (hswap hs)), ?_, ?_, ?_⟩
  · intro hs
    rw [hqueue]
    exact h.empty (hswap hs)
  · intro hs
    rw [hcalls]
    exact h.appending (hswap hs)
  · intro hp
    rw [pending_idle hloop, hqueue]
    exact h.empty (Or.inl (hproc ▸ hp))

/-- When `queueMu` is free nobody is about to append. -/
theorem Locking.not_appending (h : Locking g) (hfree : g.queueMu = none) (i : CallID) (msg : Outgoing) :
    g.calls i ≠ .appending msg := by
  intro hcall
  have hheld := (h i).mpr (by rw [hcall]; rfl)
  rw [hfree] at hheld
  cases hheld

theorem Taken.move (h : Taken g) (hl : Locking g) (hc : Closed g) (hm : Move createLobby g ev g') :
    Taken g' := by
  cases hm with
  | stay hsend => exact h
  | start msg hcall => exact h.update (by simp) rfl rfl rfl rfl rfl
  | lock hcall hfree => exact h.update (by simp) rfl rfl rfl rfl rfl
  | ready hcall hready => exact h.update (by simp) rfl rfl rfl rfl rfl
  | notReady hcall hready =>
    refine h.update (fun hs => ?_) rfl rfl rfl rfl rfl
    rw [h.ready hs] at hready
    cases hready
  | reject hcall hfull => exact h.update (by simp) rfl rfl rfl rfl rfl
  | enqueue hcall hroom =>
    have hnot := h.not_swapped hcall
    exact ⟨fun hs => absurd hs hnot, fun hs => absurd hs hnot, fun hs => absurd hs hnot,
      fun hp => absurd (Or.inl hp) hnot⟩
  | send hcall => exact h.update (by simp) rfl rfl rfl rfl rfl
  | report st hloop => exact h.idle rfl id rfl rfl (by cases st <;> simp [nextLoop])
  | createLobby hloop => exact h.idle rfl id rfl rfl (by simp)
  | close hloop =>
    unfold closeLobbyReady
    split
    · exact h.idle rfl id rfl rfl (by simp)
    · exact h.idle rfl (fun _ => rfl) rfl rfl (by simp)
  | swap hloop hfree =>
    have hready := hc.past (by rw [hloop]; rfl)
    refine ⟨fun _ => hready, fun _ => rfl, fun _ => hl.not_appending hfree, fun hp => ?_⟩
    -- a second report of `Lobby`: the queue was empty already
    rw [pending_sending rfl, h.empty (Or.inl hp)]
    rfl
  | flushed hloop =>
    have hs : Swapped g := Or.inr ⟨[], hloop⟩
    refine ⟨fun _ => h.ready hs, fun _ => h.empty hs, fun _ => h.appending hs, fun _ => ?_⟩
    rw [pending_idle (by simp)]
    exact h.empty hs
  | @flush m queue hloop =>
    have hs : Swapped g := Or.inr ⟨_, hloop⟩
    refine ⟨fun _ => h.ready hs, fun _ => h.empty hs, fun _ => h.appending hs, fun hp => ?_⟩
    -- not the first flush, and the later ones have nothing to send
    have hpend := h.processed hp
    rw [pending_sending hloop] at hpend
    cases hpend
  | sendToGame msg => exact ⟨h.ready, h.empty, h.appending, h.processed⟩

/-- A report of `Lobby` has been handled, or is being handled. -/
def Handled (g : GPGNetServer) : Prop :=
  .lobby ∈ g.reports → g.lobbyProcessed = true ∨ g.loop = .closing ∨ g.loop.pastClose = true

theorem Handled.move (h : Handled g) (hm : Move createLobby g ev g') : Handled g' := by
  -- where the loop is neither closing nor past the close, the report has been handled
  have hprocessed : g.loop ≠ .closing → g.loop.pastClose = false → .lobby ∈ g.reports →
      g.lobbyProcessed = true := by
    intro hclosing hpast hlobby
    rcases h hlobby with hp | hc | hp
    · exact hp
    · exact absurd hc hclosing
    · rw [hpast] at hp
      cases hp
  cases hm with
  | report st hloop =>
    intro hlobby
    rcases List.mem_append.mp hlobby with hold | hnew
    · exact Or.inl (hprocessed (by simp [hloop]) (by rw [hloop]; rfl) hold)
    · rw [← List.mem_singleton.mp hnew]
      exact Or.inr (Or.inl rfl)
  | createLobby hloop => exact fun hlobby => Or.inl (hprocessed (by simp [hloop]) (by rw [hloop]; rfl) hlobby)
  | close hloop => exact fun _ => Or.inr (Or.inr rfl)
  | swap hloop hfree => exact fun _ => Or.inr (Or.inr rfl)
  | flushed hloop => exact fun _ => Or.inl rfl
  | flush hloop => exact fun _ => Or.inr (Or.inr rfl)
  | _ => exact h

/-! ## Every accepted message is written or waits -/

/-- The messages of queued calls: those written, then those that wait. -/
def entries (g : GPGNetServer) : List QueuedMessage := g.writtenQueued ++ g.pending

structure Accounting (g : GPGNetServer) : Prop where
  nodup : (g.entries.map QueuedMessage.call).Nodup
  accepted : ∀ i msg, (⟨i, msg⟩ : QueuedMessage) ∈ g.entries ↔
    ∃ outcome, outcome ≠ .rejected ∧ g.calls i = .done msg outcome

theorem Accounting.not_mem (h : Accounting g) {i : CallID}
    (hcall : ∀ msg outcome, g.calls i ≠ .done msg outcome) : i ∉ g.entries.map QueuedMessage.call := by
  intro hi
  obtain ⟨⟨j, msg⟩, hmem, rfl⟩ := List.mem_map.mp hi
  obtain ⟨outcome, -, hdone⟩ := (h.accepted j msg).mp hmem
  exact hcall msg outcome hdone

/-- A move that accepts nothing: the messages are the same, and so are the calls that are done. -/
theorem Accounting.same (h : Accounting g) (hentries : g'.entries = g.entries)
    (hcalls : ∀ i msg outcome, outcome ≠ .rejected →
      (g'.calls i = .done msg outcome ↔ g.calls i = .done msg outcome)) : Accounting g' := by
  refine ⟨hentries ▸ h.nodup, fun i msg => ?_⟩
  rw [hentries, h.accepted i msg]
  refine exists_congr fun outcome => ?_
  exact and_congr_right fun hout => (hcalls i msg outcome hout).symm

/-- A call moves that neither was nor is accepted. -/
theorem Accounting.update (h : Accounting g) {i : CallID} {st : CallState}
    (hwas : (g.calls i).accepted = false) (hst : st.accepted = false)
    (hcalls : g'.calls = Function.update g.calls i st) (hentries : g'.entries = g.entries) :
    Accounting g' := by
  refine h.same hentries fun j msg outcome hout => ?_
  rw [hcalls]
  by_cases hj : j = i
  · subst hj
    rw [Function.update_self]
    constructor
    · rintro rfl
      simp [CallState.accepted, hout] at hst
    · intro hdone
      simp [hdone, CallState.accepted, hout] at hwas
  · rw [Function.update_of_ne hj]

/-- A call is accepted: its message is new, wherever it is put. -/
theorem Accounting.accept (h : Accounting g) {i : CallID} {msg : Outgoing} {outcome : CallOutcome}
    (hwas : ∀ msg outcome, g.calls i ≠ .done msg outcome) (hout : outcome ≠ .rejected)
    (hcalls : g'.calls = Function.update g.calls i (.done msg outcome))
    (hentries : List.Perm g'.entries (⟨i, msg⟩ :: g.entries)) : Accounting g' := by
  constructor
  · rw [(hentries.map QueuedMessage.call).nodup_iff]
    exact List.nodup_cons.mpr ⟨h.not_mem hwas, h.nodup⟩
  · intro j m
    rw [hentries.mem_iff, List.mem_cons, hcalls]
    by_cases hj : j = i
    · subst hj
      have hnot : (⟨j, m⟩ : QueuedMessage) ∉ g.entries := fun hmem =>
        h.not_mem hwas (List.mem_map.mpr ⟨_, hmem, rfl⟩)
      rw [Function.update_self]
      constructor
      · rintro (he | hmem)
        · cases he
          exact ⟨outcome, hout, rfl⟩
        · exact absurd hmem hnot
      · rintro ⟨out, -, he⟩
        cases he
        exact Or.inl rfl
    · rw [Function.update_of_ne hj, h.accepted j m]
      refine or_iff_right ?_
      intro he
      exact hj (congrArg QueuedMessage.call he)

theorem entries_idle (hw : g'.writtenQueued = g.writtenQueued) (hqueue : g'.messageQueue = g.messageQueue)
    (hloop : ∀ queue, g.loop ≠ .sending queue) (hloop' : ∀ queue, g'.loop ≠ .sending queue) :
    g'.entries = g.entries := by
  unfold entries
  rw [hw, pending_idle hloop, pending_idle hloop', hqueue]

theorem entries_enqueue {m : QueuedMessage} (hloop : ∀ queue, g.loop ≠ .sending queue)
    (hloop' : g'.loop = g.loop) (hw : g'.writtenQueued = g.writtenQueued)
    (hqueue : g'.messageQueue = g.messageQueue ++ [m]) : g'.entries = g.entries ++ [m] := by
  unfold entries
  rw [hw, pending_idle hloop, pending_idle (hloop' ▸ hloop), hqueue, List.append_assoc]

theorem Accounting.move (h : Accounting g) (ht : Taken g) (hm : Move createLobby g ev g') :
    Accounting g' := by
  cases hm with
  | stay hsend => exact h
  | start msg hcall => exact h.update (by rw [hcall]; rfl) rfl rfl rfl
  | lock hcall hfree => exact h.update (by rw [hcall]; rfl) rfl rfl rfl
  | ready hcall hready => exact h.update (by rw [hcall]; rfl) rfl rfl rfl
  | notReady hcall hready => exact h.update (by rw [hcall]; rfl) rfl rfl rfl
  | reject hcall hfull => exact h.update (by rw [hcall]; rfl) rfl rfl rfl
  | @enqueue i msg hcall hroom =>
    refine h.accept (by simp [hcall]) (by simp) rfl ?_
    have hidle : ∀ queue, g.loop ≠ .sending queue := fun queue hsend =>
      ht.not_swapped hcall (Or.inr ⟨queue, hsend⟩)
    exact List.Perm.trans (List.Perm.of_eq (entries_enqueue hidle rfl rfl rfl))
      (List.perm_append_singleton _ _)
  | @send i msg hcall =>
    refine h.accept (by simp [hcall]) (by simp) rfl ?_
    have hw := writtenQueued_write_some i msg g
    change List.Perm ((g.write ⟨some i, msg⟩).writtenQueued ++ g.pending) _
    rw [hw, List.append_assoc]
    exact List.perm_middle
  | report st hloop =>
    refine h.same (entries_idle rfl rfl (by simp [hloop]) ?_) fun _ _ _ _ => Iff.rfl
    cases st <;> simp [nextLoop]
  | createLobby hloop =>
    refine h.same (entries_idle ?_ rfl (by simp [hloop]) (by simp)) fun _ _ _ _ => Iff.rfl
    exact writtenQueued_write_none createLobby g
  | close hloop =>
    unfold closeLobbyReady
    split <;>
      exact h.same (entries_idle rfl rfl (by simp [hloop]) (by simp)) fun _ _ _ _ => Iff.rfl
  | swap hloop hfree =>
    refine h.same ?_ fun _ _ _ _ => Iff.rfl
    unfold entries
    rw [pending_sending rfl, pending_idle (by simp [hloop]), List.append_nil]
    rfl
  | flushed hloop =>
    refine h.same ?_ fun _ _ _ _ => Iff.rfl
    unfold entries
    rw [pending_sending hloop, pending_idle (by simp)]
    rfl
  | @flush m queue hloop =>
    refine h.same ?_ fun _ _ _ _ => Iff.rfl
    have hw := writtenQueued_write_some m.call m.msg g
    change (g.write ⟨some m.call, m.msg⟩).writtenQueued ++ (queue ++ g.messageQueue) = g.entries
    unfold entries
    rw [hw, pending_sending hloop, List.append_assoc]
    rfl
  | sendToGame msg =>
    refine h.same ?_ fun _ _ _ _ => Iff.rfl
    unfold entries
    rw [writtenQueued_write_none]
    rfl

/-! ## Runs -/

structure Queueing (g : GPGNetServer) : Prop where
  locking : Locking g
  closed : Closed g
  taken : Taken g
  accounting : Accounting g
  room : g.messageQueue.length ≤ maxQueuedMessages

structure LobbyInvariant (g : GPGNetServer) : Prop extends Queueing g where
  readiness : Readiness g
  handled : Handled g

theorem room_move (h : g.messageQueue.length ≤ maxQueuedMessages) (hm : Move createLobby g ev g') :
    g'.messageQueue.length ≤ maxQueuedMessages := by
  cases hm with
  | enqueue hcall hroom =>
    rw [List.length_append]
    exact hroom
  | swap hloop hfree => exact Nat.zero_le _
  | close hloop =>
    unfold closeLobbyReady
    split <;> exact h
  | _ => exact h

theorem Queueing.move (h : Queueing g) (hm : Move createLobby g ev g') : Queueing g' where
  locking := h.locking.move hm
  closed := h.closed.move hm
  taken := h.taken.move h.locking h.closed hm
  accounting := h.accounting.move h.taken hm
  room := room_move h.room hm

theorem LobbyInvariant.move (h : LobbyInvariant g) (hm : Move createLobby g ev g') : LobbyInvariant g' where
  toQueueing := h.toQueueing.move hm
  readiness := h.readiness.move h.closed hm
  handled := h.handled.move hm

theorem queueing_init : Queueing {} where
  locking := fun _ => ⟨nofun, nofun⟩
  closed := ⟨rfl, nofun⟩
  taken := ⟨by simp [Swapped], fun _ => rfl, fun _ => nofun, nofun⟩
  accounting := ⟨List.nodup_nil, fun i msg => by simp [entries, writtenQueued, pending]⟩
  room := Nat.zero_le _

theorem lobbyInvariant_init : LobbyInvariant {} where
  toQueueing := queueing_init
  readiness := ⟨nofun, fun h => absurd rfl h, by simp⟩
  handled := nofun

theorem lobbyInvariant_run (createLobby : Outgoing) (events : List GPGNetEvent) :
    LobbyInvariant (runState (step createLobby) {} events) :=
  run_invariant (fun g ev h => h.move (move_step createLobby g ev)) lobbyInvariant_init events

/-! ## Exactly once, never early -/

/-- What the game sees of the queued calls. Its report of `Lobby` has been processed when the loop is back
at reading. -/
structure ExactlyOnce (g : GPGNetServer) : Prop where
  processed : .lobby ∈ g.reports → g.loop = .reading → g.lobbyProcessed = true
  atMostOnce : ∀ i, (g.writtenQueued.map QueuedMessage.call).count i ≤ 1
  notEarly : g.writtenQueued ≠ [] → .lobby ∈ g.reports
  exactlyOnce : g.lobbyProcessed = true → ∀ i msg outcome, g.calls i = .done msg outcome →
    outcome ≠ .rejected → g.writtenQueued.count ⟨i, msg⟩ = 1
  rejected : ∀ i msg, g.calls i = .done msg .rejected → i ∉ g.writtenQueued.map QueuedMessage.call
  bounded : g.messageQueue.length ≤ maxQueuedMessages

theorem LobbyInvariant.nodup_written (h : LobbyInvariant g) :
    (g.writtenQueued.map QueuedMessage.call).Nodup := by
  have hnodup := h.accounting.nodup
  rw [entries, List.map_append] at hnodup
  exact hnodup.of_append_left

theorem LobbyInvariant.exactlyOnce (h : LobbyInvariant g) : ExactlyOnce g where
  processed := by
    intro hlobby hloop
    rcases h.handled hlobby with hp | hc | hp
    · exact hp
    · rw [hloop] at hc
      cases hc
    · rw [hloop] at hp
      cases hp
  atMostOnce := fun i => List.nodup_iff_count_le_one.mp h.nodup_written i
  notEarly := fun hw => h.readiness.reported (Or.inl (h.readiness.written hw))
  exactlyOnce := by
    intro hproc i msg outcome hcall hout
    have hmem := (h.accounting.accepted i msg).mpr ⟨outcome, hout, hcall⟩
    rw [entries, h.taken.processed hproc, List.append_nil] at hmem
    exact List.count_eq_one_of_mem (List.Nodup.of_map _ h.nodup_written) hmem
  rejected := by
    intro i msg hcall hi
    obtain ⟨⟨j, msg'⟩, hmem, rfl⟩ := List.mem_map.mp hi
    obtain ⟨outcome, hout, hdone⟩ := (h.accounting.accepted j msg').mp (List.mem_append_left _ hmem)
    rw [hcall] at hdone
    cases hdone
    exact hout rfl
  bounded := h.room

theorem lobbyQueue_exactlyOnce (createLobby : Outgoing) (events : List GPGNetEvent) :
    ExactlyOnce (runState (step createLobby) {} events) :=
  (lobbyInvariant_run createLobby events).exactlyOnce

/-- A call is queued, the game reports `Lobby`, the queue is sent, and another call finds the lobby ready. -/
def lobbyRun (msg : Outgoing) : List GPGNetEvent :=
  [.start 0 msg, .lock 0, .check 0, .append 0, .receive ⟨ascii "GameState", [.str (ascii "Lobby")]⟩, .advance,
    .advance, .advance, .advance, .start 1 msg, .lock 1, .check 1, .send 1]

theorem lobbyRun_exactlyOnce : let msg : Outgoing := ⟨ascii "HostGame", []⟩
    let g := runState (step ⟨ascii "CreateLobby", []⟩) {} (lobbyRun msg)
    g.reports = [.lobby] ∧ g.loop = .reading ∧ g.calls 0 = .done msg .queued ∧ g.calls 1 = .done msg .sent ∧
      g.writtenQueued.count ⟨0, msg⟩ = 1 ∧ g.writtenQueued.count ⟨1, msg⟩ = 1 := by
  have h := lobbyQueue_exactlyOnce ⟨ascii "CreateLobby", []⟩ (lobbyRun ⟨ascii "HostGame", []⟩)
  have hprocessed := h.processed (by decide +kernel) (by decide +kernel)
  exact ⟨by decide +kernel, by decide +kernel, by decide +kernel, by decide +kernel,
    h.exactlyOnce hprocessed 0 _ .queued (by decide +kernel) (by decide),
    h.exactlyOnce hprocessed 1 _ .sent (by decide +kernel) (by decide)⟩

end GPGNetServer
end Adapter
end SturmRelay
