import SturmRelay.Adapter.LobbyQueue

/-! # The order of the lobby queue

The queue itself is first in, first out, and the flush sends it in order. But a call that finds
`lobbyReady` closed writes at once, and between the close and the last message of the flush older
messages may still wait. `inOrder_iff`: the game gets the messages in the order of the calls exactly
in the runs where no call writes past a message of a call that had returned before it started. -/

namespace SturmRelay
namespace Adapter
set_option autoImplicit false

open GPGNet (Message Outgoing)

namespace GPGNetServer
variable {createLobby : Outgoing} {ev : GPGNetEvent} {g g' : GPGNetServer}

/-- The queued calls whose message has been written, in order. -/
def writtenCalls (g : GPGNetServer) : List CallID := g.writtenQueued.map QueuedMessage.call

def pendingCalls (g : GPGNetServer) : List CallID := g.pending.map QueuedMessage.call

/-- `queue` serves calls in order after `served`: the accepted calls that had returned when a call
started come before it. -/
def Ordered (before : CallID → List CallID) (served queue : List CallID) : Prop :=
  ∀ a j b, queue = a ++ j :: b → ∀ i ∈ before j, i ∈ served ++ a

/-- The messages written so far are in the order in which their calls were made. -/
def InOrder (g : GPGNetServer) : Prop := Ordered g.before [] g.writtenCalls

/-! ## Lists served in order -/

section Ordered
variable {before before' : CallID → List CallID} {served queue : List CallID} {j : CallID}

theorem ordered_nil : Ordered before served [] := by
  intro a j b h
  cases a <;> cases h

theorem ordered_concat :
    Ordered before served (queue ++ [j]) ↔
      Ordered before served queue ∧ ∀ i ∈ before j, i ∈ served ++ queue := by
  constructor
  · intro h
    refine ⟨fun a k b he => ?_, h queue j [] rfl⟩
    exact h a k (b ++ [j]) (by rw [he, List.append_assoc, List.cons_append])
  · rintro ⟨h, hj⟩ a k b he
    rcases List.eq_nil_or_concat b with rfl | ⟨b, l, rfl⟩
    · obtain ⟨rfl, hk⟩ := List.append_inj' he rfl
      cases hk
      exact hj
    · rw [List.concat_eq_append, ← List.cons_append, ← List.append_assoc] at he
      exact h a k b (List.append_inj_left' he rfl)

theorem ordered_cons :
    Ordered before served (j :: queue) ↔
      (∀ i ∈ before j, i ∈ served) ∧ Ordered before (served ++ [j]) queue := by
  constructor
  · intro h
    refine ⟨fun i hi => ?_, fun a k b he i hi => ?_⟩
    · simpa using h [] j queue rfl i hi
    · simpa using h (j :: a) k b (by rw [he, List.cons_append]) i hi
  · rintro ⟨hj, h⟩ a k b he i hi
    cases a with
    | nil =>
      cases he
      exact List.mem_append_left _ (hj i hi)
    | cons l a =>
      cases he
      simpa using h a k b rfl i hi

theorem Ordered.mono {served' : List CallID} (h : Ordered before served queue)
    (hsub : ∀ i ∈ served, i ∈ served') : Ordered before served' queue := by
  intro a k b he i hi
  rcases List.mem_append.mp (h a k b he i hi) with hs | ha
  · exact List.mem_append_left _ (hsub i hs)
  · exact List.mem_append_right _ ha

/-- What calls outside the list saw makes no difference. -/
theorem ordered_congr (h : ∀ k ∈ queue, before' k = before k) :
    Ordered before' served queue ↔ Ordered before served queue := by
  unfold Ordered
  refine forall_congr' fun a => forall_congr' fun k => forall_congr' fun b => ?_
  refine forall_congr' fun he => ?_
  rw [h k (by simp [he])]

end Ordered

/-! ## What a move does to the two lists -/

/-- A move, by what it does to the messages written and waiting. -/
inductive Effect (g : GPGNetServer) : GPGNetEvent → GPGNetServer → Prop
  | quiet {ev : GPGNetEvent} {g' : GPGNetServer}
      (hsend : ∀ i msg, ev = .send i → g.calls i ≠ .sending msg)
      (hw : g'.writtenCalls = g.writtenCalls) (hp : g'.pendingCalls = g.pendingCalls)
      (hr : g'.returned = g.returned) (hb : g'.before = g.before) : Effect g ev g'
  | start {i : CallID} {msg : Outgoing} {g' : GPGNetServer} (hcall : g.calls i = .notStarted)
      (hw : g'.writtenCalls = g.writtenCalls) (hp : g'.pendingCalls = g.pendingCalls)
      (hr : g'.returned = g.returned) (hb : g'.before = Function.update g.before i g.returned) :
      Effect g (.start i msg) g'
  | enqueue {i : CallID} {g' : GPGNetServer}
      (hw : g'.writtenCalls = g.writtenCalls) (hp : g'.pendingCalls = g.pendingCalls ++ [i])
      (hr : g'.returned = g.returned ++ [i]) (hb : g'.before = g.before) : Effect g (.append i) g'
  | send {i : CallID} {msg : Outgoing} {g' : GPGNetServer} (hcall : g.calls i = .sending msg)
      (hw : g'.writtenCalls = g.writtenCalls ++ [i]) (hp : g'.pendingCalls = g.pendingCalls)
      (hr : g'.returned = g.returned ++ [i]) (hb : g'.before = g.before) : Effect g (.send i) g'
  | flush {i : CallID} {g' : GPGNetServer} (hw : g'.writtenCalls = g.writtenCalls ++ [i])
      (hp : g.pendingCalls = i :: g'.pendingCalls) (hr : g'.returned = g.returned)
      (hb : g'.before = g.before) : Effect g .advance g'

theorem writtenCalls_write_none (msg : Outgoing) (g : GPGNetServer) :
    (g.write ⟨none, msg⟩).writtenCalls = g.writtenCalls :=
  congrArg (List.map QueuedMessage.call) (writtenQueued_write_none msg g)

theorem writtenCalls_write_some (i : CallID) (msg : Outgoing) (g : GPGNetServer) :
    (g.write ⟨some i, msg⟩).writtenCalls = g.writtenCalls ++ [i] := by
  unfold writtenCalls
  rw [writtenQueued_write_some, List.map_append]
  rfl

theorem pendingCalls_idle (hqueue : g'.messageQueue = g.messageQueue)
    (hloop : ∀ queue, g.loop ≠ .sending queue) (hloop' : ∀ queue, g'.loop ≠ .sending queue) :
    g'.pendingCalls = g.pendingCalls := by
  unfold pendingCalls
  rw [pending_idle hloop, pending_idle hloop', hqueue]

theorem pendingCalls_enqueue {i : CallID} {msg : Outgoing} (hloop : ∀ queue, g.loop ≠ .sending queue)
    (hloop' : g'.loop = g.loop) (hqueue : g'.messageQueue = g.messageQueue ++ [⟨i, msg⟩]) :
    g'.pendingCalls = g.pendingCalls ++ [i] := by
  unfold pendingCalls
  rw [pending_idle hloop, pending_idle (hloop' ▸ hloop), hqueue, List.map_append]
  rfl

theorem effect_of_move (ht : Taken g) (hm : Move createLobby g ev g') : Effect g ev g' := by
  cases hm with
  | stay hsend => exact .quiet hsend rfl rfl rfl rfl
  | start msg hcall => exact .start hcall rfl rfl rfl rfl
  | lock hcall hfree => exact .quiet (by simp) rfl rfl rfl rfl
  | ready hcall hready => exact .quiet (by simp) rfl rfl rfl rfl
  | notReady hcall hready => exact .quiet (by simp) rfl rfl rfl rfl
  | reject hcall hfull => exact .quiet (by simp) rfl rfl rfl rfl
  | enqueue hcall hroom =>
    have hidle : ∀ queue, g.loop ≠ .sending queue := fun queue hsend =>
      ht.not_swapped hcall (Or.inr ⟨queue, hsend⟩)
    exact .enqueue rfl (pendingCalls_enqueue hidle rfl rfl) rfl rfl
  | @send i msg hcall => exact .send hcall (writtenCalls_write_some i msg g) rfl rfl rfl
  | report st hloop =>
    refine .quiet (by simp) rfl (pendingCalls_idle rfl (by simp [hloop]) ?_) rfl rfl
    cases st <;> simp [nextLoop]
  | createLobby hloop =>
    exact .quiet (by simp) (writtenCalls_write_none createLobby g)
      (pendingCalls_idle rfl (by simp [hloop]) (by simp)) rfl rfl
  | close hloop =>
    unfold closeLobbyReady
    split <;> exact .quiet (by simp) rfl (pendingCalls_idle rfl (by simp [hloop]) (by simp)) rfl rfl
  | swap hloop hfree =>
    refine .quiet (by simp) rfl ?_ rfl rfl
    unfold pendingCalls
    rw [pending_sending rfl, pending_idle (by simp [hloop]), List.append_nil]
  | flushed hloop =>
    refine .quiet (by simp) rfl ?_ rfl rfl
    unfold pendingCalls
    rw [pending_sending hloop, pending_idle (by simp)]
    rfl
  | @flush m queue hloop =>
    refine .flush (writtenCalls_write_some m.call m.msg g) ?_ rfl rfl
    unfold pendingCalls
    rw [pending_sending hloop, pending_sending rfl]
    rfl
  | sendToGame msg => exact .quiet (by simp) (writtenCalls_write_none msg g) rfl rfl rfl

/-! ## First in, first out -/

structure Fifo (g : GPGNetServer) : Prop where
  returned : ∀ i ∈ g.returned, i ∈ g.writtenCalls ++ g.pendingCalls
  before : ∀ j, ∀ i ∈ g.before j, i ∈ g.returned
  ordered : Ordered g.before g.writtenCalls g.pendingCalls

theorem map_call_entries (g : GPGNetServer) :
    g.entries.map QueuedMessage.call = g.writtenCalls ++ g.pendingCalls :=
  List.map_append

/-- A call that is not done has no message yet. -/
theorem Accounting.not_served (h : Accounting g) {i : CallID}
    (hcall : ∀ msg outcome, g.calls i ≠ .done msg outcome) :
    i ∉ g.writtenCalls ++ g.pendingCalls := by
  rw [← map_call_entries]
  exact h.not_mem hcall

theorem before_update_of_mem (ha : Accounting g) {i k : CallID} (hcall : g.calls i = .notStarted)
    (hk : k ∈ g.writtenCalls ++ g.pendingCalls) :
    Function.update g.before i g.returned k = g.before k := by
  refine Function.update_of_ne ?_ _ _
  rintro rfl
  exact ha.not_served (by simp [hcall]) hk

theorem Fifo.effect (h : Fifo g) (ha : Accounting g) (he : Effect g ev g') : Fifo g' := by
  cases he with
  | quiet hsend hw hp hr hb =>
    refine ⟨?_, ?_, ?_⟩
    · rw [hw, hp, hr]
      exact h.returned
    · rw [hb, hr]
      exact h.before
    · rw [hw, hp, hb]
      exact h.ordered
  | @start i msg _ hcall hw hp hr hb =>
    refine ⟨?_, fun j k hk => ?_, ?_⟩
    · rw [hw, hp, hr]
      exact h.returned
    · rw [hb] at hk
      rw [hr]
      by_cases hj : j = i
      · subst hj
        rwa [Function.update_self] at hk
      · rw [Function.update_of_ne hj] at hk
        exact h.before j k hk
    · rw [hw, hp, hb, ordered_congr]
      · exact h.ordered
      · exact fun k hk => before_update_of_mem ha hcall (List.mem_append_right _ hk)
  | enqueue hw hp hr hb =>
    refine ⟨fun k hk => ?_, ?_, ?_⟩
    · rw [hr] at hk
      rw [hw, hp, ← List.append_assoc]
      exact List.mem_append.mpr ((List.mem_append.mp hk).imp_left (h.returned k))
    · rw [hb, hr]
      exact fun j k hk => List.mem_append_left _ (h.before j k hk)
    · -- the new last message: all that returned before its call is written or waits
      rw [hw, hp, hb, ordered_concat]
      exact ⟨h.ordered, fun k hk => h.returned k (h.before _ k hk)⟩
  | send hcall hw hp hr hb =>
    refine ⟨fun k hk => ?_, ?_, ?_⟩
    · rw [hr] at hk
      rw [hw, hp, List.append_assoc]
      rcases List.mem_append.mp hk with hk | hk
      · have := h.returned k hk
        simp only [List.mem_append] at this ⊢
        tauto
      · exact List.mem_append_right _ (List.mem_append_left _ hk)
    · rw [hb, hr]
      exact fun j k hk => List.mem_append_left _ (h.before j k hk)
    · rw [hw, hp, hb]
      exact h.ordered.mono fun k hk => List.mem_append_left _ hk
  | flush hw hp hr hb =>
    refine ⟨?_, ?_, ?_⟩
    · have hret := h.returned
      rw [hp] at hret
      rw [hw, hr, List.append_assoc]
      exact hret
    · rw [hb, hr]
      exact h.before
    · have hord := h.ordered
      rw [hp, ordered_cons] at hord
      rw [hw, hb]
      exact hord.2

/-! ## Order of writing -/

/-- A call that writes its message at once does so when no message of a call that had returned before
it started still waits. -/
def NoOvertaking (g : GPGNetServer) (ev : GPGNetEvent) : Prop :=
  ∀ j msg, ev = .send j → g.calls j = .sending msg → ∀ i ∈ g.before j, i ∉ g.pendingCalls

theorem LobbyInvariant.disjoint (h : LobbyInvariant g) {i : CallID} (hw : i ∈ g.writtenCalls) :
    i ∉ g.pendingCalls := by
  have hnodup := h.accounting.nodup
  rw [map_call_entries] at hnodup
  exact fun hp => List.disjoint_of_nodup_append hnodup hw hp

theorem inOrder_effect (h : LobbyInvariant g) (hf : Fifo g) (he : Effect g ev g') :
    InOrder g' ↔ InOrder g ∧ NoOvertaking g ev := by
  unfold InOrder
  cases he with
  | quiet hsend hw hp hr hb =>
    rw [hw, hb]
    exact (and_iff_left fun j msg hev hj => absurd hj (hsend j msg hev)).symm
  | start hcall hw hp hr hb =>
    rw [hw, hb, ordered_congr fun k hk =>
      before_update_of_mem h.accounting hcall (List.mem_append_left _ hk)]
    exact (and_iff_left nofun).symm
  | enqueue hw hp hr hb =>
    rw [hw, hb]
    exact (and_iff_left nofun).symm
  | @send i msg _ hcall hw hp hr hb =>
    rw [hw, hb, ordered_concat, List.nil_append]
    refine and_congr_right fun _ => ?_
    -- what returned before the call is written unless it waits
    constructor
    · rintro hall j msg' he hj k hk
      cases he
      exact h.disjoint (hall k hk)
    · intro hno k hk
      have hserved := hf.returned k (hf.before i k hk)
      exact (List.mem_append.mp hserved).resolve_right (hno i msg rfl hcall k hk)
  | flush hw hp hr hb =>
    have hord := hf.ordered
    rw [hp, ordered_cons] at hord
    rw [hw, hb, ordered_concat, List.nil_append]
    exact ⟨fun hin => ⟨hin.1, nofun⟩, fun hin => ⟨hin.1, hord.1⟩⟩

theorem fifo_init : Fifo {} := ⟨nofun, nofun, ordered_nil⟩

theorem inOrder_iff (createLobby : Outgoing) (events : List GPGNetEvent) :
    InOrder (runState (step createLobby) {} events) ↔
      AllSteps (step createLobby) (fun g ev _ => NoOvertaking g ev) {} events := by
  refine run_iff_allSteps_of_invariant (I := fun g => LobbyInvariant g ∧ Fifo g) ?_ ?_
    ⟨lobbyInvariant_init, fifo_init⟩ ordered_nil events
  · rintro g ev ⟨h, hf⟩
    have hm := move_step createLobby g ev
    exact ⟨h.move hm, hf.effect h.accounting (effect_of_move h.taken hm)⟩
  · rintro g ev ⟨h, hf⟩
    exact inOrder_effect h hf (effect_of_move h.taken (move_step createLobby g ev))

/-- `HostGame` is queued and its call returns; the game reports `Lobby`; before the read loop gets to
the queue, `ConnectToPeer` is submitted and goes out at once. -/
def overtakingEvents : List GPGNetEvent :=
  [.start 0 ⟨ascii "HostGame", [.string (ascii "map")]⟩, .lock 0, .check 0, .append 0,
    .receive ⟨ascii "GameState", [.str (ascii "Lobby")]⟩, .advance,
    .start 1 ⟨ascii "ConnectToPeer", [.string (ascii "127.0.0.1:6112"), .string (ascii "peer"), .int32 2]⟩,
    .lock 1, .check 1, .send 1, .advance, .advance]

theorem connectToPeer_overtakes_hostGame :
    ¬ InOrder (runState (step ⟨ascii "CreateLobby", []⟩) {} overtakingEvents) := by
  intro h
  have hmem : 0 ∈ [] := h [] 1 [0] (by decide) 0 (by decide)
  cases hmem

end GPGNetServer
end Adapter
end SturmRelay
