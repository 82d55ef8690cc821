import SturmRelay.Foundations.Runs
import SturmRelay.Protocol.GPGNet
import Mathlib.Logic.Function.Basic

/-! # The lobby queue of the GPGNet server

`internal/adapter/gpgnetserver.go` for one game connection, from the reset in `handleConnection` on:
any number of goroutines call `SendToGameQueued` while the read loop handles what the game reports.
One event is one step of one goroutine, between two points where another can come in:

* a caller takes `queueMu`, looks at `lobbyReady`, and appends or leaves; `queueMu` is held from the
  first of these to the last, but `lobbyReady` is closed without it;
* the read loop sets the game state, closes `lobbyReady`, takes the queue under `queueMu`, and sends
  the messages one by one. `SendToGame` is one step, since it holds `connMu`.

An event that its goroutine cannot take where it stands changes nothing. Writes to the game succeed.

`reports`, `lobbyProcessed`, `returned` and `before` are for the observer: no step looks at them. -/

namespace SturmRelay
namespace Adapter
set_option autoImplicit false

open GPGNet (Message Outgoing)

def maxQueuedMessages : ℕ := 100

/-! ## Game states -/

inductive GameState
  | none
  | idle
  | lobby
  | launching
  | ended
  | other (name : Bytes)
  deriving DecidableEq, Repr

def GameState.ofBytes (s : Bytes) : GameState :=
  if s = ascii "None" then .none
  else if s = ascii "Idle" then .idle
  else if s = ascii "Lobby" then .lobby
  else if s = ascii "Launching" then .launching
  else if s = ascii "Ended" then .ended
  else .other s

/-- The state `processMessage` hands to `onGameState`, if the message reports one. -/
def gameStateOf (m : Message) : Option GameState :=
  if m.header = ascii "GameState" then
    match m.chunks with
    | .str s :: _ => some (.ofBytes s)
    | _ => Option.none
  else Option.none

/-! ## Calls and the read loop -/

/-- Which call of `SendToGameQueued`. -/
abbrev CallID := ℕ

structure QueuedMessage where
  call : CallID
  msg : Outgoing
  deriving DecidableEq, Repr

inductive CallOutcome
  | queued
  | sent
  | rejected
  deriving DecidableEq, Repr

/-- Where a call stands. -/
inductive CallState
  | notStarted
  | waiting (msg : Outgoing)
  | checking (msg : Outgoing)
  | appending (msg : Outgoing)
  | sending (msg : Outgoing)
  | done (msg : Outgoing) (outcome : CallOutcome)
  deriving DecidableEq, Repr

/-- Where the read loop stands: at the next message, or in `onGameState`. -/
inductive LoopState
  | reading
  | createLobby
  | closing
  | flushing
  | sending (queue : List QueuedMessage)
  deriving DecidableEq, Repr

/-- A message written to the game, and the queued call it comes from if it comes from one. -/
structure WrittenMessage where
  call : Option CallID
  msg : Outgoing
  deriving DecidableEq, Repr

/-- The message as it stood in the queue, if it comes from a queued call. -/
def WrittenMessage.queued (m : WrittenMessage) : Option QueuedMessage :=
  m.call.map fun i => ⟨i, m.msg⟩

structure GPGNetServer where
  gameState : GameState := .none
  lobbyReady : Bool := false
  lobbyOnce : Bool := false
  messageQueue : List QueuedMessage := []
  queueMu : Option CallID := none
  calls : CallID → CallState := fun _ => .notStarted
  loop : LoopState := .reading
  written : List WrittenMessage := []
  /-- The states reported so far. -/
  reports : List GameState := []
  /-- A report of `Lobby` has been handled to its end. -/
  lobbyProcessed : Bool := false
  /-- The calls that have returned without being rejected. -/
  returned : List CallID := []
  /-- `returned` at the start of each call. -/
  before : CallID → List CallID := fun _ => []

inductive GPGNetEvent
  | start (call : CallID) (msg : Outgoing)
  | lock (call : CallID)
  | check (call : CallID)
  | append (call : CallID)
  | send (call : CallID)
  | receive (m : Message)
  | advance
  | sendToGame (msg : Outgoing)
  deriving DecidableEq, Repr

namespace GPGNetServer

def setCall (i : CallID) (st : CallState) (g : GPGNetServer) : GPGNetServer :=
  { g with calls := Function.update g.calls i st }

/-- `SendToGame`. -/
def write (m : WrittenMessage) (g : GPGNetServer) : GPGNetServer :=
  { g with written := g.written ++ [m] }

/-- The call returns. -/
def finish (i : CallID) (msg : Outgoing) (outcome : CallOutcome) (g : GPGNetServer) : GPGNetServer :=
  { g with
    calls := Function.update g.calls i (.done msg outcome)
    returned := if outcome = .rejected then g.returned else g.returned ++ [i] }

/-! ## Steps of a call -/

def start (i : CallID) (msg : Outgoing) (g : GPGNetServer) : GPGNetServer :=
  match g.calls i with
  | .notStarted => { g.setCall i (.waiting msg) with before := Function.update g.before i g.returned }
  | _ => g

def lock (i : CallID) (g : GPGNetServer) : GPGNetServer :=
  match g.calls i, g.queueMu with
  | .waiting msg, none => { g.setCall i (.checking msg) with queueMu := some i }
  | _, _ => g

/-- The `select` on `lobbyReady`; the first case unlocks. -/
def check (i : CallID) (g : GPGNetServer) : GPGNetServer :=
  match g.calls i with
  | .checking msg =>
    if g.lobbyReady then { g.setCall i (.sending msg) with queueMu := none }
    else g.setCall i (.appending msg)
  | _ => g

/-- The rest of `SendToGameQueued` when the lobby is not ready. -/
def append (i : CallID) (g : GPGNetServer) : GPGNetServer :=
  match g.calls i with
  | .appending msg =>
    if maxQueuedMessages ≤ g.messageQueue.length then
      { g.finish i msg .rejected with queueMu := none }
    else
      { g.finish i msg .queued with
        messageQueue := g.messageQueue ++ [⟨i, msg⟩], queueMu := none }
  | _ => g

def send (i : CallID) (g : GPGNetServer) : GPGNetServer :=
  match g.calls i with
  | .sending msg => (g.write ⟨some i, msg⟩).finish i msg .sent
  | _ => g

/-! ## Steps of the read loop -/

/-- Where `onGameState` goes on once the state is set. -/
def nextLoop : GameState → LoopState
  | .idle => .createLobby
  | .lobby => .closing
  | _ => .reading

def receive (m : Message) (g : GPGNetServer) : GPGNetServer :=
  match g.loop, gameStateOf m with
  | .reading, some st =>
    { g with gameState := st, reports := g.reports ++ [st], loop := nextLoop st }
  | _, _ => g

/-- `lobbyOnce.Do(func() { close(g.lobbyReady) })`. -/
def closeLobbyReady (g : GPGNetServer) : GPGNetServer :=
  if g.lobbyOnce then g else { g with lobbyOnce := true, lobbyReady := true }

/-- The next step of `onGameState`; `createLobby` is the message it answers `Idle` with. -/
def advance (createLobby : Outgoing) (g : GPGNetServer) : GPGNetServer :=
  match g.loop with
  | .reading => g
  | .createLobby => { g.write ⟨none, createLobby⟩ with loop := .reading }
  | .closing => { g.closeLobbyReady with loop := .flushing }
  | .flushing =>
    match g.queueMu with
    | none => { g with messageQueue := [], loop := .sending g.messageQueue }
    | some _ => g
  | .sending [] => { g with loop := .reading, lobbyProcessed := true }
  | .sending (m :: queue) => { g.write ⟨some m.call, m.msg⟩ with loop := .sending queue }

def step (createLobby : Outgoing) (g : GPGNetServer) : GPGNetEvent → GPGNetServer × Unit
  | .start i msg => (g.start i msg, ())
  | .lock i => (g.lock i, ())
  | .check i => (g.check i, ())
  | .append i => (g.append i, ())
  | .send i => (g.send i, ())
  | .receive m => (g.receive m, ())
  | .advance => (g.advance createLobby, ())
  | .sendToGame msg => (g.write ⟨none, msg⟩, ())

/-! ## What a step can do -/

/-- The queued messages that have not been written, oldest first. -/
def pending (g : GPGNetServer) : List QueuedMessage :=
  match g.loop with
  | .sending queue => queue ++ g.messageQueue
  | _ => g.messageQueue

/-- The messages of queued calls that have been written, in order. -/
def writtenQueued (g : GPGNetServer) : List QueuedMessage := g.written.filterMap WrittenMessage.queued

/-- A step, by what it does and where it can be taken. -/
inductive Move (createLobby : Outgoing) (g : GPGNetServer) : GPGNetEvent → GPGNetServer → Prop
  | stay {ev : GPGNetEvent} (hsend : ∀ i msg, ev = .send i → g.calls i ≠ .sending msg) :
      Move createLobby g ev g
  | start {i : CallID} (msg : Outgoing) (hcall : g.calls i = .notStarted) :
      Move createLobby g (.start i msg)
        { g.setCall i (.waiting msg) with before := Function.update g.before i g.returned }
  | lock {i : CallID} {msg : Outgoing} (hcall : g.calls i = .waiting msg) (hfree : g.queueMu = none) :
      Move createLobby g (.lock i) { g.setCall i (.checking msg) with queueMu := some i }
  | ready {i : CallID} {msg : Outgoing} (hcall : g.calls i = .checking msg)
      (hready : g.lobbyReady = true) :
      Move createLobby g (.check i) { g.setCall i (.sending msg) with queueMu := none }
  | notReady {i : CallID} {msg : Outgoing} (hcall : g.calls i = .checking msg)
      (hready : g.lobbyReady = false) :
      Move createLobby g (.check i) (g.setCall i (.appending msg))
  | reject {i : CallID} {msg : Outgoing} (hcall : g.calls i = .appending msg)
      (hfull : maxQueuedMessages ≤ g.messageQueue.length) :
      Move createLobby g (.append i) { g.finish i msg .rejected with queueMu := none }
  | enqueue {i : CallID} {msg : Outgoing} (hcall : g.calls i = .appending msg)
      (hroom : g.messageQueue.length < maxQueuedMessages) :
      Move createLobby g (.append i) { g.finish i msg .queued with
        messageQueue := g.messageQueue ++ [⟨i, msg⟩], queueMu := none }
  | send {i : CallID} {msg : Outgoing} (hcall : g.calls i = .sending msg) :
      Move createLobby g (.send i) ((g.write ⟨some i, msg⟩).finish i msg .sent)
  | report {m : Message} (st : GameState) (hloop : g.loop = .reading) :
      Move createLobby g (.receive m)
        { g with gameState := st, reports := g.reports ++ [st], loop := nextLoop st }
  | createLobby (hloop : g.loop = .createLobby) :
      Move createLobby g .advance { g.write ⟨none, createLobby⟩ with loop := .reading }
  | close (hloop : g.loop = .closing) :
      Move createLobby g .advance { g.closeLobbyReady with loop := .flushing }
  | swap (hloop : g.loop = .flushing) (hfree : g.queueMu = none) :
      Move createLobby g .advance { g with messageQueue := [], loop := .sending g.messageQueue }
  | flushed (hloop : g.loop = .sending []) :
      Move createLobby g .advance { g with loop := .reading, lobbyProcessed := true }
  | flush {m : QueuedMessage} {queue : List QueuedMessage} (hloop : g.loop = .sending (m :: queue)) :
      Move createLobby g .advance { g.write ⟨some m.call, m.msg⟩ with loop := .sending queue }
  | sendToGame (msg : Outgoing) : Move createLobby g (.sendToGame msg) (g.write ⟨none, msg⟩)

theorem move_advance (createLobby : Outgoing) (g : GPGNetServer) :
    Move createLobby g .advance (g.advance createLobby) := by
  unfold advance
  cases hloop : g.loop with
  | reading => exact .stay nofun
  | createLobby => exact .createLobby hloop
  | closing => exact .close hloop
  | flushing =>
    cases hfree : g.queueMu with
    | none =>
      have hswap : Move createLobby g .advance _ := .swap hloop hfree
      rw [hfree] at hswap
      exact hswap
    | some i => exact .stay nofun
  | sending queue =>
    cases queue with
    | nil => exact .flushed hloop
    | cons m queue => exact .flush hloop

theorem move_check (createLobby : Outgoing) (i : CallID) (g : GPGNetServer) :
    Move createLobby g (.check i) (g.check i) := by
  unfold check
  cases hcall : g.calls i with
  | checking msg =>
    cases hready : g.lobbyReady with
    | true => exact .ready hcall hready
    | false => exact .notReady hcall hready
  | _ => exact .stay nofun

theorem move_append (createLobby : Outgoing) (i : CallID) (g : GPGNetServer) :
    Move createLobby g (.append i) (g.append i) := by
  unfold append
  cases hcall : g.calls i with
  | appending msg =>
    dsimp only
    split
    · next hfull => exact .reject hcall hfull
    · next hroom => exact .enqueue hcall (Nat.lt_of_not_le hroom)
  | _ => exact .stay nofun

theorem move_send (createLobby : Outgoing) (i : CallID) (g : GPGNetServer) :
    Move createLobby g (.send i) (g.send i) := by
  unfold send
  cases hcall : g.calls i with
  | sending msg => exact .send hcall
  | _ =>
    refine .stay ?_
    rintro j msg he hj
    cases he
    rw [hcall] at hj
    cases hj

theorem move_step (createLobby : Outgoing) (g : GPGNetServer) (ev : GPGNetEvent) :
    Move createLobby g ev (g.step createLobby ev).1 := by
  cases ev with
  | start i msg =>
    simp only [step, start]
    cases hcall : g.calls i with
    | notStarted => exact .start msg hcall
    | _ => exact .stay nofun
  | lock i =>
    simp only [step, lock]
    cases hcall : g.calls i with
    | waiting msg =>
      cases hfree : g.queueMu with
      | none => exact .lock hcall hfree
      | some j => exact .stay nofun
    | _ => exact .stay nofun
  | check i => exact move_check createLobby i g
  | append i => exact move_append createLobby i g
  | send i => exact move_send createLobby i g
  | receive m =>
    simp only [step, receive]
    cases hloop : g.loop with
    | reading =>
      cases gameStateOf m with
      | none => exact .stay nofun
      | some st => exact .report st hloop
    | _ => exact .stay nofun
  | advance => exact move_advance createLobby g
  | sendToGame msg => exact .sendToGame msg

end GPGNetServer
end Adapter
end SturmRelay
