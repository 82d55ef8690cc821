import SturmRelay.Adapter.LobbyQueue

/-! # The GPGNet server from one game connection to the next

`internal/adapter/gpgnetserver.go` with `Run` and the whole of `handleConnection`. `GPGNetServer` is
what the goroutines share while one connection is served; here connections follow each other. `Run`
serves them one after another, so the steps of `handleConnection` are those of one goroutine:

* under `connMu` it installs the connection and its writer;
* under `queueMu` it opens the lobby again and throws the queue away;
* it tells the client, and reads messages until the game hangs up;
* under `connMu` it takes the connection out, and tells the client.

In between, any number of goroutines call `SendToGameQueued` and `SendToGame`, also while no game is
connected. `ok` says whether the connection takes what is written to it.

When the game hangs up, the adapter is also told to shut down, and some time later its context is
cancelled: then there is no further `accept`, writes fail, and a game that is still there is cut off.
Such runs are among those considered here.

`log`, `reports`, `served`, `resets` and `seen` are for the observer, and so is
`lobby.lobbyProcessed`; `lobby.written` is not used, since `log` also says what became of each message.

A message can be written, thrown away with the queue, or fail. When all three count as written, the
server moves as `GPGNetServer` does (`change_step`), apart from opening the lobby again, so what
`Queueing` says of one connection holds over all of them. Which game a message goes to is `Addressed`.
-/

namespace SturmRelay
namespace Adapter
set_option autoImplicit false

open GPGNet (Message Outgoing)

/-- A connection of a game, counted from the first one accepted. -/
abbrev GameConn := ℕ

/-- Where the goroutine of `Run` stands. -/
inductive ServePhase
  | accepting
  | resetting
  | greeting
  | serving
  | leaving
  | left
  deriving DecidableEq, Repr

/-- The connection is installed. -/
def ServePhase.installed : ServePhase → Bool
  | .resetting | .greeting | .serving | .leaving => true
  | .accepting | .left => false

/-- The client has been told that a game is connected. -/
def ServePhase.announced : ServePhase → Bool
  | .serving | .leaving | .left => true
  | .accepting | .resetting | .greeting => false

/-- A notification to the client. -/
inductive GameNotice
  | connected
  | disconnected
  | message (m : Message)
  deriving DecidableEq, Repr

/-- Whether the client takes a game to be connected after a notification, if it makes sense to it. -/
def GameNotice.hear : Option Bool → GameNotice → Option Bool
  | some false, .connected => some true
  | some true, .disconnected => some false
  | some true, .message _ => some true
  | _, _ => none

/-- What became of a message that has left the server. -/
inductive Fate
  | written (conn : GameConn)
  | discarded
  | failed
  deriving DecidableEq, Repr

structure GPGNetConnections where
  lobby : GPGNetServer := {}
  conn : Option GameConn := none
  writer : Option GameConn := none
  connected : Bool := false
  connEpoch : UInt64 := 0
  phase : ServePhase := .accepting
  myEpoch : UInt64 := 0
  notices : List GameNotice := []
  log : List (Fate × WrittenMessage) := []
  reports : List (GameConn × GameState) := []
  /-- The last connection accepted. -/
  served : GameConn := 0
  /-- The last connection whose lobby was opened. -/
  resets : GameConn := 0
  /-- `resets` when a call looked at `lobbyReady`. -/
  seen : CallID → GameConn := fun _ => 0

inductive ConnectionEvent
  | accept
  | receive (m : Message)
  | hangUp
  | advance (createLobby : Outgoing) (ok : Bool)
  | start (call : CallID) (msg : Outgoing)
  | lock (call : CallID)
  | check (call : CallID)
  | append (call : CallID)
  | send (call : CallID) (ok : Bool)
  | sendToGame (msg : Outgoing) (ok : Bool)

namespace GPGNetConnections

/-- What becomes of a message that is sent now: without a game, or when the connection fails, it is gone. -/
def fate (ok : Bool) (g : GPGNetConnections) : Fate :=
  match g.writer, ok with
  | some c, true => .written c
  | _, _ => .failed

def sendToGame (m : WrittenMessage) (ok : Bool) (g : GPGNetConnections) : GPGNetConnections :=
  { g with log := g.log ++ [(g.fate ok, m)] }

/-! ## Steps of a call -/

def check (i : CallID) (g : GPGNetConnections) : GPGNetConnections :=
  match g.lobby.calls i with
  | .checking _ => { g with lobby := g.lobby.check i, seen := Function.update g.seen i g.resets }
  | _ => g

def send (i : CallID) (ok : Bool) (g : GPGNetConnections) : GPGNetConnections :=
  match g.lobby.calls i with
  | .sending msg =>
    let g := g.sendToGame ⟨some i, msg⟩ ok
    { g with lobby := g.lobby.finish i msg .sent }
  | _ => g

/-! ## Steps of the server -/

/-- The first section of `handleConnection`, under `connMu`. -/
def accept (g : GPGNetConnections) : GPGNetConnections :=
  match g.phase with
  | .accepting =>
    { g with
      conn := some (g.served + 1)
      writer := some (g.served + 1)
      connected := true
      lobby := { g.lobby with gameState := .none }
      connEpoch := g.connEpoch + 1
      myEpoch := g.connEpoch + 1
      served := g.served + 1
      phase := .resetting }
  | _ => g

/-- The second section, under `queueMu`. -/
def reset (g : GPGNetConnections) : GPGNetConnections :=
  match g.lobby.queueMu with
  | none =>
    { g with
      lobby := { g.lobby with
        lobbyOnce := false, lobbyReady := false, messageQueue := [], lobbyProcessed := false }
      log := g.log ++ g.lobby.messageQueue.map fun m => (.discarded, ⟨some m.call, m.msg⟩)
      resets := g.served
      phase := .greeting }
  | some _ => g

/-- `processMessage` up to where `onGameState` has set the state. -/
def receive (m : Message) (g : GPGNetConnections) : GPGNetConnections :=
  match g.phase, g.lobby.loop with
  | .serving, .reading =>
    { g with
      notices := g.notices ++ [.message m]
      lobby := g.lobby.receive m
      reports := g.reports ++ (gameStateOf m).toList.map (g.served, ·) }
  | _, _ => g

def hangUp (g : GPGNetConnections) : GPGNetConnections :=
  match g.phase, g.lobby.loop with
  | .serving, .reading => { g with phase := .leaving }
  | _, _ => g

/-- The next step of `onGameState`. -/
def onGameState (createLobby : Outgoing) (ok : Bool) (g : GPGNetConnections) : GPGNetConnections :=
  match g.lobby.loop with
  | .createLobby =>
    let g := g.sendToGame ⟨none, createLobby⟩ ok
    { g with lobby := { g.lobby with loop := .reading } }
  | .sending (m :: queue) =>
    let g := g.sendToGame ⟨some m.call, m.msg⟩ ok
    { g with lobby := { g.lobby with loop := .sending queue } }
  | _ => { g with lobby := g.lobby.advance createLobby }

/-- The section after the read loop, under `connMu`. -/
def cleanUp (g : GPGNetConnections) : GPGNetConnections :=
  let g := { g with phase := .left }
  if g.connEpoch = g.myEpoch then { g with connected := false, conn := none, writer := none } else g

/-- The end of `handleConnection`. -/
def leave (g : GPGNetConnections) : GPGNetConnections :=
  let g := { g with phase := .accepting }
  if g.connEpoch = g.myEpoch then { g with notices := g.notices ++ [.disconnected] } else g

def advance (createLobby : Outgoing) (ok : Bool) (g : GPGNetConnections) : GPGNetConnections :=
  match g.phase with
  | .accepting => g
  | .resetting => g.reset
  | .greeting => { g with notices := g.notices ++ [.connected], phase := .serving }
  | .serving => g.onGameState createLobby ok
  | .leaving => g.cleanUp
  | .left => g.leave

def step (g : GPGNetConnections) : ConnectionEvent → GPGNetConnections × Unit
  | .accept => (g.accept, ())
  | .receive m => (g.receive m, ())
  | .hangUp => (g.hangUp, ())
  | .advance createLobby ok => (g.advance createLobby ok, ())
  | .start i msg => ({ g with lobby := g.lobby.start i msg }, ())
  | .lock i => ({ g with lobby := g.lobby.lock i }, ())
  | .check i => (g.check i, ())
  | .append i => ({ g with lobby := g.lobby.append i }, ())
  | .send i ok => (g.send i ok, ())
  | .sendToGame msg ok => (g.sendToGame ⟨none, msg⟩ ok, ())

/-- The server when every message that has left it counts as written. -/
def whole (g : GPGNetConnections) : GPGNetServer := { g.lobby with written := g.log.map Prod.snd }

/-- The messages of queued calls: those that have left, then those that wait. -/
def entries (g : GPGNetConnections) : List QueuedMessage :=
  g.log.filterMap (fun e => e.2.queued) ++ g.lobby.pending

end GPGNetConnections

/-! ## The queue over all connections -/

namespace GPGNetServer
variable {v : GPGNetServer}

/-- The lobby is opened again, and what waited leaves the queue. -/
def reopen (v : GPGNetServer) : GPGNetServer :=
  { v with
    lobbyOnce := false
    lobbyReady := false
    messageQueue := []
    lobbyProcessed := false
    written := v.written ++ v.messageQueue.map fun m => ⟨some m.call, m.msg⟩ }

/-- What a step does to the server as a whole. -/
inductive Change (v : GPGNetServer) : GPGNetServer → Prop
  | move (createLobby : Outgoing) (ev : GPGNetEvent) {v' : GPGNetServer}
      (hm : Move createLobby v ev v') : Change v v'
  | forget : Change v { v with gameState := .none }
  | reopen (hloop : v.loop = .reading) : Change v v.reopen

theorem Change.stay : Change v v := .move ⟨[], []⟩ .advance (.stay nofun)

/-! The steps of a call leave the read loop alone, and no step looks at what has been written. -/

section Frame
variable (v : GPGNetServer) (i : CallID) (w : List WrittenMessage)

theorem loop_start (msg : Outgoing) : (v.start i msg).loop = v.loop := by
  unfold start
  split <;> rfl

theorem loop_lock : (v.lock i).loop = v.loop := by
  unfold lock
  split <;> rfl

theorem loop_check : (v.check i).loop = v.loop := by
  unfold check
  split
  · split <;> rfl
  · rfl

theorem loop_append : (v.append i).loop = v.loop := by
  unfold append
  split
  · split <;> rfl
  · rfl

theorem start_written (msg : Outgoing) :
    { v with written := w }.start i msg = { v.start i msg with written := w } := by
  dsimp only [start]
  split <;> rfl

theorem lock_written : { v with written := w }.lock i = { v.lock i with written := w } := by
  dsimp only [lock]
  split <;> rfl

theorem check_written : { v with written := w }.check i = { v.check i with written := w } := by
  dsimp only [check]
  split
  · split <;> rfl
  · rfl

theorem append_written : { v with written := w }.append i = { v.append i with written := w } := by
  dsimp only [append]
  split
  · split <;> rfl
  · rfl

theorem receive_written (m : Message) :
    { v with written := w }.receive m = { v.receive m with written := w } := by
  dsimp only [receive]
  split <;> rfl

theorem advance_written (createLobby : Outgoing) (hcreate : v.loop ≠ .createLobby)
    (hsending : ∀ m queue, v.loop ≠ .sending (m :: queue)) :
    { v with written := w }.advance createLobby = { v.advance createLobby with written := w } := by
  dsimp only [advance]
  split
  · rfl
  · next hloop => exact absurd hloop hcreate
  · unfold closeLobbyReady
    dsimp only
    split <;> rfl
  · split <;> rfl
  · rfl
  · next m queue hloop => exact absurd hloop (hsending m queue)

end Frame

theorem filterMap_queued (queue : List QueuedMessage) :
    (queue.map fun m => (⟨some m.call, m.msg⟩ : WrittenMessage)).filterMap WrittenMessage.queued = queue := by
  rw [List.filterMap_map]
  exact List.filterMap_some

theorem entries_reopen (hloop : v.loop = .reading) : v.reopen.entries = v.entries := by
  unfold entries
  rw [pending_idle (by simp [reopen, hloop]), pending_idle (by simp [hloop])]
  unfold writtenQueued reopen
  rw [List.filterMap_append, filterMap_queued, List.append_nil]

theorem Queueing.reopen (h : Queueing v) (hloop : v.loop = .reading) :
    Queueing v.reopen := by
  have hswapped : ¬ Swapped v.reopen := by
    rintro (hp | ⟨queue, hsend⟩)
    · cases hp
    · rw [show v.reopen.loop = .reading from hloop] at hsend
      cases hsend
  refine ⟨h.locking, ⟨rfl, fun hpast => ?_⟩, ⟨fun hs => absurd hs hswapped, fun _ => rfl,
    fun hs => absurd hs hswapped, nofun⟩, h.accounting.same (entries_reopen hloop) fun _ _ _ _ => Iff.rfl,
    Nat.zero_le _⟩
  rw [show v.reopen.loop = .reading from hloop] at hpast
  cases hpast

theorem Queueing.change {v' : GPGNetServer} (h : Queueing v) (hc : Change v v') : Queueing v' := by
  cases hc with
  | move createLobby ev hm => exact h.move hm
  | forget =>
    exact ⟨h.locking, ⟨h.closed.once, h.closed.past⟩,
      ⟨h.taken.ready, h.taken.empty, h.taken.appending, h.taken.processed⟩,
      ⟨h.accounting.nodup, h.accounting.accepted⟩, h.room⟩
  | reopen hloop => exact h.reopen hloop

end GPGNetServer

namespace GPGNetConnections
open GPGNetServer (Move Change Queueing)
variable {g : GPGNetConnections}

theorem entries_whole (g : GPGNetConnections) : g.whole.entries = g.entries := by
  change (g.log.map Prod.snd).filterMap WrittenMessage.queued ++ g.lobby.pending = g.entries
  rw [List.filterMap_map]
  rfl

theorem whole_sendToGame (m : WrittenMessage) (ok : Bool) (g : GPGNetConnections) :
    (g.sendToGame m ok).whole = g.whole.write m := by
  simp [sendToGame, whole, GPGNetServer.write]

/-- A step of the lobby that writes nothing. -/
theorem change_lobby {f : GPGNetServer → GPGNetServer}
    (hf : ∀ w v, f { v with written := w } = { f v with written := w }) (createLobby : Outgoing)
    (ev : GPGNetEvent) (hev : ∀ v : GPGNetServer, (v.step createLobby ev).1 = f v) :
    Change g.whole { g with lobby := f g.lobby }.whole := by
  have hm := GPGNetServer.move_step createLobby g.whole ev
  rw [hev, show f g.whole = { g with lobby := f g.lobby }.whole from hf _ _] at hm
  exact .move createLobby ev hm

theorem change_onGameState (createLobby : Outgoing) (ok : Bool) (g : GPGNetConnections) :
    Change g.whole (g.onGameState createLobby ok).whole := by
  unfold onGameState
  split
  · next hloop =>
    have hmove : Change g.whole _ := .move createLobby .advance (.createLobby hloop)
    rw [← whole_sendToGame ⟨none, createLobby⟩ ok] at hmove
    exact hmove
  · next m queue hloop =>
    have hmove : Change g.whole _ := .move createLobby .advance (.flush hloop)
    rw [← whole_sendToGame ⟨some m.call, m.msg⟩ ok] at hmove
    exact hmove
  · next hcreate hsending =>
    have hwhole : g.whole.advance createLobby = { g with lobby := g.lobby.advance createLobby }.whole :=
      GPGNetServer.advance_written _ _ createLobby hcreate hsending
    have hm := GPGNetServer.move_advance createLobby g.whole
    rw [hwhole] at hm
    exact .move createLobby .advance hm

theorem change_advance (hidle : g.phase ≠ .serving → g.lobby.loop = .reading) (createLobby : Outgoing)
    (ok : Bool) : Change g.whole (g.advance createLobby ok).whole := by
  unfold advance
  cases hphase : g.phase with
  | serving => exact change_onGameState createLobby ok g
  | resetting =>
    dsimp only
    unfold reset
    split
    · have hreset : Change g.whole g.whole.reopen := .reopen (hidle (by simp [hphase]))
      simpa [whole, GPGNetServer.reopen, Function.comp_def] using hreset
    · exact .stay
  | leaving =>
    dsimp only [cleanUp]
    split <;> exact .stay
  | left =>
    dsimp only [leave]
    split <;> exact .stay
  | _ => exact .stay

theorem change_step (hidle : g.phase ≠ .serving → g.lobby.loop = .reading) (ev : ConnectionEvent) :
    Change g.whole (g.step ev).1.whole := by
  cases ev with
  | accept =>
    simp only [step, accept]
    split
    · exact .forget
    · exact .stay
  | receive m =>
    simp only [step, receive]
    split
    · exact change_lobby (fun w v => v.receive_written w m) ⟨[], []⟩ (.receive m) fun _ => rfl
    · exact .stay
  | hangUp =>
    simp only [step, hangUp]
    split <;> exact .stay
  | advance createLobby ok => exact change_advance hidle createLobby ok
  | start i msg => exact change_lobby (fun w v => v.start_written i w msg) ⟨[], []⟩ (.start i msg) fun _ => rfl
  | lock i => exact change_lobby (fun w v => v.lock_written i w) ⟨[], []⟩ (.lock i) fun _ => rfl
  | check i =>
    simp only [step, check]
    split
    · exact change_lobby (fun w v => v.check_written i w) ⟨[], []⟩ (.check i) fun _ => rfl
    · exact .stay
  | append i => exact change_lobby (fun w v => v.append_written i w) ⟨[], []⟩ (.append i) fun _ => rfl
  | send i ok =>
    simp only [step, send]
    split
    · next msg hcall =>
      have hsend : Change g.whole _ := .move ⟨[], []⟩ (.send i) (.send hcall)
      rw [← whole_sendToGame ⟨some i, msg⟩ ok] at hsend
      exact hsend
    · exact .stay
  | sendToGame msg ok =>
    have hsend : Change g.whole _ := .move ⟨[], []⟩ (.sendToGame msg) (.sendToGame msg)
    rw [← whole_sendToGame ⟨none, msg⟩ ok] at hsend
    exact hsend

/-! ## One connection at a time -/

def told (g : GPGNetConnections) : Option Bool := g.notices.foldl GameNotice.hear (some false)

/-- How the goroutine of `Run` stands to what it shares. Neither the connection `handleConnection` would
close nor a newer epoch is ever there. -/
structure Sessions (g : GPGNetConnections) : Prop where
  epoch : g.connEpoch = g.myEpoch
  conn : g.conn = if g.phase.installed then some g.served else none
  writer : g.writer = g.conn
  connected : g.connected = g.phase.installed
  told : g.told = some g.phase.announced
  idle : g.phase ≠ .serving → g.lobby.loop = .reading
  opened : g.phase ≠ .resetting → g.resets = g.served
  opening : g.phase = .resetting → g.resets < g.served

theorem Sessions.resets_le (h : Sessions g) : g.resets ≤ g.served := by
  by_cases hphase : g.phase = .resetting
  · exact (h.opening hphase).le
  · exact (h.opened hphase).le

theorem told_concat (notices : List GameNotice) (n : GameNotice) :
    { g with notices := notices ++ [n] }.told = GameNotice.hear { g with notices := notices }.told n :=
  List.foldl_append

/-- A step that leaves the goroutine of `Run` where it is. -/
theorem Sessions.lobby (h : Sessions g) {lobby : GPGNetServer}
    (hloop : g.phase = .serving ∨ lobby.loop = g.lobby.loop) (log : List (Fate × WrittenMessage))
    (seen : CallID → GameConn) : Sessions { g with lobby, log, seen } := by
  refine { h with idle := fun hphase => ?_ }
  rcases hloop with hserving | hloop
  · exact absurd hserving hphase
  · exact hloop.trans (h.idle hphase)

/-- A step from one phase to another that neither installs a connection nor takes one out. -/
theorem Sessions.enter (h : Sessions g) {phase : ServePhase} {notices : List GameNotice}
    (hfrom : g.phase ≠ .resetting) (hto : phase ≠ .resetting) (hinstalled : phase.installed = g.phase.installed)
    (htold : { g with notices }.told = some phase.announced) (hloop : g.lobby.loop = .reading) :
    Sessions { g with phase, notices } where
  epoch := h.epoch
  conn := by
    rw [h.conn, ← hinstalled]
  writer := h.writer
  connected := h.connected.trans hinstalled.symm
  told := htold
  idle := fun _ => hloop
  opened := fun _ => h.opened hfrom
  opening := fun he => absurd he hto

theorem Sessions.hear (h : Sessions g) (announced : Bool) (n : GameNotice)
    (hn : GameNotice.hear (some g.phase.announced) n = some announced) :
    { g with notices := g.notices ++ [n] }.told = some announced := by
  rw [told_concat, ← hn, ← h.told]

theorem Sessions.onGameState (h : Sessions g) (hphase : g.phase = .serving) (createLobby : Outgoing)
    (ok : Bool) : Sessions (g.onGameState createLobby ok) := by
  unfold GPGNetConnections.onGameState
  split <;> exact h.lobby (Or.inl hphase) _ g.seen

theorem Sessions.advance (h : Sessions g) (createLobby : Outgoing) (ok : Bool) :
    Sessions (g.advance createLobby ok) := by
  unfold GPGNetConnections.advance
  cases hphase : g.phase with
  | accepting => exact h
  | resetting =>
    have hconn := h.conn
    have hconnected := h.connected
    have htold := h.told
    have hloop := h.idle (by simp [hphase])
    rw [hphase] at hconn hconnected htold
    dsimp only
    unfold GPGNetConnections.reset
    split
    · exact ⟨h.epoch, hconn, h.writer, hconnected, htold, fun _ => hloop, fun _ => rfl, nofun⟩
    · exact h
  | greeting =>
    have htold := h.hear true .connected (by rw [hphase]; rfl)
    exact h.enter (by simp [hphase]) (by simp) (by rw [hphase]; rfl) htold (h.idle (by simp [hphase]))
  | serving => exact h.onGameState hphase createLobby ok
  | leaving =>
    have htold := h.told
    rw [hphase] at htold
    simp only [GPGNetConnections.cleanUp]
    rw [if_pos h.epoch]
    exact ⟨h.epoch, rfl, rfl, rfl, htold, fun _ => h.idle (by simp [hphase]),
      fun _ => h.opened (by simp [hphase]), nofun⟩
  | left =>
    have htold := h.hear false .disconnected (by rw [hphase]; rfl)
    simp only [GPGNetConnections.leave]
    rw [if_pos h.epoch]
    exact h.enter (by simp [hphase]) (by simp) (by rw [hphase]; rfl) htold (h.idle (by simp [hphase]))

theorem Sessions.step (h : Sessions g) (ev : ConnectionEvent) : Sessions (g.step ev).1 := by
  cases ev with
  | accept =>
    simp only [GPGNetConnections.step, GPGNetConnections.accept]
    split
    · next hphase =>
      have htold := h.told
      have hopened := h.opened (by simp [hphase])
      rw [hphase] at htold
      exact ⟨rfl, rfl, rfl, rfl, htold, fun _ => h.idle (by simp [hphase]), nofun,
        fun _ => Nat.lt_succ_of_le hopened.le⟩
    · exact h
  | receive m =>
    simp only [GPGNetConnections.step, GPGNetConnections.receive]
    split
    · next hphase hloop =>
      have htold := h.hear g.phase.announced (.message m) (by rw [hphase]; rfl)
      exact { h with told := htold, idle := fun hne => absurd hphase hne }
    · exact h
  | hangUp =>
    simp only [GPGNetConnections.step, GPGNetConnections.hangUp]
    split
    · next hphase hloop =>
      have htold := h.told
      rw [hphase] at htold
      exact h.enter (by simp [hphase]) (by simp) (by rw [hphase]; rfl) htold hloop
    · exact h
  | advance createLobby ok => exact h.advance createLobby ok
  | start i msg => exact h.lobby (Or.inr (g.lobby.loop_start i msg)) g.log g.seen
  | lock i => exact h.lobby (Or.inr (g.lobby.loop_lock i)) g.log g.seen
  | check i =>
    simp only [GPGNetConnections.step, GPGNetConnections.check]
    split
    · exact h.lobby (Or.inr (g.lobby.loop_check i)) g.log _
    · exact h
  | append i => exact h.lobby (Or.inr (g.lobby.loop_append i)) g.log g.seen
  | send i ok =>
    simp only [GPGNetConnections.step, GPGNetConnections.send]
    split
    · next msg hcall =>
      have hloop : (g.lobby.finish i msg .sent).loop = g.lobby.loop := rfl
      exact h.lobby (Or.inr hloop) _ g.seen
    · exact h
  | sendToGame msg ok => exact h.lobby (Or.inr rfl) _ g.seen

/-! ## Which game a message goes to -/

/-- What a call has to do with what became of its message. Only a call that found the lobby ready, and then
sends by itself, can write to a later game than the one it looked at. -/
inductive Destined (g : GPGNetConnections) (i : CallID) (msg : Outgoing) : Fate → Prop
  | queued {c : GameConn} (hcall : g.lobby.calls i = .done msg .queued) (hseen : g.seen i = c)
      (hlobby : (c, .lobby) ∈ g.reports) : Destined g i msg (.written c)
  | sent {c : GameConn} (hcall : g.lobby.calls i = .done msg .sent) (hseen : g.seen i ≤ c)
      (hlobby : (g.seen i, .lobby) ∈ g.reports) : Destined g i msg (.written c)
  | discarded (hcall : g.lobby.calls i = .done msg .queued) (hseen : g.seen i < g.resets) :
      Destined g i msg .discarded
  | failed {outcome : CallOutcome} (hcall : g.lobby.calls i = .done msg outcome)
      (hlobby : (g.seen i, .lobby) ∈ g.reports) : Destined g i msg .failed

structure Addressed (g : GPGNetConnections) : Prop where
  ready : g.lobby.lobbyReady = true ∨ g.lobby.loop = .closing → (g.resets, .lobby) ∈ g.reports
  appending : ∀ i msg, g.lobby.calls i = .appending msg → g.seen i = g.resets
  sending : ∀ i msg, g.lobby.calls i = .sending msg →
    g.seen i ≤ g.resets ∧ (g.seen i, .lobby) ∈ g.reports
  waiting : ∀ m ∈ g.lobby.pending, g.lobby.calls m.call = .done m.msg .queued ∧ g.seen m.call = g.resets
  left : ∀ fate i msg, (fate, ⟨some i, msg⟩) ∈ g.log → Destined g i msg fate

/-- What is known of the calls that have returned stays known. -/
structure Later (g g' : GPGNetConnections) : Prop where
  calls : ∀ i msg outcome, g.lobby.calls i = .done msg outcome → g'.lobby.calls i = .done msg outcome
  seen : ∀ i msg outcome, g.lobby.calls i = .done msg outcome → g'.seen i = g.seen i
  reports : g.reports ⊆ g'.reports
  resets : g.resets ≤ g'.resets

variable {g' : GPGNetConnections} {i : CallID}

theorem Destined.later {msg : Outgoing} {fate : Fate} (h : Destined g i msg fate) (hl : Later g g') :
    Destined g' i msg fate := by
  cases h with
  | queued hcall hseen hlobby =>
    exact .queued (hl.calls _ _ _ hcall) ((hl.seen _ _ _ hcall).trans hseen) (hl.reports hlobby)
  | sent hcall hseen hlobby =>
    rw [← hl.seen _ _ _ hcall] at hseen hlobby
    exact .sent (hl.calls _ _ _ hcall) hseen (hl.reports hlobby)
  | discarded hcall hseen =>
    rw [← hl.seen _ _ _ hcall] at hseen
    exact .discarded (hl.calls _ _ _ hcall) (hseen.trans_le hl.resets)
  | failed hcall hlobby =>
    rw [← hl.seen _ _ _ hcall] at hlobby
    exact .failed (hl.calls _ _ _ hcall) (hl.reports hlobby)

/-- A call moves that has not returned. -/
theorem Addressed.call (h : Addressed g) {st : CallState} (hwas : ∀ msg outcome, g.lobby.calls i ≠ .done msg outcome)
    {lobby : GPGNetServer} {log : List (Fate × WrittenMessage)} {seen : CallID → GameConn}
    (hcalls : lobby.calls = Function.update g.lobby.calls i st) (hready : lobby.lobbyReady = g.lobby.lobbyReady)
    (hloop : lobby.loop = g.lobby.loop) (hseen : ∀ j, j ≠ i → seen j = g.seen j)
    (happending : ∀ msg, st = .appending msg → seen i = g.resets)
    (hsending : ∀ msg, st = .sending msg → seen i ≤ g.resets ∧ (seen i, .lobby) ∈ g.reports)
    (hwaiting : ∀ m ∈ lobby.pending, m ∈ g.lobby.pending ∨
      m.call = i ∧ st = .done m.msg .queued ∧ seen i = g.resets)
    (hleft : ∀ fate j msg, (fate, ⟨some j, msg⟩) ∈ log → (fate, ⟨some j, msg⟩) ∈ g.log ∨
      j = i ∧ Destined { g with lobby, log, seen } i msg fate) :
    Addressed { g with lobby, log, seen } := by
  have hother : ∀ j, j ≠ i → lobby.calls j = g.lobby.calls j := by
    intro j hj
    rw [hcalls, Function.update_of_ne hj]
  have hne : ∀ j msg outcome, g.lobby.calls j = .done msg outcome → j ≠ i := by
    rintro j msg outcome hdone rfl
    exact hwas msg outcome hdone
  have hlater : Later g { g with lobby, log, seen } :=
    ⟨fun j msg outcome hdone => (hother j (hne j msg outcome hdone)).trans hdone,
      fun j msg outcome hdone => hseen j (hne j msg outcome hdone), List.Subset.refl _, le_refl _⟩
  have hself : lobby.calls i = st := by rw [hcalls, Function.update_self]
  refine ⟨fun hr => h.ready ?_, fun j msg hj => ?_, fun j msg hj => ?_, fun m hm => ?_, fun fate j msg he => ?_⟩
  · rwa [hready, hloop] at hr
  · by_cases hji : j = i
    · subst hji
      exact happending msg (hself.symm.trans hj)
    · exact (hseen j hji).trans (h.appending j msg ((hother j hji).symm.trans hj))
  · by_cases hji : j = i
    · subst hji
      exact hsending msg (hself.symm.trans hj)
    · have hold := h.sending j msg ((hother j hji).symm.trans hj)
      rw [← hseen j hji] at hold
      exact hold
  · rcases hwaiting m hm with hold | ⟨rfl, hst, hnew⟩
    · obtain ⟨hdone, hm⟩ := h.waiting m hold
      exact ⟨hlater.calls _ _ _ hdone, (hlater.seen _ _ _ hdone).trans hm⟩
    · exact ⟨hself.trans hst, hnew⟩
  · rcases hleft fate j msg he with hold | ⟨rfl, hnew⟩
    · exact (h.left fate j msg hold).later hlater
    · exact hnew

/-- The goroutine of `Run` moves and opens no lobby, or `SendToGame` is called from elsewhere. -/
theorem Addressed.serve (h : Addressed g) (hcalls : g'.lobby.calls = g.lobby.calls) (hseen : g'.seen = g.seen)
    (hreports : g.reports ⊆ g'.reports) (hresets : g'.resets = g.resets)
    (hready : g'.lobby.lobbyReady = true ∨ g'.lobby.loop = .closing → (g.resets, .lobby) ∈ g'.reports)
    (hwaiting : ∀ m ∈ g'.lobby.pending, m ∈ g.lobby.pending)
    (hleft : ∀ fate i msg, (fate, ⟨some i, msg⟩) ∈ g'.log →
      (fate, ⟨some i, msg⟩) ∈ g.log ∨ Destined g i msg fate) : Addressed g' := by
  have hlater : Later g g' :=
    ⟨fun i msg outcome hdone => hcalls ▸ hdone, fun i _ _ _ => congrFun hseen i, hreports, hresets.ge⟩
  refine ⟨?_, ?_, ?_, ?_, fun fate i msg he => ?_⟩
  · rw [hresets]
    exact hready
  · rw [hcalls, hseen, hresets]
    exact h.appending
  · rw [hcalls, hseen, hresets]
    exact fun i msg hi => ⟨(h.sending i msg hi).1, hreports (h.sending i msg hi).2⟩
  · rw [hcalls, hseen, hresets]
    exact fun m hm => h.waiting m (hwaiting m hm)
  · rcases hleft fate i msg he with hold | hnew
    · exact (h.left fate i msg hold).later hlater
    · exact hnew.later hlater

/-- The lobby is opened for a later connection. -/
theorem Addressed.reset (h : Addressed g) (hs : Sessions g) (hq : Queueing g.whole)
    (hphase : g.phase = .resetting) : Addressed g.reset := by
  unfold GPGNetConnections.reset
  split
  · next hfree =>
    have hloop := hs.idle (by simp [hphase])
    have hlt := hs.opening hphase
    have hpending : g.lobby.pending = g.lobby.messageQueue := GPGNetServer.pending_idle (by simp [hloop])
    refine ⟨?_, fun i msg hi => ?_, fun i msg hi => ?_, fun m hm => ?_, fun fate i msg he => ?_⟩
    · rintro (hready | hclosing)
      · cases hready
      · exact absurd (hloop.symm.trans hclosing) nofun
    · exact absurd hi (hq.locking.not_appending hfree i msg)
    · exact ⟨(h.sending i msg hi).1.trans hlt.le, (h.sending i msg hi).2⟩
    · rw [GPGNetServer.pending_idle (by simp [hloop])] at hm
      cases hm
    · rcases List.mem_append.mp he with hold | hnew
      · exact (h.left fate i msg hold).later
          ⟨fun _ _ _ => id, fun _ _ _ _ => rfl, List.Subset.refl _, hlt.le⟩
      · obtain ⟨m, hm, heq⟩ := List.mem_map.mp hnew
        cases heq
        obtain ⟨hdone, hseen⟩ := h.waiting m (hpending ▸ hm)
        exact .discarded hdone (hseen.trans_lt hlt)
  · exact h

theorem fate_cases (h : Sessions g) (ok : Bool) : g.fate ok = .failed ∨ g.fate ok = .written g.served := by
  have hwriter := h.writer.trans h.conn
  unfold fate
  split
  · next c hc =>
    rw [hwriter] at hc
    split at hc
    · cases hc
      exact Or.inr rfl
    · cases hc
  · exact Or.inl rfl

/-- A message that no call of `SendToGameQueued` sends. -/
theorem left_sendToGame (msg : Outgoing) (ok : Bool) (fate : Fate) (i : CallID) (m : Outgoing)
    (he : (fate, ⟨some i, m⟩) ∈ (g.sendToGame ⟨none, msg⟩ ok).log) : (fate, ⟨some i, m⟩) ∈ g.log := by
  rcases List.mem_append.mp he with hold | hnew
  · exact hold
  · cases List.mem_singleton.mp hnew

theorem Addressed.advanceLobby (h : Addressed g) (createLobby : Outgoing) (hcreate : g.lobby.loop ≠ .createLobby)
    (hsending : ∀ m queue, g.lobby.loop ≠ .sending (m :: queue)) :
    Addressed { g with lobby := g.lobby.advance createLobby } := by
  have hleft : ∀ fate i msg, (fate, ⟨some i, msg⟩) ∈ g.log →
      (fate, ⟨some i, msg⟩) ∈ g.log ∨ Destined g i msg fate := fun _ _ _ => Or.inl
  unfold GPGNetServer.advance
  split
  · exact h
  · next hloop => exact absurd hloop hcreate
  · next hloop =>
    have hlobby := h.ready (Or.inr hloop)
    have hpending : ∀ m ∈ g.lobby.messageQueue, m ∈ g.lobby.pending := by
      rw [GPGNetServer.pending_idle (by simp [hloop])]
      exact fun _ => id
    unfold GPGNetServer.closeLobbyReady
    split
    · exact h.serve rfl rfl (List.Subset.refl _) rfl (fun _ => hlobby) hpending hleft
    · exact h.serve rfl rfl (List.Subset.refl _) rfl (fun _ => hlobby) hpending hleft
  · next hloop =>
    split
    · refine h.serve rfl rfl (List.Subset.refl _) rfl (fun hr => h.ready ?_) ?_ hleft
      · exact hr.imp id (absurd · nofun)
      · rw [GPGNetServer.pending_sending rfl, GPGNetServer.pending_idle (by simp [hloop]), List.append_nil]
        exact fun _ => id
    · exact h
  · next hloop =>
    refine h.serve rfl rfl (List.Subset.refl _) rfl (fun hr => h.ready ?_) ?_ hleft
    · exact hr.imp id (absurd · nofun)
    · rw [GPGNetServer.pending_sending hloop, GPGNetServer.pending_idle (by simp)]
      exact fun _ => id
  · next m queue hloop => exact absurd hloop (hsending m queue)

theorem Addressed.onGameState (h : Addressed g) (hs : Sessions g) (hq : Queueing g.whole)
    (hphase : g.phase = .serving) (createLobby : Outgoing) (ok : Bool) :
    Addressed (g.onGameState createLobby ok) := by
  unfold GPGNetConnections.onGameState
  split
  · next hloop =>
    refine h.serve rfl rfl (List.Subset.refl _) rfl (fun hr => h.ready ?_) ?_ fun fate i msg he =>
      Or.inl (left_sendToGame createLobby ok fate i msg he)
    · exact hr.imp id (absurd · nofun)
    · rw [GPGNetServer.pending_idle (by simp), GPGNetServer.pending_idle (by simp [hloop])]
      exact fun _ => id
  · next m queue hloop =>
    have hready := h.ready (Or.inl (hq.closed.past (by simp [whole, hloop, LoopState.pastClose])))
    have hopened := hs.opened (by simp [hphase])
    have hpending := GPGNetServer.pending_sending hloop
    obtain ⟨hdone, hseen⟩ := h.waiting m (by rw [hpending]; exact List.mem_append_left _ List.mem_cons_self)
    have hdestined : Destined g m.call m.msg (g.fate ok) := by
      rcases fate_cases hs ok with hfailed | hwritten
      · rw [hfailed]
        exact .failed hdone (hseen ▸ hready)
      · rw [hwritten, ← hopened]
        exact .queued hdone hseen hready
    refine h.serve rfl rfl (List.Subset.refl _) rfl (fun hr => h.ready ?_) (fun m' hm' => ?_) fun fate i msg he => ?_
    · exact hr.imp id (absurd · nofun)
    · rw [hpending]
      exact List.mem_cons_of_mem _ hm'
    · rcases List.mem_append.mp he with hold | hnew
      · exact Or.inl hold
      · cases List.mem_singleton.mp hnew
        exact Or.inr hdestined
  · next hcreate hsending => exact h.advanceLobby createLobby hcreate hsending

/-- Neither the lobby nor what the observer has written down changes. -/
theorem Addressed.keep (h : Addressed g) (conn writer : Option GameConn) (connected : Bool) (phase : ServePhase)
    (notices : List GameNotice) : Addressed { g with conn, writer, connected, phase, notices } :=
  h.serve rfl rfl (List.Subset.refl _) rfl h.ready (fun _ => id) fun _ _ _ => Or.inl

theorem Addressed.advance (h : Addressed g) (hs : Sessions g) (hq : Queueing g.whole) (createLobby : Outgoing)
    (ok : Bool) : Addressed (g.advance createLobby ok) := by
  unfold GPGNetConnections.advance
  cases hphase : g.phase with
  | accepting => exact h
  | resetting => exact h.reset hs hq hphase
  | greeting => exact h.keep g.conn g.writer g.connected .serving _
  | serving => exact h.onGameState hs hq hphase createLobby ok
  | leaving =>
    dsimp only [cleanUp]
    split
    · exact h.keep none none false .left g.notices
    · exact h.keep g.conn g.writer g.connected .left g.notices
  | left =>
    dsimp only [leave]
    split <;> exact h.keep g.conn g.writer g.connected .accepting _

theorem Addressed.receive (h : Addressed g) (hs : Sessions g) (m : Message) : Addressed (g.receive m) := by
  unfold GPGNetConnections.receive
  split
  · next hphase hloop =>
    have hopened := hs.opened (by simp [hphase])
    unfold GPGNetServer.receive
    rw [hloop]
    cases hstate : gameStateOf m with
    | none =>
      refine h.serve rfl rfl (List.subset_append_left _ _) rfl (fun hr => ?_) (fun _ => id) fun _ _ _ => Or.inl
      exact List.mem_append_left _ (h.ready hr)
    | some st =>
      refine h.serve rfl rfl (List.subset_append_left _ _) rfl (fun hr => ?_) ?_ fun _ _ _ => Or.inl
      · rcases hr with hready | hclosing
        · exact List.mem_append_left _ (h.ready (Or.inl hready))
        · cases st <;> cases hclosing
          rw [hopened]
          exact List.mem_append_right _ (List.mem_singleton.mpr rfl)
      · rw [GPGNetServer.pending_idle (by cases st <;> simp [GPGNetServer.nextLoop]),
          GPGNetServer.pending_idle (by simp [hloop])]
        exact fun _ => id
  · exact h

theorem Addressed.check (h : Addressed g) (i : CallID) : Addressed (g.check i) := by
  unfold GPGNetConnections.check
  split
  · next msg hcall =>
    have hother : ∀ j, j ≠ i → Function.update g.seen i g.resets j = g.seen j := fun j hj =>
      Function.update_of_ne hj _ _
    have hseen : Function.update g.seen i g.resets i = g.resets := Function.update_self ..
    simp only [GPGNetServer.check, hcall]
    split
    · next hready =>
      refine h.call (by simp [hcall]) rfl rfl rfl hother (by simp) (fun _ _ => ?_) (fun _ => Or.inl)
        fun _ _ _ => Or.inl
      rw [hseen]
      exact ⟨le_refl _, h.ready (Or.inl hready)⟩
    · exact h.call (by simp [hcall]) rfl rfl rfl hother (fun _ _ => hseen) (by simp) (fun _ => Or.inl)
        fun _ _ _ => Or.inl
  · exact h

theorem mem_pending_enqueue {v : GPGNetServer} {m m' : QueuedMessage}
    (hm : m ∈ { v with messageQueue := v.messageQueue ++ [m'] }.pending) : m ∈ v.pending ∨ m = m' := by
  unfold GPGNetServer.pending at hm ⊢
  dsimp only at hm
  split at hm
  · rw [← List.append_assoc] at hm
    exact (List.mem_append.mp hm).imp id List.mem_singleton.mp
  · exact (List.mem_append.mp hm).imp id List.mem_singleton.mp

theorem Addressed.append (h : Addressed g) (i : CallID) :
    Addressed { g with lobby := g.lobby.append i } := by
  unfold GPGNetServer.append
  split
  · next msg hcall =>
    split
    · exact h.call (by simp [hcall]) rfl rfl rfl (fun _ _ => rfl) (by simp) (by simp) (fun _ => Or.inl)
        fun _ _ _ => Or.inl
    · refine h.call (by simp [hcall]) rfl rfl rfl (fun _ _ => rfl) (by simp) (by simp) (fun m hm => ?_)
        fun _ _ _ => Or.inl
      rcases mem_pending_enqueue hm with hold | rfl
      · exact Or.inl hold
      · exact Or.inr ⟨rfl, rfl, h.appending i msg hcall⟩
  · exact h

theorem Addressed.send (h : Addressed g) (hs : Sessions g) (i : CallID) (ok : Bool) :
    Addressed (g.send i ok) := by
  unfold GPGNetConnections.send
  split
  · next msg hcall =>
    obtain ⟨hseen, hlobby⟩ := h.sending i msg hcall
    refine h.call (by simp [hcall]) rfl rfl rfl (fun _ _ => rfl) (by simp) (by simp) (fun _ => Or.inl)
      fun fate j m he => ?_
    rcases List.mem_append.mp he with hold | hnew
    · exact Or.inl hold
    · cases List.mem_singleton.mp hnew
      refine Or.inr ⟨rfl, ?_⟩
      have hdone : Function.update g.lobby.calls i (.done msg .sent) i = .done msg .sent :=
        Function.update_self ..
      rcases fate_cases hs ok with hfailed | hwritten
      · rw [hfailed]
        exact .failed hdone hlobby
      · rw [hwritten]
        exact .sent hdone (hseen.trans hs.resets_le) hlobby
  · exact h

theorem Addressed.step (h : Addressed g) (hs : Sessions g) (hq : Queueing g.whole) (ev : ConnectionEvent) :
    Addressed (g.step ev).1 := by
  cases ev with
  | accept =>
    simp only [GPGNetConnections.step, GPGNetConnections.accept]
    split
    · exact h.serve rfl rfl (List.Subset.refl _) rfl h.ready (fun _ => id) fun _ _ _ => Or.inl
    · exact h
  | receive m => exact h.receive hs m
  | hangUp =>
    simp only [GPGNetConnections.step, GPGNetConnections.hangUp]
    split
    · exact h.keep g.conn g.writer g.connected .leaving g.notices
    · exact h
  | advance createLobby ok => exact h.advance hs hq createLobby ok
  | start i msg =>
    simp only [GPGNetConnections.step, GPGNetServer.start]
    split
    · next hcall =>
      exact h.call (by simp [hcall]) rfl rfl rfl (fun _ _ => rfl) (by simp) (by simp) (fun _ => Or.inl)
        fun _ _ _ => Or.inl
    · exact h
  | lock i =>
    simp only [GPGNetConnections.step, GPGNetServer.lock]
    split
    · next msg hcall hfree =>
      exact h.call (by simp [hcall]) rfl rfl rfl (fun _ _ => rfl) (by simp) (by simp) (fun _ => Or.inl)
        fun _ _ _ => Or.inl
    · exact h
  | check i => exact h.check i
  | append i => exact h.append i
  | send i ok => exact h.send hs i ok
  | sendToGame msg ok =>
    exact h.serve rfl rfl (List.Subset.refl _) rfl h.ready (fun _ => id) fun fate i m he =>
      Or.inl (left_sendToGame msg ok fate i m he)

/-! ## Runs -/

structure ConnectionsInvariant (g : GPGNetConnections) : Prop where
  queueing : Queueing g.whole
  sessions : Sessions g
  addressed : Addressed g

theorem connectionsInvariant_init : ConnectionsInvariant {} where
  queueing := GPGNetServer.queueing_init
  sessions := ⟨rfl, rfl, rfl, rfl, rfl, fun _ => rfl, fun _ => rfl, nofun⟩
  addressed := ⟨by simp, nofun, nofun, nofun, nofun⟩

theorem connectionsInvariant_run (events : List ConnectionEvent) :
    ConnectionsInvariant (runState step {} events) :=
  run_invariant (fun _ ev h => ⟨h.queueing.change (change_step h.sessions.idle ev), h.sessions.step ev,
    h.addressed.step h.sessions h.queueing ev⟩) connectionsInvariant_init events

/-- What has become of the queued calls. -/
structure Accounted (g : GPGNetConnections) : Prop where
  once : (g.entries.map QueuedMessage.call).Nodup
  accepted : ∀ i msg, (⟨i, msg⟩ : QueuedMessage) ∈ g.entries ↔
    ∃ outcome, outcome ≠ .rejected ∧ g.lobby.calls i = .done msg outcome
  waiting : ∀ m ∈ g.lobby.pending, g.lobby.calls m.call = .done m.msg .queued ∧ g.seen m.call = g.resets
  left : ∀ fate i msg, (fate, ⟨some i, msg⟩) ∈ g.log → Destined g i msg fate

theorem queuedCalls_accounted (events : List ConnectionEvent) : Accounted (runState step {} events) := by
  obtain ⟨hqueueing, -, haddressed⟩ := connectionsInvariant_run events
  have haccounting := hqueueing.accounting
  refine ⟨?_, fun i msg => ?_, haddressed.waiting, haddressed.left⟩
  · rw [← entries_whole]
    exact haccounting.nodup
  · rw [← entries_whole]
    exact haccounting.accepted i msg

/-- The first call is queued before a game connects. The second finds the lobby of the first game ready, and
writes when the next game has just connected. -/
def reconnectRun (msg : Outgoing) : List ConnectionEvent :=
  [.start 0 msg, .lock 0, .check 0, .append 0, .accept, .advance msg true, .advance msg true,
    .receive ⟨ascii "GameState", [.str (ascii "Lobby")]⟩, .advance msg true, .advance msg true,
    .advance msg true, .start 1 msg, .lock 1, .check 1, .hangUp, .advance msg true, .advance msg true,
    .accept, .send 1 true]

example : let msg : Outgoing := ⟨ascii "ConnectToPeer", []⟩
    let g := runState step {} (reconnectRun msg)
    g.log = [(.discarded, ⟨some 0, msg⟩), (.written 2, ⟨some 1, msg⟩)] ∧ g.reports = [(1, .lobby)] ∧
      g.seen 1 = 1 := by decide +kernel

/-- What the client is told, and what `IsConnected` and `SendToGame` find. -/
structure Announced (g : GPGNetConnections) : Prop where
  told : g.told = some g.phase.announced
  connected : g.connected = g.phase.installed
  writer : g.writer = if g.phase.installed then some g.served else none
  alone : g.phase = .accepting → g.conn = none
  current : g.connEpoch = g.myEpoch

theorem gameSessions_announced (events : List ConnectionEvent) : Announced (runState step {} events) := by
  have h := (connectionsInvariant_run events).sessions
  refine ⟨h.told, h.connected, h.writer.trans h.conn, fun hphase => ?_, h.epoch⟩
  rw [h.conn, hphase]
  rfl

end GPGNetConnections
end Adapter
end SturmRelay
