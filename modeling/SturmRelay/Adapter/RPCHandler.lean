import SturmRelay.Adapter.GPGNetServer
import SturmRelay.Adapter.PeerManager

/-! # RPC calls and restart callbacks

`internal/adapter/rpchandler.go` where it works on the peer manager: `joinGame`, `connectToPeer`,
`disconnectFromPeer`, `iceMsg`, the manual reconnect of the debug server (`ForceICEReconnect`), and the
closures of `iceRestartCallback`. Calls and callbacks run in goroutines of their own. One event is one
step of one of them, up to its next use of the peer manager; what the library, the system and the
clock answer is in `Env`.

`disconnects`, `gone` and `Call.since` are for the observer: no step looks at them. -/

namespace SturmRelay
namespace Adapter
set_option autoImplicit false

def maxLoginLen : ℕ := 64

/-! ## Restart callbacks -/

/-- A closure of `iceRestartCallback`: what it captures and the state its runs share. -/
structure RestartClosure where
  pid : ℤ
  login : String
  offerer : Bool
  consecutiveFailures : ℕ := 0
  sinceConnectedSnapshot : ℤ := 0
  lastConnectedAt : Option Instant := none
  deriving DecidableEq, Repr, Inhabited

/-- Self-initiated and not manual: the restart of a peer that failed. -/
def FafIceMsg.isSelfRestart (msg : FafIceMsg) : Bool := msg.ufrag = "" && !msg.manual

/-- Where a run of a callback stands. `snapshot` is before `peerBefore`, `sleeping` in the backoff,
`replacing` before `ReplaceICEPeer`, `starting` before `Start`. -/
inductive CallbackPhase
  | entering
  | snapshot (attempt : ℕ) (sinceConnected : ℤ)
  | sleeping (peerBefore : Option PeerRef) (wakeAt : Instant) (sinceConnected : ℤ)
  | replacing (sinceConnected : ℤ)
  | starting (peer : PeerRef) (sinceConnected : ℤ)
  | done
  deriving DecidableEq, Repr

namespace RestartClosure

def maxFailures : ℕ := 5
def stableConnection : ℤ := 60 * second
def shortConnection : ℤ := 45 * second

/-- The protected section. -/
def enter (msg : FafIceMsg) (now : Instant) (c : RestartClosure) : RestartClosure :=
  let c := if msg.manual then { c with consecutiveFailures := 0, sinceConnectedSnapshot := 0 } else c
  let c := match c.lastConnectedAt with
    | some t => { c with sinceConnectedSnapshot := now - t, lastConnectedAt := none }
    | none => c
  let c := if stableConnection ≤ c.sinceConnectedSnapshot then
      { c with consecutiveFailures := 0, sinceConnectedSnapshot := 0 }
    else c
  { c with consecutiveFailures := c.consecutiveFailures + 1 }

@[simp] theorem enter_pid (msg : FafIceMsg) (now : Instant) (c : RestartClosure) :
    (c.enter msg now).pid = c.pid := by
  unfold enter
  dsimp only
  repeat' split
  all_goals rfl

/-- Where the callback goes from the protected section. -/
def afterEnter (msg : FafIceMsg) (c : RestartClosure) : CallbackPhase :=
  if maxFailures < c.consecutiveFailures then .done
  else if msg.isSelfRestart then .snapshot c.consecutiveFailures c.sinceConnectedSnapshot
  else .replacing c.sinceConnectedSnapshot

/-- 1 s, 2 s, 4 s and so on, up to 16 s. -/
def backoff (attempt : ℕ) : ℤ := min (2 ^ attempt * (second / 2)) (16 * second)

end RestartClosure

/-- What `SetRelayOnly`, `SetSendFirst` and `Start` do to the new peer. -/
def ICEPeer.launch (msg : FafIceMsg) (offerer : Bool) (sinceConnected : ℤ) (p : ICEPeer) : ICEPeer :=
  let p := if 0 < sinceConnected ∧ sinceConnected < RestartClosure.shortConnection then
      { p with relayOnly := true }
    else p
  let p := if msg.ufrag = "" && !offerer then { p with sendFirst := true } else p
  p.start

/-! ## Calls -/

inductive RPC
  | joinGame (login : String) (pid : ℤ)
  | connectToPeer (login : String) (pid : ℤ) (offer : Bool)
  | disconnectFromPeer (pid : ℤ)
  | iceMsg (pid : ℤ) (parsed : Option FafIceMsg)
  | reconnect (pid : ℤ)
  deriving DecidableEq, Repr

def RPC.pid : RPC → ℤ
  | .joinGame _ pid => pid
  | .connectToPeer _ pid _ => pid
  | .disconnectFromPeer pid => pid
  | .iceMsg pid _ => pid
  | .reconnect pid => pid

/-- Where a call stands: before its `GetPeer`, its first `GetICEPeer`, its `AddPeer` or `AddICEPeer`,
its `ReplaceICEPeer`, its `Start`, its `RemovePeer`, or in the hands of the peer it has found. -/
inductive CallPhase
  | getPeer
  | getICEPeer
  | adding
  | replacing
  | starting (peer : PeerRef)
  | removing
  | looking
  | handling (peer : PeerRef)
  | pushing (peer : PeerRef) (phase : ICEPeer.PushPhase)
  | done
  deriving DecidableEq, Repr

structure Call where
  rpc : RPC
  phase : CallPhase
  /-- How often the player had been disconnected when the call was made. -/
  since : ℕ
  deriving DecidableEq, Repr

/-- What a step gets from outside. -/
structure Env where
  now : Instant := 0
  setup : Setup := ⟨true, true, true⟩
  drain : PeerRef → Bool := fun _ => false
  onRelay : Bool := false
  cancelled : Bool := false

structure RPCHandler where
  peerMgr : PeerManager := {}
  closures : Heap RestartClosure := ⟨0, default⟩
  callbacks : ℕ → CallbackPhase := fun _ => .entering
  calls : List Call := []
  disconnects : ℤ → ℕ := fun _ => 0
  /-- The player was disconnected, and no call made since has created a peer. -/
  gone : ℤ → Bool := fun _ => false

inductive AdapterEvent
  | call (rpc : RPC) (gameState : GameState)
  | rpc (i : ℕ) (env : Env)
  | callback (i : ℕ) (env : Env)
  | run (r : PeerRef) (ev : ICEPeer.RunEvent)
  | iceFailed (r : PeerRef)
  | delayElapsed (r : PeerRef)
  | delayedRestart (r : PeerRef)
  | iceConnected (r : PeerRef) (now : Instant)
  | gamePacket (r : PeerRef) (remoteAddr : AddrPort)

namespace RPCHandler

def peer (s : RPCHandler) (r : PeerRef) : ICEPeer := s.peerMgr.iceHeap.cell r

/-- The player a peer's callback is for. -/
def pidOf (s : RPCHandler) (r : PeerRef) : ℤ := (s.closures.cell (s.peer r).onRestart).pid

def hasPeer (s : RPCHandler) (pid : ℤ) : Bool :=
  (s.peerMgr.getPeer pid).isSome || (s.peerMgr.getICEPeer pid).isSome

/-- Change the peer behind a pointer. -/
def modifyPeer (r : PeerRef) (f : ICEPeer → ICEPeer) (s : RPCHandler) : RPCHandler :=
  { s with peerMgr := { s.peerMgr with iceHeap := s.peerMgr.iceHeap.modify r f } }

/-- `go p.onRestart(msg)`. -/
def spawn (r : PeerRef) (msg : FafIceMsg) (s : RPCHandler) : RPCHandler :=
  { s with peerMgr := { s.peerMgr with restarts := s.peerMgr.restarts ++ [⟨r, msg⟩] } }

/-- `restartOnce.Do(func() { go p.onRestart(fafIceMsg{}) })`. -/
def restartOnce (r : PeerRef) (s : RPCHandler) : RPCHandler :=
  if (s.peer r).restartOnce then s
  else (s.modifyPeer r fun p => { p with restartOnce := true }).spawn r {}

/-! ## Steps of a call -/

def setCall (i : ℕ) (call : Call) (phase : CallPhase) (s : RPCHandler) : RPCHandler :=
  { s with calls := s.calls.set i { call with phase := phase } }

/-- The first step of a call: its parameters are checked. -/
def firstPhase (gameState : GameState) : RPC → CallPhase
  | .joinGame login pid => if maxLoginLen < login.utf8ByteSize ∨ pid ≤ 0 then .done else .getPeer
  | .connectToPeer login pid _ =>
    if maxLoginLen < login.utf8ByteSize ∨ pid ≤ 0 then .done
    else if gameState = .launching ∨ gameState = .ended then .done
    else .getPeer
  | .disconnectFromPeer _ => .removing
  | .iceMsg _ _ => .looking
  | .reconnect _ => .looking

def call (rpc : RPC) (gameState : GameState) (s : RPCHandler) : RPCHandler :=
  { s with calls := s.calls ++ [⟨rpc, firstPhase gameState rpc, s.disconnects rpc.pid⟩] }

/-- The call has created a peer for its player, who had none `before`. -/
def created (call : Call) (s before : RPCHandler) : RPCHandler :=
  if call.since = before.disconnects call.rpc.pid ∧ before.hasPeer call.rpc.pid = false then
    { s with gone := Function.update s.gone call.rpc.pid false }
  else s

/-- `AddPeer`, or a new closure and `AddICEPeer`. -/
def add (i : ℕ) (call : Call) (login : String) (offerer : Bool) (env : Env) (s : RPCHandler) :
    RPCHandler :=
  if env.onRelay then
    match s.peerMgr.addPeer call.rpc.pid login env.setup with
    | (pm, .ok _) => ({ s with peerMgr := pm }.setCall i call .done).created call s
    | (pm, .error _) => { s with peerMgr := pm }.setCall i call .done
  else
    let closures := s.closures.alloc ⟨call.rpc.pid, login, offerer, 0, 0, none⟩
    match s.peerMgr.addICEPeer call.rpc.pid login offerer s.closures.next env.setup with
    | (pm, .ok r) =>
      ({ s with peerMgr := pm, closures := closures }.setCall i call (.starting r)).created call s
    | (pm, .error _) => { s with peerMgr := pm, closures := closures }.setCall i call .done

/-- The role change of `connectToPeer`. -/
def changeRole (i : ℕ) (call : Call) (login : String) (offer : Bool) (env : Env) (s : RPCHandler) :
    RPCHandler :=
  let closures := s.closures.alloc ⟨call.rpc.pid, login, offer, 0, 0, none⟩
  match s.peerMgr.replaceICEPeer call.rpc.pid login offer s.closures.next env.setup env.drain none with
  | (pm, .ok r) =>
    ({ s with peerMgr := pm, closures := closures }.setCall i call (.starting r)).created call s
  | (pm, .error _) => { s with peerMgr := pm, closures := closures }.setCall i call .done

def remove (i : ℕ) (call : Call) (env : Env) (s : RPCHandler) : RPCHandler :=
  { s.setCall i call .done with
    peerMgr := s.peerMgr.removePeer env.drain call.rpc.pid
    disconnects := Function.update s.disconnects call.rpc.pid (s.disconnects call.rpc.pid + 1)
    gone := Function.update s.gone call.rpc.pid true }

/-- `HandleIceMsg`, up to its push. -/
def handleIceMsg (i : ℕ) (call : Call) (r : PeerRef) (parsed : Option FafIceMsg) (s : RPCHandler) :
    RPCHandler :=
  match parsed with
  | none => s.setCall i call .done
  | some msg =>
    if !msg.hasCredentials then s.setCall i call .done
    else if (s.peer r).isRestart msg then (s.setCall i call .done).spawn r msg
    else s.setCall i call (.pushing r .select)

def push (i : ℕ) (call : Call) (r : PeerRef) (msg : FafIceMsg) (phase : ICEPeer.PushPhase)
    (s : RPCHandler) : RPCHandler :=
  let next := match ((s.peer r).push msg phase).2 with
    | none => CallPhase.done
    | some phase => .pushing r phase
  (s.modifyPeer r fun p => (p.push msg phase).1).setCall i call next

def rpc (i : ℕ) (env : Env) (s : RPCHandler) : RPCHandler :=
  match s.calls[i]? with
  | none => s
  | some call =>
    match call.phase, call.rpc with
    | .getPeer, _ =>
      s.setCall i call (if (s.peerMgr.getPeer call.rpc.pid).isSome then .done else .getICEPeer)
    | .getICEPeer, .connectToPeer _ pid offer =>
      match s.peerMgr.getICEPeer pid with
      | some r => s.setCall i call (if (s.peer r).offerer = offer then .done else .replacing)
      | none => s.setCall i call .adding
    | .getICEPeer, _ =>
      s.setCall i call (if (s.peerMgr.getICEPeer call.rpc.pid).isSome then .done else .adding)
    | .adding, .joinGame login _ => s.add i call login false env
    | .adding, .connectToPeer login _ offer => s.add i call login offer env
    | .replacing, .connectToPeer login _ offer => s.changeRole i call login offer env
    | .starting r, _ => (s.modifyPeer r ICEPeer.start).setCall i call .done
    | .removing, _ => s.remove i call env
    | .looking, _ =>
      match s.peerMgr.getICEPeer call.rpc.pid with
      | some r => s.setCall i call (.handling r)
      | none => s.setCall i call .done
    | .handling r, .iceMsg _ parsed => s.handleIceMsg i call r parsed
    | .handling r, .reconnect _ => (s.setCall i call .done).spawn r { manual := true }
    | .pushing r phase, .iceMsg _ (some msg) => s.push i call r msg phase
    | _, _ => s

/-! ## Steps of a callback -/

def setCallback (i : ℕ) (phase : CallbackPhase) (s : RPCHandler) : RPCHandler :=
  { s with callbacks := Function.update s.callbacks i phase }

/-- `ReplaceICEPeer`, from the callback of closure `c`. -/
def restart (i : ℕ) (c : RestartID) (msg : FafIceMsg) (sinceConnected : ℤ) (env : Env)
    (s : RPCHandler) : RPCHandler :=
  let closure := s.closures.cell c
  let initialMsg := if msg.ufrag = "" then none else some msg
  match s.peerMgr.replaceICEPeer closure.pid closure.login closure.offerer c env.setup env.drain
      initialMsg with
  | (pm, .ok r) => { s with peerMgr := pm }.setCallback i (.starting r sinceConnected)
  | (pm, .error _) => { s with peerMgr := pm }.setCallback i .done

/-- Where the callback goes when it wakes up: the peer is gone, or another one, or still the same. -/
def afterBackoff (pid : ℤ) (peerBefore : Option PeerRef) (sinceConnected : ℤ) (s : RPCHandler) :
    CallbackPhase :=
  match s.peerMgr.getICEPeer pid with
  | none => .done
  | some r => if some r = peerBefore then .replacing sinceConnected else .done

def callback (i : ℕ) (env : Env) (s : RPCHandler) : RPCHandler :=
  match s.peerMgr.restarts[i]? with
  | none => s
  | some ⟨r, msg⟩ =>
    let c := (s.peer r).onRestart
    match s.callbacks i with
    | .entering =>
      let closure := (s.closures.cell c).enter msg env.now
      { s with closures := s.closures.modify c (·.enter msg env.now) }.setCallback i
        (closure.afterEnter msg)
    | .snapshot attempt sinceConnected =>
      s.setCallback i (.sleeping (s.peerMgr.getICEPeer (s.pidOf r))
        (env.now + RestartClosure.backoff attempt) sinceConnected)
    | .sleeping peerBefore wakeAt sinceConnected =>
      if env.cancelled then s.setCallback i .done
      else if wakeAt ≤ env.now then
        s.setCallback i (s.afterBackoff (s.pidOf r) peerBefore sinceConnected)
      else s
    | .replacing sinceConnected => s.restart i c msg sinceConnected env
    | .starting peer sinceConnected =>
      (s.modifyPeer peer (ICEPeer.launch msg (s.closures.cell c).offerer sinceConnected)).setCallback i
        .done
    | .done => s

/-! ## Steps of a peer -/

def run (r : PeerRef) (ev : ICEPeer.RunEvent) (s : RPCHandler) : RPCHandler :=
  let s' := s.modifyPeer r (ICEPeer.advance · ev)
  if (s.peer r).restartsOn ev then s'.spawn r {} else s'

/-- The ICE state `Failed`. The goroutine of an answerer whose context is cancelled returns at once. -/
def iceFailed (r : PeerRef) (s : RPCHandler) : RPCHandler :=
  if (s.peer r).offerer then s.restartOnce r
  else s.modifyPeer r fun p =>
    { p with delay := if p.cancelled ∨ p.delay = .elapsed then p.delay else .waiting }

/-- A failed answerer has waited long enough. -/
def delayElapsed (r : PeerRef) (s : RPCHandler) : RPCHandler :=
  s.modifyPeer r fun p => { p with delay := if p.delay = .waiting then .elapsed else p.delay }

/-- It restarts, though the peer may have been closed meanwhile. -/
def delayedRestart (r : PeerRef) (s : RPCHandler) : RPCHandler :=
  if (s.peer r).delay = .elapsed then s.restartOnce r else s

/-- `onConnected`. -/
def iceConnected (r : PeerRef) (now : Instant) (s : RPCHandler) : RPCHandler :=
  { s with closures :=
      s.closures.modify (s.peer r).onRestart (fun c => { c with lastConnectedAt := some now }) }

/-- `gameToICE` learns the game's address from its first packet, and follows it to another port. -/
def gamePacket (r : PeerRef) (remoteAddr : AddrPort) (s : RPCHandler) : RPCHandler :=
  s.modifyPeer r fun p => { p with gameAddr :=
    match p.gameAddr with
    | none => some remoteAddr
    | some addr => if addr.port ≠ remoteAddr.port then some remoteAddr else some addr }

def step (s : RPCHandler) : AdapterEvent → RPCHandler × Unit
  | .call rpc gameState => (s.call rpc gameState, ())
  | .rpc i env => (s.rpc i env, ())
  | .callback i env => (s.callback i env, ())
  | .run r ev => (if r < s.peerMgr.iceHeap.next then s.run r ev else s, ())
  | .iceFailed r => (if r < s.peerMgr.iceHeap.next then s.iceFailed r else s, ())
  | .delayElapsed r => (if r < s.peerMgr.iceHeap.next then s.delayElapsed r else s, ())
  | .delayedRestart r => (if r < s.peerMgr.iceHeap.next then s.delayedRestart r else s, ())
  | .iceConnected r now => (if r < s.peerMgr.iceHeap.next then s.iceConnected r now else s, ())
  | .gamePacket r addr => (if r < s.peerMgr.iceHeap.next then s.gamePacket r addr else s, ())

end RPCHandler
end Adapter
end SturmRelay
