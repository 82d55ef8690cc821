import SturmRelay.Foundations.Heap
import SturmRelay.Relay.Session

/-! # ICE peers

`internal/adapter/icepeer.go`: the state of one `ICEPeer`, the steps of its `run` goroutine, and
`HandleIceMsg`. Both go through `remoteMsg`, a channel with four slots, and `remoteUfrag`, which `run`
records only after it has taken a message; a step here ends where the other side can come in.

Gathering, signalling and connecting are the ICE library's; what they answer is part of the event.
`onRestart` is never nil: every caller of `NewICEPeer` passes a callback. -/

namespace SturmRelay
namespace Adapter
set_option autoImplicit false

/-- A UDP socket the game talks to. -/
abbrev SocketID := ℕ

/-- A pointer to an ICE peer. -/
abbrev PeerRef := ℕ

/-- A closure built by `iceRestartCallback`. -/
abbrev RestartID := ℕ

/-! ## Messages -/

/-- `fafIceMsg`: its credentials and the mark of a manual restart. -/
structure FafIceMsg where
  ufrag : String := ""
  password : String := ""
  manual : Bool := false
  deriving DecidableEq, Repr, Inhabited

/-- A message without credentials is ignored. -/
def FafIceMsg.hasCredentials (msg : FafIceMsg) : Bool := msg.ufrag ≠ "" && msg.password ≠ ""

def remoteMsgCap : ℕ := 4

/-! ## Peers -/

/-- Where `run` stands. -/
inductive RunPhase
  | notStarted
  | gathering
  | waiting
  | taken (msg : FafIceMsg)
  | connecting (msg : FafIceMsg)
  | connected
  | ended
  deriving DecidableEq, Repr, Inhabited

/-- `run` has not yet taken a message. -/
def RunPhase.early : RunPhase → Bool
  | .notStarted => true
  | .gathering => true
  | .waiting => true
  | _ => false

/-- The goroutine of a failed answerer: in its `select`, or past it and before `restartOnce.Do`. -/
inductive DelayPhase
  | idle
  | waiting
  | elapsed
  deriving DecidableEq, Repr, Inhabited

structure ICEPeer where
  playerID : ℤ
  login : String
  offerer : Bool
  conn : SocketID
  ownsConn : Bool
  gameAddr : Option AddrPort := none
  remoteMsg : List FafIceMsg := []
  remoteUfrag : String := ""
  onRestart : RestartID
  restartOnce : Bool := false
  /-- A failed answerer waits `answererRestartDelay` before it restarts. -/
  delay : DelayPhase := .idle
  /-- `p.ctx` is cancelled. -/
  cancelled : Bool := false
  relayOnly : Bool := false
  sendFirst : Bool := false
  addedOrder : ℕ := 0
  phase : RunPhase := .notStarted
  deriving Inhabited

namespace ICEPeer

/-- The peer `NewICEPeer` returns. -/
def fresh (playerID : ℤ) (login : String) (offerer : Bool) (onRestart : RestartID) (conn : SocketID)
    (ownsConn : Bool) : ICEPeer where
  playerID := playerID
  login := login
  offerer := offerer
  conn := conn
  ownsConn := ownsConn
  onRestart := onRestart

/-- `peer.remoteMsg <- *initialMsg`. -/
def preload (initialMsg : Option FafIceMsg) (p : ICEPeer) : ICEPeer :=
  { p with remoteMsg := p.remoteMsg ++ initialMsg.toList }

def start (p : ICEPeer) : ICEPeer :=
  match p.phase with
  | .notStarted => { p with phase := .gathering }
  | _ => p

/-! ## `run` -/

/-- What happens to `run` from outside: gathering ends, the agent has no credentials, and the
outcome of `Dial` or `Accept`. `take` and `record` are its own steps. -/
inductive RunEvent
  | gathered
  | noCredentials
  | take
  | record
  | connected
  | connectFailed
  deriving DecidableEq, Repr

def advance (p : ICEPeer) : RunEvent → ICEPeer
  | .gathered =>
    match p.phase with
    | .gathering => { p with phase := .waiting }
    | _ => p
  | .noCredentials =>
    match p.phase with
    | .gathering => { p with phase := .ended }
    | _ => p
  | .take =>
    match p.phase, p.remoteMsg with
    | .waiting, msg :: rest => { p with remoteMsg := rest, phase := .taken msg }
    | _, _ => p
  | .record =>
    match p.phase with
    | .taken msg => { p with remoteUfrag := msg.ufrag, phase := .connecting msg }
    | _ => p
  | .connected =>
    match p.phase with
    | .connecting _ => { p with phase := .connected }
    | _ => p
  | .connectFailed =>
    match p.phase with
    | .connecting _ => { p with phase := .ended, restartOnce := p.restartOnce || p.offerer }
    | _ => p

/-- A step of `run`, by what it does to the credentials. -/
inductive RunMove (p : ICEPeer) : RunEvent → ICEPeer → Prop
  | take {msg : FafIceMsg} {rest : List FafIceMsg} (hphase : p.phase = .waiting)
      (hqueue : p.remoteMsg = msg :: rest) :
      RunMove p .take { p with remoteMsg := rest, phase := .taken msg }
  | record {msg : FafIceMsg} (hphase : p.phase = .taken msg) :
      RunMove p .record { p with remoteUfrag := msg.ufrag, phase := .connecting msg }
  | other {ev : RunEvent} {p' : ICEPeer} (hufrag : p'.remoteUfrag = p.remoteUfrag)
      (htaken : ∀ msg, p'.phase = .taken msg → p.phase = .taken msg)
      (hearly : p'.phase.early = true → p.phase.early = true)
      (htake : ev = .take → p.phase = .waiting → p.remoteMsg = []) : RunMove p ev p'

theorem runMove_advance (p : ICEPeer) (ev : RunEvent) : RunMove p ev (p.advance ev) := by
  cases ev with
  | take =>
    unfold advance
    cases hphase : p.phase with
    | waiting =>
      cases hqueue : p.remoteMsg with
      | nil => exact .other rfl (fun _ => id) id fun _ _ => hqueue
      | cons msg rest => exact .take hphase hqueue
    | _ => exact .other rfl (fun _ => id) id fun _ hwait => absurd (hphase.symm.trans hwait) nofun
  | record =>
    unfold advance
    cases hphase : p.phase with
    | taken msg => exact .record hphase
    | _ => exact .other rfl (fun _ => id) id nofun
  | gathered =>
    unfold advance
    cases hphase : p.phase with
    | gathering => exact .other rfl (by simp) (fun _ => by rw [hphase]; rfl) nofun
    | _ => exact .other rfl (fun _ => id) id nofun
  | noCredentials =>
    unfold advance
    cases hphase : p.phase with
    | gathering => exact .other rfl (by simp) (by simp [RunPhase.early]) nofun
    | _ => exact .other rfl (fun _ => id) id nofun
  | connected | connectFailed =>
    unfold advance
    cases hphase : p.phase with
    | connecting msg => exact .other rfl (by simp) (by simp [RunPhase.early]) nofun
    | _ => exact .other rfl (fun _ => id) id nofun

/-- The failed connect of an offerer starts a restart, the first time. -/
def restartsOn (p : ICEPeer) : RunEvent → Bool
  | .connectFailed =>
    match p.phase with
    | .connecting _ => p.offerer && !p.restartOnce
    | _ => false
  | _ => false

/-! ## `Close` and `run` -/

/-- Whether `run` gets to `Dial` or `Accept` after its context is cancelled. A `select` whose message
is there as well may take either; `drain` says which. -/
def reachesConnect (drain : Bool) (p : ICEPeer) : Bool :=
  match p.phase with
  | .gathering | .waiting => drain && !p.remoteMsg.isEmpty
  | .taken _ | .connecting _ => true
  | _ => false

/-- The ufrag and the channel that `run` leaves behind. -/
def finishRun (drain : Bool) (p : ICEPeer) : ICEPeer :=
  match p.phase with
  | .notStarted => p
  | .taken msg => { p with remoteUfrag := msg.ufrag, phase := .ended }
  | .gathering | .waiting =>
    match drain, p.remoteMsg with
    | true, msg :: rest => { p with remoteUfrag := msg.ufrag, remoteMsg := rest, phase := .ended }
    | _, _ => { p with phase := .ended }
  | _ => { p with phase := .ended }

/-- `Dial` with a cancelled context returns an error, and the error of an offerer starts a restart. -/
def restartsOnClose (drain : Bool) (p : ICEPeer) : Bool :=
  p.offerer && !p.restartOnce && p.reachesConnect drain

/-- What `Close` does to the peer, up to its socket: `run` has ended when it returns, and a failed answerer
that is still waiting gives up. A peer that has not been started has no context. -/
def shutdown (drain : Bool) (p : ICEPeer) : ICEPeer :=
  { p.finishRun drain with
    restartOnce := p.restartOnce || p.restartsOnClose drain
    delay := if p.delay = .waiting then .idle else p.delay
    cancelled := p.cancelled || decide (p.phase ≠ .notStarted) }

@[simp] theorem shutdown_conn (drain : Bool) (p : ICEPeer) : (p.shutdown drain).conn = p.conn := by
  unfold shutdown finishRun
  repeat' split
  all_goals rfl

@[simp] theorem shutdown_ownsConn (drain : Bool) (p : ICEPeer) :
    (p.shutdown drain).ownsConn = p.ownsConn := by
  unfold shutdown finishRun
  repeat' split
  all_goals rfl

/-! ## `HandleIceMsg` -/

/-- The message carries other credentials than the ones in use. -/
def isRestart (msg : FafIceMsg) (p : ICEPeer) : Bool :=
  p.remoteUfrag ≠ "" && msg.ufrag ≠ p.remoteUfrag

/-- Where a push stands: at its `select`, at the inner `select` that drops the oldest message, or at
the send that may block. -/
inductive PushPhase
  | select
  | drop
  | send
  deriving DecidableEq, Repr

/-- One step of a push; `none` means that it has returned. -/
def push (msg : FafIceMsg) (p : ICEPeer) : PushPhase → ICEPeer × Option PushPhase
  | .select =>
    if p.remoteMsg.length < remoteMsgCap then ({ p with remoteMsg := p.remoteMsg ++ [msg] }, none)
    else (p, some .drop)
  | .drop => ({ p with remoteMsg := p.remoteMsg.tail }, some .send)
  | .send =>
    if p.remoteMsg.length < remoteMsgCap then ({ p with remoteMsg := p.remoteMsg ++ [msg] }, none)
    else (p, some .send)

end ICEPeer
end Adapter
end SturmRelay
