import Mathlib.Algebra.Order.Ring.Nat
import SturmRelay.Foundations.Heap
import SturmRelay.Foundations.Runs

/-! # The transport to the relay

`internal/adapter/relayconn.go` and `adapter.go`: who opens, stores, uses and closes the TCP connection
of a `RelayConnection`. Four goroutines take part: `probeAndSetupTransport` decides between UDP and TCP,
`ReceiveLoop` reads and reconnects, any number of callers send, and `Run` closes everything when the
context is cancelled. Each phase below is a point between two accesses to what they share.

What the network answers comes with the event: `ok` says whether the probe, the dial or the read went
well. A dial may still succeed after the context has been cancelled, since the two race. The frames
themselves, the deadlines and the hello packets are left out. -/

namespace SturmRelay
namespace Adapter
set_option autoImplicit false

abbrev TCPConnID := ℕ

/-- The settings that `probeAndSetupTransport` looks at. -/
inductive TransportMode
  | official
  | forceTCP
  | tcpFallback
  | plainUDP
  deriving DecidableEq, Repr

inductive TransportSetup
  | probing
  | switching
  | dialed (c : TCPConnID)
  | marking
  | done
  deriving DecidableEq, Repr

inductive ReceivePhase
  | waiting
  | udp
  | capturing
  | reading (c : TCPConnID)
  | lost
  | closing (old : Option TCPConnID)
  | dialing (attempt backoff : ℕ)
  | dialed (c : TCPConnID)
  | sleeping (attempt backoff : ℕ)
  | returned
  | crashed
  deriving DecidableEq, Repr

/-- `Close`: `tc` is the connection it has found. -/
inductive ClosePhase
  | running
  | found (tc : Option TCPConnID)
  | closed (tc : Option TCPConnID)
  deriving DecidableEq, Repr

structure Transport where
  useTCP : Bool := false
  tcpConn : Option TCPConnID := none
  transportReady : Bool := false
  cancelled : Bool := false
  setup : TransportSetup
  loop : ReceivePhase := .waiting
  close : ClosePhase := .running
  /-- How often each connection has been closed. -/
  conns : Heap ℕ := ⟨0, fun _ => 0⟩

/-- `giveUp` takes the `ctx.Done()` branch of a select. -/
inductive TransportEvent
  | cancel
  | setup (ok : Bool)
  | setupGivesUp
  | loop (ok : Bool)
  | loopGivesUp
  | close
  | send
  deriving DecidableEq, Repr

/-- What a `Send` is written to. -/
inductive SentOver
  | nothing
  | udp
  | tcp (c : TCPConnID)
  | crashed
  deriving DecidableEq, Repr

namespace Transport

def start : TransportMode → Transport
  | .official => { setup := .done, transportReady := true }
  | .forceTCP => { setup := .switching }
  | .tcpFallback => { setup := .probing }
  | .plainUDP => { setup := .marking }

/-- A new connection, not stored anywhere yet. -/
def dial (s : Transport) : Transport := { s with conns := s.conns.alloc 0 }

def closeConn (c : Option TCPConnID) (s : Transport) : Transport :=
  match c with
  | none => s
  | some c => { s with conns := s.conns.modify c (· + 1) }

/-- `probeAndSetupTransport` with `SwitchToTCP`. -/
def setupStep (ok : Bool) (s : Transport) : Transport :=
  match s.setup with
  | .probing => { s with setup := if ok then .marking else .switching }
  | .switching =>
    if ok then { s.dial with setup := .dialed s.conns.next } else { s with setup := .marking }
  | .dialed c => { s with tcpConn := some c, useTCP := true, setup := .marking }
  | .marking => { s with transportReady := true, setup := .done }
  | .done => s

def maxBackoff : ℕ := 30

/-- `ReceiveLoop` with `receiveTCP` and `reconnectTCP`. -/
def loopStep (ok : Bool) (s : Transport) : Transport :=
  match s.loop with
  | .waiting =>
    if s.transportReady then { s with loop := if s.useTCP then .capturing else .udp } else s
  | .udp => if ok = false ∧ s.cancelled then { s with loop := .returned } else s
  | .capturing =>
    if s.cancelled then { s with loop := .returned }
    else
      match s.tcpConn with
      | some c => { s with loop := .reading c }
      | none => { s with loop := .crashed }
  | .reading c =>
    if s.cancelled then { s with loop := .returned }
    else { s with loop := if ok then .reading c else .lost }
  | .lost => { s with loop := .closing s.tcpConn }
  | .closing old => { s.closeConn old with loop := .dialing 1 2 }
  | .dialing attempt backoff =>
    if ok then { s.dial with loop := .dialed s.conns.next }
    else if s.cancelled then { s with loop := .returned }
    else { s with loop := .sleeping attempt backoff }
  | .dialed c => { s with tcpConn := some c, loop := .capturing }
  | .sleeping attempt backoff =>
    { s with loop := .dialing (attempt + 1) (min (2 * backoff) maxBackoff) }
  | .returned => s
  | .crashed => s

/-- The selects of `ReceiveLoop` and of `reconnectTCP`. -/
def loopGivesUp (s : Transport) : Transport :=
  match s.loop with
  | .waiting => { s with loop := .returned }
  | .sleeping _ _ => { s with loop := .returned }
  | _ => s

/-- `Run` closes the connection after the context is cancelled. -/
def closeStep (s : Transport) : Transport :=
  match s.close with
  | .running => if s.cancelled then { s with close := .found s.tcpConn } else s
  | .found tc => { s.closeConn tc with close := .closed tc }
  | .closed _ => s

def sendOver (s : Transport) : SentOver :=
  if s.useTCP then
    match s.tcpConn with
    | some c => .tcp c
    | none => .crashed
  else .udp

def step (s : Transport) : TransportEvent → Transport × SentOver
  | .cancel => ({ s with cancelled := true }, .nothing)
  | .setup ok => (s.setupStep ok, .nothing)
  | .setupGivesUp =>
    (if s.cancelled ∧ s.setup = .probing then { s with setup := .marking } else s, .nothing)
  | .loop ok => (s.loopStep ok, .nothing)
  | .loopGivesUp => (if s.cancelled then s.loopGivesUp else s, .nothing)
  | .close => (s.closeStep, .nothing)
  | .send => (s, s.sendOver)

/-! ## Open connections -/

def IsOpen (s : Transport) (c : ℕ) : Prop := c < s.conns.next ∧ s.conns.cell c = 0

instance (s : Transport) (c : ℕ) : Decidable (IsOpen s c) := inferInstanceAs (Decidable (_ ∧ _))

/-- Every connection has been closed. -/
def AllClosed (s : Transport) : Prop := ∀ c, ¬ s.IsOpen c

/-- `c` is the newest connection, and every other one has been closed. -/
def Newest (s : Transport) (c : ℕ) : Prop :=
  s.conns.next = c + 1 ∧ ∀ k, s.IsOpen k → k = c

section Conns
variable {s s' : Transport} {c k : ℕ}

theorem isOpen_congr (h : s'.conns = s.conns) : s'.IsOpen k ↔ s.IsOpen k := by
  unfold IsOpen
  rw [h]

/-- Closing a connection leaves the others as they are. -/
theorem isOpen_modify (h : s'.conns = s.conns.modify c (· + 1)) :
    s'.IsOpen k ↔ s.IsOpen k ∧ k ≠ c := by
  unfold IsOpen
  rw [h]
  by_cases hk : k = c
  · subst hk
    rw [Heap.modify_cell_self]
    simp
  · rw [Heap.modify_cell_ne _ _ hk]
    exact ⟨fun ho => ⟨ho, hk⟩, fun ho => ho.1⟩

theorem isOpen_alloc (h : s'.conns = s.conns.alloc 0) :
    s'.IsOpen k ↔ s.IsOpen k ∨ k = s.conns.next := by
  unfold IsOpen
  rw [h]
  have hnext : (s.conns.alloc 0).next = s.conns.next + 1 := rfl
  rw [hnext]
  by_cases hk : k = s.conns.next
  · subst hk
    rw [Heap.alloc_cell_self]
    simp
  · constructor
    · rintro ⟨hlt, hzero⟩
      have hlt' : k < s.conns.next := by omega
      rw [Heap.alloc_cell_of_lt _ _ hlt'] at hzero
      exact Or.inl ⟨hlt', hzero⟩
    · rintro (⟨hlt, hzero⟩ | he)
      · rw [Heap.alloc_cell_of_lt _ _ hlt]
        exact ⟨by omega, hzero⟩
      · exact absurd he hk

theorem Newest.modify (h : s.Newest c) (hconns : s'.conns = s.conns.modify k (· + 1)) :
    s'.Newest c := by
  refine ⟨?_, fun j hj => h.2 j ((isOpen_modify hconns).mp hj).1⟩
  rw [hconns]
  exact h.1

/-- With the newest one closed, all are. -/
theorem Newest.allClosed_modify (h : s.Newest c) (hconns : s'.conns = s.conns.modify c (· + 1)) :
    s'.AllClosed := by
  intro j hj
  obtain ⟨hopen, hne⟩ := (isOpen_modify hconns).mp hj
  exact hne (h.2 j hopen)

/-- A dial when nothing is open makes the new connection the only open one. -/
theorem AllClosed.alloc (h : s.AllClosed) (hconns : s'.conns = s.conns.alloc 0) :
    s'.Newest s.conns.next ∧ s'.IsOpen s.conns.next := by
  refine ⟨⟨?_, fun j hj => ?_⟩, (isOpen_alloc hconns).mpr (Or.inr rfl)⟩
  · rw [hconns]
    rfl
  · rcases (isOpen_alloc hconns).mp hj with hopen | he
    · exact absurd hopen (h j)
    · exact he

theorem allClosed_of_next (h : s.conns.next = 0) : s.AllClosed := by
  rintro j ⟨hlt, -⟩
  omega

end Conns

/-! ## The invariant -/

/-- What `probeAndSetupTransport` has done so far: no connection while it is undecided, and the transport
is settled when it is marked ready. -/
def SetupSound (s : Transport) : Prop :=
  match s.setup with
  | .probing | .switching =>
    s.useTCP = false ∧ s.tcpConn = none ∧ s.conns.next = 0 ∧ s.transportReady = false
  | .dialed c =>
    s.useTCP = false ∧ s.tcpConn = none ∧ s.transportReady = false ∧ s.Newest c ∧ s.IsOpen c
  | .marking => s.useTCP = s.tcpConn.isSome ∧ s.transportReady = false
  | .done => s.useTCP = s.tcpConn.isSome

/-- The stored connection is the newest. -/
def Stored (s : Transport) : Prop := ∃ c, s.tcpConn = some c ∧ s.Newest c

/-- Everything is closed, and the wait before the next dial doubles up to its limit. -/
def Retrying (s : Transport) (attempt backoff : ℕ) : Prop :=
  s.Stored ∧ s.AllClosed ∧ 1 ≤ attempt ∧ backoff = min (2 ^ attempt) maxBackoff

/-- Where the loop stands, what it holds is what is stored. -/
def LoopSound (s : Transport) : Prop :=
  match s.loop with
  | .waiting => True
  | .udp => s.useTCP = false ∧ s.transportReady = true
  | .capturing => s.Stored ∧ s.transportReady = true
  | .reading c => s.Stored ∧ s.transportReady = true ∧ s.tcpConn = some c
  | .lost => s.Stored ∧ s.transportReady = true
  | .closing old => s.Stored ∧ s.transportReady = true ∧ old = s.tcpConn
  | .dialing attempt backoff => s.Retrying attempt backoff ∧ s.transportReady = true
  | .sleeping attempt backoff => s.Retrying attempt backoff ∧ s.transportReady = true
  | .dialed k =>
    (∃ c : ℕ, s.tcpConn = some c ∧ c < k) ∧ s.transportReady = true ∧ s.Newest k ∧ s.IsOpen k
  | .returned => True
  | .crashed => False

/-- Phases after which the loop does not close anything any more once the context is cancelled. -/
def Leaving : ReceivePhase → Prop
  | .waiting | .udp | .capturing | .returned => True
  | _ => False

/-- `Close` has found a connection that is or was stored; if another one is stored by now, that one is
open and stays so. -/
def Found (s : Transport) (tc : Option TCPConnID) : Prop :=
  s.cancelled = true ∧
  (∀ c' : ℕ, tc = some c' → ∃ c : ℕ, s.tcpConn = some c ∧ c' ≤ c) ∧
  (tc ≠ s.tcpConn → Leaving s.loop ∧ ∃ c, s.tcpConn = some c ∧ s.IsOpen c)

def CloseSound (s : Transport) : Prop :=
  match s.close with
  | .running => True
  | .found tc => s.Found tc
  | .closed tc => s.Found tc ∧ ∀ c, tc = some c → ¬ s.IsOpen c

structure Sound (s : Transport) : Prop where
  setup : SetupSound s
  loop : LoopSound s
  close : CloseSound s
  ready : s.transportReady = true → s.setup = .done
  /-- Between dials the stored connection is the newest, and without one there is none. -/
  newest : ∀ c, s.tcpConn = some c → (∀ k, s.loop ≠ .dialed k) → s.Newest c
  fresh : s.tcpConn = none → (∀ k, s.setup ≠ .dialed k) → s.conns.next = 0

theorem sound_start (mode : TransportMode) : Sound (start mode) := by
  cases mode with
  | official => exact ⟨rfl, trivial, trivial, fun _ => rfl, fun c h => (by cases h), fun _ _ => rfl⟩
  | forceTCP =>
    exact ⟨⟨rfl, rfl, rfl, rfl⟩, trivial, trivial, fun h => (by cases h), fun c h => (by cases h),
      fun _ _ => rfl⟩
  | tcpFallback =>
    exact ⟨⟨rfl, rfl, rfl, rfl⟩, trivial, trivial, fun h => (by cases h), fun c h => (by cases h),
      fun _ _ => rfl⟩
  | plainUDP =>
    exact ⟨⟨rfl, rfl⟩, trivial, trivial, fun h => (by cases h), fun c h => (by cases h),
      fun _ _ => rfl⟩

/-! ### What `Close` has found -/

section Found
variable {s s' : Transport}

/-- A step that keeps the stored connection, does not bring the loop back and closes nothing that
`Close` has missed. -/
theorem CloseSound.mono (h : CloseSound s) (hclose : s'.close = s.close)
    (hcancelled : s'.cancelled = s.cancelled) (hconn : s'.tcpConn = s.tcpConn)
    (hloop : s.cancelled = true → Leaving s.loop → Leaving s'.loop)
    (hopen : ∀ c, Leaving s.loop → s.IsOpen c → s'.IsOpen c)
    (hclosed : ∀ c k : ℕ, s.tcpConn = some c → k ≤ c → s'.IsOpen k → s.IsOpen k) :
    CloseSound s' := by
  have hfound : ∀ tc, s.Found tc → s'.Found tc := by
    rintro tc ⟨hc, hold, hover⟩
    refine ⟨hcancelled.trans hc, fun c' hc' => ?_, fun hne => ?_⟩
    · rw [hconn]
      exact hold c' hc'
    · rw [hconn] at hne
      obtain ⟨hleaving, c, hstored, hc'⟩ := hover hne
      exact ⟨hloop hc hleaving, c, hconn.trans hstored, hopen c hleaving hc'⟩
  unfold CloseSound at h ⊢
  rw [hclose]
  cases hcl : s.close with
  | running => trivial
  | found tc =>
    rw [hcl] at h
    exact hfound tc h
  | closed tc =>
    rw [hcl] at h
    refine ⟨hfound tc h.1, fun c' hc' hopen' => ?_⟩
    obtain ⟨c, hstored, hle⟩ := h.1.2.1 c' hc'
    exact h.2 c' hc' (hclosed c c' hstored hle hopen')

/-- A new connection is stored while `Close` may be on its way: it stays open. -/
theorem CloseSound.install {c : ℕ} (h : CloseSound s) (hclose : s'.close = s.close)
    (hcancelled : s'.cancelled = s.cancelled) (hconns : s'.conns = s.conns)
    (hstored : s'.tcpConn = some c) (hopen : s.IsOpen c) (hloop : Leaving s'.loop)
    (hlater : ∀ c' : ℕ, s.tcpConn = some c' → c' < c) : CloseSound s' := by
  have hfound : ∀ tc, s.Found tc → s'.Found tc := by
    rintro tc ⟨hc, hold, -⟩
    refine ⟨hcancelled.trans hc, fun c' hc' => ?_,
      fun _ => ⟨hloop, c, hstored, (isOpen_congr hconns).mpr hopen⟩⟩
    obtain ⟨c₀, hc₀, hle⟩ := hold c' hc'
    have hlt := hlater c₀ hc₀
    exact ⟨c, hstored, by omega⟩
  unfold CloseSound at h ⊢
  rw [hclose]
  cases hcl : s.close with
  | running => trivial
  | found tc =>
    rw [hcl] at h
    exact hfound tc h
  | closed tc =>
    rw [hcl] at h
    exact ⟨hfound tc h.1, fun c' hc' hopen' => h.2 c' hc' ((isOpen_congr hconns).mp hopen')⟩

end Found

/-! ### The steps -/

section Steps
variable {s : Transport}

/-- Before the transport is marked ready the loop waits, or has given up waiting. -/
theorem Sound.loop_of_unready (h : Sound s) (hr : s.transportReady = false) :
    s.loop = .waiting ∨ s.loop = .returned := by
  have hloop := h.loop
  unfold LoopSound at hloop
  cases hl : s.loop with
  | waiting => exact Or.inl rfl
  | returned => exact Or.inr rfl
  | crashed => simp [hl] at hloop
  | _ => simp [hl, hr] at hloop

theorem LoopSound.of_idle (hidle : s.loop = .waiting ∨ s.loop = .returned) : LoopSound s := by
  unfold LoopSound
  rcases hidle with hl | hl <;> rw [hl] <;> trivial

theorem leaving_of_idle (hidle : s.loop = .waiting ∨ s.loop = .returned) : Leaving s.loop := by
  rcases hidle with hl | hl <;> rw [hl] <;> trivial

theorem Sound.setupStep (h : Sound s) (ok : Bool) : Sound (s.setupStep ok) := by
  have hsetup := h.setup
  unfold SetupSound at hsetup
  unfold Transport.setupStep
  cases hs : s.setup with
  | probing =>
    simp only [hs] at hsetup
    obtain ⟨huse, hconn, hnext, hready⟩ := hsetup
    have hidle := h.loop_of_unready hready
    refine ⟨?_, LoopSound.of_idle hidle, h.close, fun hr => ?_, h.newest, fun _ _ => hnext⟩
    · cases ok
      · exact ⟨huse, hconn, hnext, hready⟩
      · exact ⟨by simp [huse, hconn], hready⟩
    · exact absurd (hready.symm.trans hr) (by decide)
  | switching =>
    simp only [hs] at hsetup
    obtain ⟨huse, hconn, hnext, hready⟩ := hsetup
    have hidle := h.loop_of_unready hready
    cases ok with
    | false =>
      refine ⟨⟨?_, hready⟩, LoopSound.of_idle hidle, h.close, fun hr => ?_, h.newest, fun _ _ => hnext⟩
      · simp [huse, hconn]
      · exact absurd (hready.symm.trans hr) (by decide)
    | true =>
      have hconns : s.dial.conns = s.conns.alloc 0 := rfl
      obtain ⟨hnewest, hopen⟩ := (allClosed_of_next hnext).alloc hconns
      refine ⟨⟨huse, hconn, hready, hnewest, hopen⟩, LoopSound.of_idle hidle, ?_, fun hr => ?_,
        fun c hc => ?_, fun _ hk => absurd rfl (hk s.conns.next)⟩
      · refine h.close.mono rfl rfl rfl (fun _ hl => hl) (fun c _ hc => ?_) (fun c k hc => ?_)
        · exact (isOpen_alloc hconns).mpr (Or.inl hc)
        · exact absurd (hconn.symm.trans hc) (by simp)
      · exact absurd (hready.symm.trans hr) (by decide)
      · exact absurd (hconn.symm.trans hc) (by simp)
  | dialed c =>
    simp only [hs] at hsetup
    obtain ⟨huse, hconn, hready, hnewest, hopen⟩ := hsetup
    have hidle := h.loop_of_unready hready
    refine ⟨⟨rfl, hready⟩, LoopSound.of_idle hidle, ?_, fun hr => ?_, fun c' hc' _ => ?_,
      fun hc' => by cases hc'⟩
    · refine h.close.install rfl rfl rfl rfl hopen (leaving_of_idle hidle) (fun c' hc' => ?_)
      exact absurd (hconn.symm.trans hc') (by simp)
    · exact absurd (hready.symm.trans hr) (by decide)
    · cases hc'
      exact hnewest
  | marking =>
    simp only [hs] at hsetup
    obtain ⟨huse, hready⟩ := hsetup
    have hidle := h.loop_of_unready hready
    refine ⟨huse, LoopSound.of_idle hidle, h.close, fun _ => rfl, h.newest, fun hc _ => ?_⟩
    exact h.fresh hc (fun k hk => by rw [hs] at hk; cases hk)
  | done => exact h

/-- A step of the loop that only moves it on. -/
theorem Sound.setLoop (h : Sound s) (p : ReceivePhase) (hp : LoopSound { s with loop := p })
    (hleaving : s.cancelled = true → Leaving s.loop → Leaving p)
    (hdialed : ∀ k, s.loop ≠ .dialed k) : Sound { s with loop := p } where
  setup := h.setup
  loop := hp
  close := h.close.mono rfl rfl rfl hleaving (fun _ _ hc => hc) (fun _ _ _ _ hk => hk)
  ready := h.ready
  newest c hc _ := h.newest c hc hdialed
  fresh := h.fresh

/-- Once the transport is ready, a connection is stored exactly when TCP is used. -/
theorem Sound.useTCP_of_ready (h : Sound s) (hr : s.transportReady = true) :
    s.useTCP = s.tcpConn.isSome := by
  have hsetup := h.setup
  unfold SetupSound at hsetup
  rw [h.ready hr] at hsetup
  exact hsetup

theorem Sound.setup_of_ready {s' : Transport} (h : Sound s) (hr : s.transportReady = true)
    (hsetup : s'.setup = s.setup) (huse : s'.useTCP = s'.tcpConn.isSome) : SetupSound s' := by
  unfold SetupSound
  rw [hsetup, h.ready hr]
  exact huse

theorem Sound.stored_of_useTCP (h : Sound s) (hr : s.transportReady = true) (ht : s.useTCP = true)
    (hdialed : ∀ k, s.loop ≠ .dialed k) : s.Stored := by
  have hsome : s.tcpConn.isSome = true := (h.useTCP_of_ready hr).symm.trans ht
  obtain ⟨c, hc⟩ := Option.isSome_iff_exists.mp hsome
  exact ⟨c, hc, h.newest c hc hdialed⟩

theorem Retrying.next {attempt backoff : ℕ} (h : s.Retrying attempt backoff) :
    s.Retrying (attempt + 1) (min (2 * backoff) maxBackoff) := by
  obtain ⟨hstored, hclosed, hattempt, rfl⟩ := h
  refine ⟨hstored, hclosed, by omega, ?_⟩
  rw [Nat.pow_succ]
  omega

/-- The loop closes the stored connection before it dials. -/
theorem Sound.loopClose (h : Sound s) {old : Option TCPConnID} (hl : s.loop = .closing old) :
    Sound { s.closeConn old with loop := .dialing 1 2 } := by
  have hloop := h.loop
  unfold LoopSound at hloop
  simp only [hl] at hloop
  obtain ⟨⟨c, hc, hnewest⟩, hr, rfl⟩ := hloop
  rw [hc]
  set s' := { s.closeConn (some c) with loop := ReceivePhase.dialing 1 2 } with hs'
  have hconns : s'.conns = s.conns.modify c (· + 1) := rfl
  have hnewest' : s'.Newest c := hnewest.modify hconns
  refine ⟨h.setup_of_ready hr rfl (h.useTCP_of_ready hr), ⟨⟨⟨c, hc, hnewest'⟩, ?_⟩, hr⟩, ?_, h.ready,
    fun c' hc' _ => ?_, fun hc' => ?_⟩
  · exact ⟨hnewest.allClosed_modify hconns, Nat.le_refl 1, by decide⟩
  · exact h.close.mono rfl rfl rfl (by simp [hl, Leaving]) (by simp [hl, Leaving])
      fun _ k _ _ hk => ((isOpen_modify hconns).mp hk).1
  · cases hc.symm.trans hc'
    exact hnewest'
  · exact absurd (hc.symm.trans hc') (by simp)

/-- A dial of the loop finds everything closed. -/
theorem Sound.loopDial (h : Sound s) {attempt backoff : ℕ} (hl : s.loop = .dialing attempt backoff) :
    Sound { s.dial with loop := .dialed s.conns.next } := by
  have hloop := h.loop
  unfold LoopSound at hloop
  simp only [hl] at hloop
  obtain ⟨⟨⟨c, hc, hnewest⟩, hclosed, -⟩, hr⟩ := hloop
  set s' := { s.dial with loop := ReceivePhase.dialed s.conns.next } with hs'
  have hconns : s'.conns = s.conns.alloc 0 := rfl
  have hlt : c < s.conns.next := hnewest.1 ▸ Nat.lt_succ_self c
  obtain ⟨hnewest', hopen'⟩ := hclosed.alloc hconns
  refine ⟨h.setup_of_ready hr rfl (h.useTCP_of_ready hr), ⟨⟨c, hc, hlt⟩, hr, hnewest', hopen'⟩, ?_,
    h.ready, fun c' _ hk => absurd rfl (hk s.conns.next), fun hc' => ?_⟩
  · refine h.close.mono rfl rfl rfl (by simp [hl, Leaving]) (by simp [hl, Leaving])
      fun c' k hc' hle hk => ?_
    cases hc.symm.trans hc'
    rcases (isOpen_alloc hconns).mp hk with hopen | he
    · exact hopen
    · exact absurd (he ▸ hle) (Nat.not_le_of_lt hlt)
  · exact absurd (hc.symm.trans hc') (by simp)

/-- The new connection takes the place of the old one. -/
theorem Sound.loopInstall (h : Sound s) {k : ℕ} (hl : s.loop = .dialed k) :
    Sound { s with tcpConn := some k, loop := .capturing } := by
  have hloop := h.loop
  unfold LoopSound at hloop
  simp only [hl] at hloop
  obtain ⟨⟨c, hc, hlt⟩, hr, hnewest, hopen⟩ := hloop
  have huse : s.useTCP = true := by
    rw [h.useTCP_of_ready hr, hc]
    rfl
  refine ⟨h.setup_of_ready hr rfl huse, ⟨⟨k, rfl, hnewest⟩, hr⟩, ?_, h.ready, fun c' hc' _ => ?_,
    fun hc' => by cases hc'⟩
  · refine h.close.install rfl rfl rfl rfl hopen trivial fun c' hc' => ?_
    cases hc.symm.trans hc'
    exact hlt
  · cases hc'
    exact hnewest

theorem Sound.loopStep (h : Sound s) (ok : Bool) : Sound (s.loopStep ok) := by
  have hloop := h.loop
  unfold LoopSound at hloop
  unfold Transport.loopStep
  cases hl : s.loop with
  | waiting =>
    have hdialed : ∀ k, s.loop ≠ .dialed k := by simp [hl]
    dsimp only
    by_cases hr : s.transportReady = true
    · rw [if_pos hr]
      by_cases ht : s.useTCP = true
      · rw [if_pos ht]
        exact h.setLoop .capturing ⟨h.stored_of_useTCP hr ht hdialed, hr⟩ (fun _ _ => trivial) hdialed
      · rw [if_neg ht]
        exact h.setLoop .udp ⟨eq_false_of_ne_true ht, hr⟩ (fun _ _ => trivial) hdialed
    · rw [if_neg hr]
      exact h
  | udp =>
    dsimp only
    split
    · exact h.setLoop .returned trivial (fun _ _ => trivial) (by simp [hl])
    · exact h
  | capturing =>
    simp only [hl] at hloop
    obtain ⟨⟨c, hc, hnewest⟩, hr⟩ := hloop
    dsimp only
    split
    · exact h.setLoop .returned trivial (fun _ _ => trivial) (by simp [hl])
    · rename_i hcancelled
      have hreading := h.setLoop (.reading c) ⟨⟨c, hc, hnewest⟩, hr, hc⟩
        (fun hx => absurd hx hcancelled) (by simp [hl])
      split
      · rename_i c' hc'
        cases hc.symm.trans hc'
        exact hreading
      · rename_i hnone
        exact absurd (hc.symm.trans hnone) (by simp)
  | reading c =>
    simp only [hl] at hloop
    obtain ⟨hstored, hr, hc⟩ := hloop
    dsimp only
    split
    · exact h.setLoop .returned trivial (fun _ _ => trivial) (by simp [hl])
    · cases ok with
      | false => exact h.setLoop .lost ⟨hstored, hr⟩ (by simp [hl, Leaving]) (by simp [hl])
      | true => exact h.setLoop (.reading c) ⟨hstored, hr, hc⟩ (by simp [hl, Leaving]) (by simp [hl])
  | lost =>
    simp only [hl] at hloop
    exact h.setLoop (.closing s.tcpConn) ⟨hloop.1, hloop.2, rfl⟩ (by simp [hl, Leaving]) (by simp [hl])
  | closing old => exact h.loopClose hl
  | dialing attempt backoff =>
    simp only [hl] at hloop
    cases ok with
    | true => exact h.loopDial hl
    | false =>
      simp only [Bool.false_eq_true, if_false]
      split
      · exact h.setLoop .returned trivial (fun _ _ => trivial) (by simp [hl])
      · exact h.setLoop (.sleeping attempt backoff) hloop (by simp [hl, Leaving]) (by simp [hl])
  | dialed k => exact h.loopInstall hl
  | sleeping attempt backoff =>
    simp only [hl] at hloop
    exact h.setLoop (.dialing (attempt + 1) _) ⟨hloop.1.next, hloop.2⟩ (by simp [hl, Leaving])
      (by simp [hl])
  | returned => exact h
  | crashed => exact h

theorem Sound.loopGivesUp (h : Sound s) : Sound s.loopGivesUp := by
  unfold Transport.loopGivesUp
  cases hl : s.loop with
  | waiting => exact h.setLoop .returned trivial (fun _ _ => trivial) (by simp [hl])
  | sleeping attempt backoff => exact h.setLoop .returned trivial (fun _ _ => trivial) (by simp [hl])
  | _ => exact h

/-- What the loop holds survives the closing of a connection that is not newer than the stored one. -/
theorem LoopSound.modify {c c' : ℕ} (h : LoopSound s) (hc : s.tcpConn = some c) (hle : c' ≤ c)
    (p : ClosePhase) : LoopSound { s with close := p, conns := s.conns.modify c' (· + 1) } := by
  set s' : Transport := { s with close := p, conns := s.conns.modify c' (· + 1) } with hs'
  have hconns : s'.conns = s.conns.modify c' (· + 1) := rfl
  have hconn : s'.tcpConn = s.tcpConn := rfl
  have hstored : s.Stored → s'.Stored := by
    rintro ⟨k, hk, hnewest⟩
    exact ⟨k, hconn.trans hk, hnewest.modify hconns⟩
  have hretrying : ∀ attempt backoff, s.Retrying attempt backoff → s'.Retrying attempt backoff := by
    rintro attempt backoff ⟨hst, hclosed, hrest⟩
    exact ⟨hstored hst, fun k hk => hclosed k ((isOpen_modify hconns).mp hk).1, hrest⟩
  unfold LoopSound at h ⊢
  rw [show s'.loop = s.loop from rfl]
  cases hl : s.loop with
  | waiting => trivial
  | udp =>
    simp only [hl] at h
    exact h
  | capturing =>
    simp only [hl] at h
    exact ⟨hstored h.1, h.2⟩
  | reading k =>
    simp only [hl] at h
    exact ⟨hstored h.1, h.2⟩
  | lost =>
    simp only [hl] at h
    exact ⟨hstored h.1, h.2⟩
  | closing old =>
    simp only [hl] at h
    exact ⟨hstored h.1, h.2⟩
  | dialing attempt backoff =>
    simp only [hl] at h
    exact ⟨hretrying _ _ h.1, h.2⟩
  | sleeping attempt backoff =>
    simp only [hl] at h
    exact ⟨hretrying _ _ h.1, h.2⟩
  | dialed k =>
    simp only [hl] at h
    obtain ⟨⟨c₀, hc₀, hlt⟩, hr, hnewest, hopen⟩ := h
    refine ⟨⟨c₀, hc₀, hlt⟩, hr, hnewest.modify hconns, (isOpen_modify hconns).mpr ⟨hopen, ?_⟩⟩
    cases hc.symm.trans hc₀
    rintro rfl
    exact absurd hlt (Nat.not_lt_of_le hle)
  | returned => trivial
  | crashed => simp only [hl] at h

/-- `Close` closes what it has found: the stored connection, or one that a later one has replaced. -/
theorem Sound.closeFound (h : Sound s) {tc : Option TCPConnID} (hcl : s.close = .found tc) :
    Sound { s.closeConn tc with close := .closed tc } := by
  have hclose := h.close
  unfold CloseSound at hclose
  simp only [hcl] at hclose
  cases tc with
  | none => exact ⟨h.setup, h.loop, ⟨hclose, fun c hc => by cases hc⟩, h.ready, h.newest, h.fresh⟩
  | some c' =>
    obtain ⟨hcancelled, hold, hover⟩ := hclose
    obtain ⟨c, hc, hle⟩ := hold c' rfl
    set s' := { s.closeConn (some c') with close := ClosePhase.closed (some c') } with hs'
    have hconns : s'.conns = s.conns.modify c' (· + 1) := rfl
    refine ⟨?_, h.loop.modify hc hle _, ⟨⟨hcancelled, hold, fun hne => ?_⟩, fun k hk hopen => ?_⟩,
      h.ready, fun k hk hdialed => (h.newest k hk hdialed).modify hconns, fun hnone => ?_⟩
    · have hsetup := h.setup
      unfold SetupSound at hsetup ⊢
      rw [show s'.setup = s.setup from rfl]
      cases hs : s.setup with
      | marking =>
        simp only [hs] at hsetup
        exact hsetup
      | done =>
        simp only [hs] at hsetup
        exact hsetup
      | _ => simp [hs, hc] at hsetup
    · obtain ⟨hleaving, k, hk, hopen⟩ := hover hne
      refine ⟨hleaving, k, hk, (isOpen_modify hconns).mpr ⟨hopen, fun he => hne ?_⟩⟩
      rw [← he]
      exact hk.symm
    · cases hk
      exact ((isOpen_modify hconns).mp hopen).2 rfl
    · exact absurd (hc.symm.trans hnone) (by simp)

theorem Sound.closeStep (h : Sound s) : Sound s.closeStep := by
  unfold Transport.closeStep
  cases hcl : s.close with
  | running =>
    dsimp only
    split
    · rename_i hcancelled
      refine ⟨h.setup, h.loop, ⟨hcancelled, fun c hc => ⟨c, hc, Nat.le_refl c⟩, fun hne => ?_⟩, h.ready,
        h.newest, h.fresh⟩
      exact absurd rfl hne
    · exact h
  | found tc => exact h.closeFound hcl
  | closed tc => exact h

theorem Sound.cancel (h : Sound s) : Sound { s with cancelled := true } := by
  refine ⟨h.setup, h.loop, ?_, h.ready, h.newest, h.fresh⟩
  have hclose := h.close
  unfold CloseSound at hclose ⊢
  dsimp only
  cases hcl : s.close with
  | running => trivial
  | found tc =>
    simp only [hcl] at hclose
    exact ⟨rfl, hclose.2⟩
  | closed tc =>
    simp only [hcl] at hclose
    exact ⟨⟨rfl, hclose.1.2⟩, hclose.2⟩

theorem Sound.step (h : Sound s) (e : TransportEvent) : Sound (s.step e).1 := by
  cases e with
  | cancel => exact h.cancel
  | setup ok => exact h.setupStep ok
  | setupGivesUp =>
    unfold Transport.step
    dsimp only
    split
    · rename_i hprobing
      have hstep := h.setupStep true
      unfold Transport.setupStep at hstep
      rw [hprobing.2] at hstep
      exact hstep
    · exact h
  | loop ok => exact h.loopStep ok
  | loopGivesUp =>
    unfold Transport.step
    dsimp only
    split
    · exact h.loopGivesUp
    · exact h
  | close => exact h.closeStep
  | send => exact h

end Steps

theorem sound_runState (mode : TransportMode) (events : List TransportEvent) :
    Sound (runState step (start mode) events) :=
  run_invariant (I := Sound) (fun _ e h => h.step e) (sound_start mode) events

/-! ## What holds in every run -/

section Consequences
variable {s : Transport}

/-- Whatever is open is the newest connection; the stored one is at most one behind it. -/
theorem Sound.newest_of_isOpen (h : Sound s) {k : ℕ} (hk : s.IsOpen k) :
    s.Newest k ∧ ∀ c : ℕ, s.tcpConn = some c → c ≤ k := by
  cases hconn : s.tcpConn with
  | none =>
    refine ⟨?_, fun c hc => by cases hc⟩
    by_cases hdialed : ∃ c, s.setup = .dialed c
    · obtain ⟨c, hc⟩ := hdialed
      have hsetup := h.setup
      unfold SetupSound at hsetup
      simp only [hc] at hsetup
      obtain ⟨-, -, -, hnewest, -⟩ := hsetup
      rw [hnewest.2 k hk]
      exact hnewest
    · have hnext := h.fresh hconn fun c hc => hdialed ⟨c, hc⟩
      exact absurd hk (allClosed_of_next hnext k)
  | some c =>
    by_cases hdialed : ∃ k, s.loop = .dialed k
    · obtain ⟨k', hl⟩ := hdialed
      have hloop := h.loop
      unfold LoopSound at hloop
      simp only [hl] at hloop
      obtain ⟨⟨c₀, hc₀, hlt⟩, -, hnewest, -⟩ := hloop
      cases hconn.symm.trans hc₀
      rw [hnewest.2 k hk]
      refine ⟨hnewest, fun c' hc' => ?_⟩
      cases hc'
      exact Nat.le_of_lt hlt
    · have hnewest := h.newest c hconn fun k' hl => hdialed ⟨k', hl⟩
      rw [hnewest.2 k hk]
      refine ⟨hnewest, fun c' hc' => ?_⟩
      cases hc'
      exact Nat.le_refl c

theorem Sound.loop_ne_crashed (h : Sound s) : s.loop ≠ .crashed := by
  intro hl
  have hloop := h.loop
  unfold LoopSound at hloop
  simp only [hl] at hloop

/-- A sender that sees `useTCP` set finds a connection. -/
theorem Sound.tcpConn_of_useTCP (h : Sound s) (ht : s.useTCP = true) : ∃ c, s.tcpConn = some c := by
  have hsetup := h.setup
  unfold SetupSound at hsetup
  apply Option.isSome_iff_exists.mp
  cases hs : s.setup with
  | marking =>
    simp only [hs] at hsetup
    exact hsetup.1.symm.trans ht
  | done =>
    simp only [hs] at hsetup
    exact hsetup.symm.trans ht
  | _ => simp [hs, ht] at hsetup

theorem sendOver_udp (ht : s.useTCP = false) : s.sendOver = .udp := by
  unfold sendOver
  rw [ht]
  rfl

theorem sendOver_tcp {c : TCPConnID} (ht : s.useTCP = true) (hc : s.tcpConn = some c) :
    s.sendOver = .tcp c := by
  unfold sendOver
  rw [ht, hc]
  rfl

theorem Sound.sendOver_ne_crashed (h : Sound s) : s.sendOver ≠ .crashed := by
  by_cases ht : s.useTCP = true
  · obtain ⟨c, hc⟩ := h.tcpConn_of_useTCP ht
    rw [sendOver_tcp ht hc]
    simp
  · rw [sendOver_udp (eq_false_of_ne_true ht)]
    simp

theorem Sound.retrying (h : Sound s) {attempt backoff : ℕ} (hl : s.loop = .sleeping attempt backoff) :
    s.Retrying attempt backoff := by
  have hloop := h.loop
  unfold LoopSound at hloop
  simp only [hl] at hloop
  exact hloop.1

end Consequences

/-- However setup, receive loop, senders and shutdown interleave: at most one TCP connection is open, and
nothing older than the stored one; neither the loop nor a sender ever uses a connection that is not there;
and the loop waits between two dials with everything closed, for twice as long each time up to 30 s. -/
theorem one_open_connection (mode : TransportMode) (events : List TransportEvent) :
    let s := runState step (start mode) events
    (∀ c k, s.IsOpen c → s.IsOpen k → c = k) ∧
    (∀ c k : ℕ, s.tcpConn = some c → s.IsOpen k → c ≤ k) ∧
    s.loop ≠ .crashed ∧ s.sendOver ≠ .crashed ∧
    (∀ attempt backoff, s.loop = .sleeping attempt backoff →
      s.AllClosed ∧ backoff = min (2 ^ attempt) 30) := by
  intro s
  have h : Sound s := sound_runState mode events
  refine ⟨fun c k hc hk => (h.newest_of_isOpen hk).1.2 c hc,
    fun c k hc hk => (h.newest_of_isOpen hk).2 c hc, h.loop_ne_crashed, h.sendOver_ne_crashed,
    fun attempt backoff hl => ?_⟩
  obtain ⟨-, hclosed, -, hbackoff⟩ := h.retrying hl
  exact ⟨hclosed, hbackoff⟩

/-! ### Agreement on the transport -/

/-- The fields that only the setup writes. -/
def decided (s : Transport) : Bool × Bool := (s.transportReady, s.useTCP)

theorem decided_closeConn (s : Transport) (c : Option TCPConnID) : (s.closeConn c).decided = s.decided := by
  cases c <;> rfl

theorem decided_loopStep (s : Transport) (ok : Bool) : (s.loopStep ok).decided = s.decided := by
  unfold loopStep
  cases s.loop with
  | closing old => exact decided_closeConn s old
  | waiting => dsimp only; split <;> rfl
  | udp => dsimp only; split <;> rfl
  | capturing =>
    dsimp only
    split
    · rfl
    · split <;> rfl
  | reading c => dsimp only; split <;> rfl
  | dialing attempt backoff =>
    dsimp only
    split
    · rfl
    · split <;> rfl
  | _ => rfl

theorem decided_loopGivesUp (s : Transport) : s.loopGivesUp.decided = s.decided := by
  unfold loopGivesUp
  split <;> rfl

theorem decided_closeStep (s : Transport) : s.closeStep.decided = s.decided := by
  unfold closeStep
  cases s.close with
  | running => dsimp only; split <;> rfl
  | found tc => exact decided_closeConn s tc
  | closed tc => rfl

/-- Once ready, the transport is not decided again. -/
theorem Sound.decided_step {s : Transport} (h : Sound s) (hr : s.transportReady = true)
    (e : TransportEvent) : (s.step e).1.decided = s.decided := by
  have hdone := h.ready hr
  cases e with
  | cancel => rfl
  | setup ok =>
    show (s.setupStep ok).decided = s.decided
    unfold Transport.setupStep
    rw [hdone]
  | setupGivesUp =>
    have hprobing : ¬ (s.cancelled = true ∧ s.setup = .probing) := by simp [hdone]
    show (if s.cancelled = true ∧ s.setup = .probing then _ else s).decided = s.decided
    rw [if_neg hprobing]
  | loop ok => exact decided_loopStep s ok
  | loopGivesUp =>
    show (if s.cancelled = true then s.loopGivesUp else s).decided = s.decided
    split
    · exact decided_loopGivesUp s
    · rfl
  | close => exact decided_closeStep s
  | send => rfl

theorem Sound.decided_runState {s : Transport} (h : Sound s) (hr : s.transportReady = true)
    (events : List TransportEvent) : (runState Transport.step s events).decided = s.decided := by
  induction events generalizing s with
  | nil => rfl
  | cons e events ih =>
    have hstep := h.decided_step hr e
    have hr' : (s.step e).1.transportReady = true := (congrArg Prod.fst hstep).trans hr
    exact (ih (h.step e) hr').trans hstep

/-- From the moment the transport is marked ready, senders and receive loop agree on it for good: all
sends go over UDP, or all go over TCP, whichever was decided; a loop that reads UDP is met by sends over
UDP, and one that reads connection `c` by sends over `c`. -/
theorem transport_agreed (mode : TransportMode) (before after : List TransportEvent)
    (hready : (runState step (start mode) before).transportReady = true) :
    let decision := (runState step (start mode) before).useTCP
    let s := runState step (start mode) (before ++ after)
    (s.sendOver = .udp ↔ decision = false) ∧ (s.loop = .udp → decision = false) ∧
    (s.loop = .capturing → decision = true) ∧ ∀ c, s.loop = .reading c → s.sendOver = .tcp c := by
  intro decision s
  have hbefore : Sound (runState step (start mode) before) := sound_runState mode before
  have h : Sound s := sound_runState mode (before ++ after)
  have hdecided : s.decided = (runState step (start mode) before).decided := by
    show (runState step (start mode) (before ++ after)).decided = _
    rw [runState_append]
    exact hbefore.decided_runState hready after
  have huse : s.useTCP = decision := congrArg Prod.snd hdecided
  have hr : s.transportReady = true := (congrArg Prod.fst hdecided).trans hready
  have hloop := h.loop
  unfold LoopSound at hloop
  rw [← huse]
  refine ⟨⟨fun hsend => ?_, sendOver_udp⟩, fun hl => ?_, fun hl => ?_, fun c hl => ?_⟩
  · apply eq_false_of_ne_true
    intro ht
    obtain ⟨c, hc⟩ := h.tcpConn_of_useTCP ht
    rw [sendOver_tcp ht hc] at hsend
    cases hsend
  · simp only [hl] at hloop
    exact hloop.1
  · simp only [hl] at hloop
    obtain ⟨⟨c, hc, -⟩, -⟩ := hloop
    rw [h.useTCP_of_ready hr, hc]
    rfl
  · simp only [hl] at hloop
    have ht : s.useTCP = true := by
      rw [h.useTCP_of_ready hr, hloop.2.2]
      rfl
    exact sendOver_tcp ht hloop.2.2

/-- A forced TCP connection that is lost and replaced. -/
def reconnecting : List TransportEvent :=
  [.loop true, .loop true, .loop false, .loop true, .loop true, .loop false, .loop true, .loop true,
    .loop true, .loop true]

theorem reconnecting_agreed :
    let before : List TransportEvent := [.setup true, .setup true, .setup true]
    let s := runState step (start .forceTCP) (before ++ reconnecting)
    (runState step (start .forceTCP) before).transportReady = true ∧ s.loop = .reading 1 ∧
    s.sendOver = .tcp 1 :=
  ⟨rfl, rfl, (transport_agreed .forceTCP [.setup true, .setup true, .setup true] reconnecting rfl).2.2.2 1
    rfl⟩

/-! ### Shutdown -/

/-- After a shutdown, when setup and loop have ended too, what is left open is exactly a connection that was
stored after `Close` had looked: `Close` looks once, and the two that store connections do not look at
the context before they do. -/
theorem left_open_iff (mode : TransportMode) (events : List TransportEvent) (tc : Option TCPConnID)
    (hclose : (runState step (start mode) events).close = .closed tc)
    (hloop : (runState step (start mode) events).loop = .returned)
    (hsetup : (runState step (start mode) events).setup = .done) (c : TCPConnID) :
    let s := runState step (start mode) events
    s.IsOpen c ↔ s.tcpConn = some c ∧ tc ≠ some c := by
  intro s
  have h : Sound s := sound_runState mode events
  have hcs := h.close
  unfold CloseSound at hcs
  rw [show s.close = .closed tc from hclose] at hcs
  obtain ⟨⟨-, -, hover⟩, hclosed⟩ := hcs
  constructor
  · intro hopen
    refine ⟨?_, fun htc => hclosed c htc hopen⟩
    cases hconn : s.tcpConn with
    | none =>
      have hnext := h.fresh hconn fun k hk => by
        rw [show s.setup = .done from hsetup] at hk
        cases hk
      exact absurd hopen (allClosed_of_next hnext c)
    | some c' =>
      have hnewest := h.newest c' hconn fun k hk => by
        rw [show s.loop = .returned from hloop] at hk
        cases hk
      rw [hnewest.2 c hopen]
  · rintro ⟨hconn, hne⟩
    obtain ⟨-, c', hc', hopen⟩ := hover (hconn ▸ hne)
    cases hconn.symm.trans hc'
    exact hopen

/-- The setup has dialed when the context is cancelled, and stores its connection after `Close` has found
none. -/
def overtakenClose : List TransportEvent :=
  [.setup true, .cancel, .close, .setup true, .close, .setup true, .loop true, .loop true]

theorem overtakenClose_left_open :
    let s := runState step (start .forceTCP) overtakenClose
    s.close = .closed none ∧ s.loop = .returned ∧ s.setup = .done ∧ s.IsOpen 0 :=
  ⟨rfl, rfl, rfl, (left_open_iff .forceTCP overtakenClose none rfl rfl rfl 0).mpr ⟨rfl, by simp⟩⟩

end Transport
end Adapter
end SturmRelay
