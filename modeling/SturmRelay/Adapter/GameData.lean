import SturmRelay.Foundations.Bytes
import SturmRelay.Foundations.Runs
import SturmRelay.Relay.Session

/-! # Game data from ICE

`internal/adapter/icepeer.go`, `iceToGame` and the address that `gameToICE` learns for it. Data that
comes before the game has sent its first packet waits in `earlyBuf`; the first packet after that replays
it and is then forwarded itself. The receive buffer is one and the same for every `Read`: what waits is
a copy, what is being forwarded is still in the buffer.

A `Read` and the look at `gameAddr` after it are one step: `Read` does not depend on the address, so an
address learned between the two may as well have been learned before. Logging is left out, and with it
`firstDataReceived` and `unknownPrefixWarned`. -/

namespace SturmRelay
namespace Adapter
set_option autoImplicit false

def fafPrefixData : UInt8 := 0x64
def fafPrefixEcho : UInt8 := 0x65
def fafPrefixAnswerEcho : UInt8 := 0x66
def fafPrefixRTTReport : UInt8 := 0x72
def fafEchoLen : ℕ := 9
def fafRTTReportLen : ℕ := 5

def earlyBufCap : ℕ := 64
def iceBufLen : ℕ := 65537

/-- What a `Read` of the ICE connection puts in the buffer. -/
structure ICEPacket where
  bytes : Bytes
  fits : bytes.length ≤ iceBufLen

/-- Where `iceToGame` stands: at its `Read`, in the loop over `earlyBuf`, or before the write of the
packet in the buffer. `n` is what `Read` returned, `addr` the address that was found. -/
inductive ForwardPhase
  | reading
  | replaying (n : ℕ) (addr : AddrPort) (rest : List Bytes)
  | forwarding (n : ℕ) (addr : AddrPort)
  deriving DecidableEq, Repr

structure GameLink where
  offerer : Bool
  gameAddr : Option AddrPort
  buf : Bytes
  earlyBuf : List Bytes := []
  rttMs : ℤ := 0
  rttEstimated : Bool := false
  phase : ForwardPhase := .reading
  /-- Written to the game, and to the ICE connection. -/
  toGame : List (AddrPort × Bytes) := []
  toRemote : List Bytes := []

/-- `advance` is the next step of `iceToGame` after a `Read`; local writes succeed. -/
inductive LinkEvent
  | packet (p : ICEPacket) (nowMs : ℤ)
  | advance
  | gamePacket (remoteAddr : AddrPort) (data : Bytes)

namespace GameLink

/-- Arithmetic of `int64`. -/
def int64 (x : ℤ) : ℤ := Int.bmod x (2 ^ 64)

/-- The timestamp of an echo, `buf[1]` to `buf[8]`. -/
def timestamp (s : GameLink) : ℤ := int64 (beDecode ((s.buf.take fafEchoLen).drop 1))

/-- `buf[1:n]`. -/
def payload (s : GameLink) (n : ℕ) : Bytes := (s.buf.take n).drop 1

def send (bytes : Bytes) (s : GameLink) : GameLink := { s with toRemote := s.toRemote ++ [bytes] }

def receiveData (n : ℕ) (s : GameLink) : GameLink :=
  if s.payload n = [] then s
  else
    match s.gameAddr with
    | none =>
      if s.earlyBuf.length < earlyBufCap then { s with earlyBuf := s.earlyBuf ++ [s.payload n] } else s
    | some addr =>
      if 0 < s.earlyBuf.length then { s with phase := .replaying n addr s.earlyBuf }
      else { s with phase := .forwarding n addr }

def receiveEcho (n : ℕ) (nowMs : ℤ) (s : GameLink) : GameLink :=
  if n ≠ fafEchoLen then s
  else if s.offerer then
    let rtt := int64 (nowMs - s.timestamp)
    if 0 ≤ rtt ∧ rtt < 60000 then
      { s with rttMs := rtt }.send (fafPrefixRTTReport :: beEncode 4 rtt.toNat)
    else s
  else
    let oneWay := int64 (nowMs - s.timestamp)
    let s := if 0 ≤ oneWay ∧ oneWay < 30000 ∧ s.rttMs = 0 then
        { s with rttMs := oneWay * 2, rttEstimated := true }
      else s
    s.send (s.buf.take n)

def receiveAnswerEcho (n : ℕ) (nowMs : ℤ) (s : GameLink) : GameLink :=
  if n ≠ fafEchoLen then s
  else if s.offerer then s.send (s.buf.take n)
  else
    let rtt := int64 (nowMs - s.timestamp)
    if 0 ≤ rtt ∧ rtt < 60000 then { s with rttMs := rtt, rttEstimated := false } else s

def receiveRTTReport (n : ℕ) (s : GameLink) : GameLink :=
  if n = fafRTTReportLen ∧ s.offerer = false then
    let rtt : ℤ := beDecode ((s.buf.take fafRTTReportLen).drop 1)
    if 0 ≤ rtt ∧ rtt < 60000 then { s with rttMs := rtt, rttEstimated := false } else s
  else s

/-- The `switch` on `buf[0]`. STUN packets and other unknown ones are dropped. -/
def dispatch (n : ℕ) (nowMs : ℤ) (s : GameLink) : GameLink :=
  match s.buf.head? with
  | none => s
  | some kind =>
    if kind = fafPrefixData then s.receiveData n
    else if kind = fafPrefixEcho then s.receiveEcho n nowMs
    else if kind = fafPrefixAnswerEcho then s.receiveAnswerEcho n nowMs
    else if kind = fafPrefixRTTReport then s.receiveRTTReport n
    else s

/-- A `Read` overwrites the front of the buffer. -/
def read (p : ICEPacket) (s : GameLink) : GameLink :=
  { s with buf := p.bytes ++ s.buf.drop p.bytes.length }

def receive (p : ICEPacket) (nowMs : ℤ) (s : GameLink) : GameLink :=
  if p.bytes.length = 0 then s.read p else (s.read p).dispatch p.bytes.length nowMs

def advance (s : GameLink) : GameLink :=
  match s.phase with
  | .reading => s
  | .replaying n addr [] => { s with earlyBuf := [], phase := .forwarding n addr }
  | .replaying n addr (pkt :: rest) =>
    { s with toGame := s.toGame ++ [(addr, pkt)], phase := .replaying n addr rest }
  | .forwarding n addr =>
    { s with toGame := s.toGame ++ [(addr, s.payload n)], phase := .reading }

/-- `gameToICE`: the address is learned, or followed when the port changes. -/
def gamePacket (remoteAddr : AddrPort) (data : Bytes) (s : GameLink) : GameLink :=
  let s := match s.gameAddr with
    | none => { s with gameAddr := some remoteAddr }
    | some addr => if addr.port ≠ remoteAddr.port then { s with gameAddr := some remoteAddr } else s
  s.send (fafPrefixData :: data)

/-- `Read` is called only when the packet before has been dealt with. -/
def step (s : GameLink) : LinkEvent → GameLink × Unit
  | .packet p nowMs => (if s.phase = .reading then s.receive p nowMs else s, ())
  | .advance => (s.advance, ())
  | .gamePacket remoteAddr data => (s.gamePacket remoteAddr data, ())

/-! ## What arrives -/

end GameLink

/-- The payload of a data packet, if it has one. -/
def ICEPacket.dataPayload (p : ICEPacket) : Option Bytes :=
  match p.bytes with
  | [] => none
  | kind :: payload => if kind = fafPrefixData ∧ payload ≠ [] then some payload else none

namespace GameLink

/-- The address is unknown and the buffer is full. -/
def Overflowing (s : GameLink) : Prop := s.gameAddr = none ∧ s.earlyBuf.length = earlyBufCap

instance (s : GameLink) : Decidable (Overflowing s) := inferInstanceAs (Decidable (_ ∧ _))

/-- The payload of the data packet that is read in state `s`, unless it overflows. -/
def kept (s : GameLink) : LinkEvent → Option Bytes
  | .packet p _ => if s.phase = .reading ∧ ¬ s.Overflowing then p.dataPayload else none
  | _ => none

/-- The payloads of a run that are kept, in the order of arrival. -/
def keptPayloads (tr : List (GameLink × LinkEvent × Unit)) : List Bytes :=
  tr.filterMap fun x => x.1.kept x.2.1

/-- What is still to be written for the packets read so far. -/
def outstanding (s : GameLink) : List Bytes :=
  match s.phase with
  | .reading => s.earlyBuf
  | .replaying n _ rest => rest ++ [s.payload n]
  | .forwarding n _ => [s.payload n]

def written (s : GameLink) : List Bytes := s.toGame.map Prod.snd

/-! ## One step -/

theorem outstanding_reading {s : GameLink} (h : s.phase = .reading) : s.outstanding = s.earlyBuf := by
  unfold outstanding
  rw [h]

/-- A step that has nothing to do with game data. -/
structure SameData (s s' : GameLink) : Prop where
  phase : s'.phase = s.phase
  earlyBuf : s'.earlyBuf = s.earlyBuf
  toGame : s'.toGame = s.toGame
  buf : s'.buf = s.buf

theorem sameData_receiveEcho (n : ℕ) (nowMs : ℤ) (s : GameLink) : SameData s (s.receiveEcho n nowMs) := by
  unfold receiveEcho
  dsimp only
  repeat' split
  all_goals exact ⟨rfl, rfl, rfl, rfl⟩

theorem sameData_receiveAnswerEcho (n : ℕ) (nowMs : ℤ) (s : GameLink) :
    SameData s (s.receiveAnswerEcho n nowMs) := by
  unfold receiveAnswerEcho
  dsimp only
  repeat' split
  all_goals exact ⟨rfl, rfl, rfl, rfl⟩

theorem sameData_receiveRTTReport (n : ℕ) (s : GameLink) : SameData s (s.receiveRTTReport n) := by
  unfold receiveRTTReport
  dsimp only
  repeat' split
  all_goals exact ⟨rfl, rfl, rfl, rfl⟩

theorem sameData_gamePacket (remoteAddr : AddrPort) (data : Bytes) (s : GameLink) :
    SameData s (s.gamePacket remoteAddr data) := by
  unfold gamePacket
  dsimp only
  repeat' split
  all_goals exact ⟨rfl, rfl, rfl, rfl⟩

/-- `earlyBuf` keeps to its capacity, and is empty when the packet in the buffer is forwarded. -/
structure Sound (s : GameLink) : Prop where
  room : s.earlyBuf.length ≤ earlyBufCap
  replayed : ∀ n addr, s.phase = .forwarding n addr → s.earlyBuf = []

/-- The step adds `new` to the payloads written and outstanding. -/
structure Delivers (s s' : GameLink) (new : Option Bytes) : Prop where
  payloads : s'.written ++ s'.outstanding = s.written ++ s.outstanding ++ new.toList
  sound : Sound s'

theorem SameData.delivers {s s' : GameLink} (h : SameData s s') (hs : Sound s) : Delivers s s' none where
  payloads := by
    unfold written outstanding payload
    rw [h.phase, h.earlyBuf, h.toGame, h.buf]
    exact (List.append_nil _).symm
  sound := by
    refine ⟨?_, fun n addr hphase => ?_⟩
    · rw [h.earlyBuf]
      exact hs.room
    · rw [h.phase] at hphase
      rw [h.earlyBuf]
      exact hs.replayed n addr hphase

theorem payload_read (p : ICEPacket) (s : GameLink) :
    (s.read p).payload p.bytes.length = p.bytes.tail := by
  unfold payload read
  rw [List.take_left, List.drop_one]

/-- A data packet in the buffer. -/
theorem delivers_receiveData {s : GameLink} (hs : Sound s) (hphase : s.phase = .reading) {n : ℕ}
    (hpayload : s.payload n ≠ []) :
    Delivers s (s.receiveData n) (if s.Overflowing then none else some (s.payload n)) := by
  have hold := outstanding_reading hphase
  unfold receiveData
  rw [if_neg hpayload]
  cases haddr : s.gameAddr with
  | none =>
    dsimp only
    by_cases hlt : s.earlyBuf.length < earlyBufCap
    · -- it waits at the end of `earlyBuf`
      have hfits : ¬ s.Overflowing := fun h => Nat.ne_of_lt hlt h.2
      rw [if_pos hlt, if_neg hfits]
      refine ⟨?_, ?_, fun n' addr hforward => ?_⟩
      · have hnew : outstanding { s with gameAddr := none, earlyBuf := s.earlyBuf ++ [s.payload n] } =
            s.earlyBuf ++ [s.payload n] := outstanding_reading hphase
        rw [hold, hnew, List.append_assoc]
        rfl
      · rw [List.length_append]
        exact hlt
      · cases hphase.symm.trans hforward
    · have hfull : s.Overflowing := ⟨haddr, Nat.le_antisymm hs.room (Nat.not_lt.mp hlt)⟩
      rw [if_neg hlt, if_pos hfull]
      exact SameData.delivers ⟨rfl, rfl, rfl, rfl⟩ hs
  | some addr =>
    have hknown : ¬ s.Overflowing := fun h => Option.some_ne_none addr (haddr.symm.trans h.1)
    rw [if_neg hknown]
    dsimp only
    split
    · refine ⟨?_, hs.room, fun n' addr' hforward => ?_⟩
      · rw [hold, List.append_assoc]
        rfl
      · cases hforward
    · next hempty =>
      have hnil : s.earlyBuf = [] := List.eq_nil_of_length_eq_zero (Nat.eq_zero_of_not_pos hempty)
      refine ⟨?_, hs.room, fun _ _ _ => hnil⟩
      rw [hold, hnil, List.append_nil]
      rfl

theorem dataPayload_of_kind {p : ICEPacket} {kind : UInt8} {payload : Bytes}
    (hbytes : p.bytes = kind :: payload) (hkind : kind ≠ fafPrefixData) : p.dataPayload = none := by
  unfold ICEPacket.dataPayload
  rw [hbytes]
  exact if_neg fun h => hkind h.1

theorem dataPayload_of_data {p : ICEPacket} {payload : Bytes}
    (hbytes : p.bytes = fafPrefixData :: payload) :
    p.dataPayload = if payload = [] then none else some payload := by
  unfold ICEPacket.dataPayload
  rw [hbytes]
  by_cases hempty : payload = []
  · rw [if_pos hempty]
    exact if_neg fun h => h.2 hempty
  · rw [if_neg hempty]
    exact if_pos ⟨rfl, hempty⟩

theorem delivers_dispatch {s : GameLink} {p : ICEPacket} (hs : Sound (s.read p))
    (hphase : s.phase = .reading) {kind : UInt8} {payload : Bytes} (hbytes : p.bytes = kind :: payload)
    (nowMs : ℤ) :
    Delivers (s.read p) ((s.read p).dispatch p.bytes.length nowMs)
      (if s.Overflowing then none else p.dataPayload) := by
  have hhead : (s.read p).buf.head? = some kind := by
    unfold read
    rw [hbytes]
    rfl
  unfold dispatch
  rw [hhead]
  dsimp only
  by_cases hkind : kind = fafPrefixData
  · subst hkind
    have hread : (s.read p).payload p.bytes.length = payload := by rw [payload_read, hbytes, List.tail_cons]
    rw [if_pos rfl, dataPayload_of_data hbytes]
    by_cases hempty : payload = []
    · rw [if_pos hempty, ite_self, receiveData, hread, if_pos hempty]
      exact SameData.delivers ⟨rfl, rfl, rfl, rfl⟩ hs
    · have hdata := delivers_receiveData hs hphase (n := p.bytes.length)
      rw [hread] at hdata
      rw [if_neg hempty]
      exact hdata hempty
  · rw [if_neg hkind, dataPayload_of_kind hbytes hkind, ite_self]
    split
    · exact (sameData_receiveEcho ..).delivers hs
    · split
      · exact (sameData_receiveAnswerEcho ..).delivers hs
      · split
        · exact (sameData_receiveRTTReport ..).delivers hs
        · exact SameData.delivers ⟨rfl, rfl, rfl, rfl⟩ hs

theorem delivers_receive {s : GameLink} (hs : Sound s) (hphase : s.phase = .reading) (p : ICEPacket)
    (nowMs : ℤ) : Delivers s (s.receive p nowMs) (if s.Overflowing then none else p.dataPayload) := by
  have hs' : Sound (s.read p) := ⟨hs.room, hs.replayed⟩
  -- between packets the contents of the buffer do not matter
  have hold : s.written ++ s.outstanding = (s.read p).written ++ (s.read p).outstanding := by
    rw [outstanding_reading hphase, outstanding_reading (s := s.read p) hphase]
    rfl
  have hnew : Delivers (s.read p) (s.receive p nowMs) (if s.Overflowing then none else p.dataPayload) := by
    unfold receive
    cases hbytes : p.bytes with
    | nil =>
      have hnone : p.dataPayload = none := by
        unfold ICEPacket.dataPayload
        rw [hbytes]
      rw [if_pos List.length_nil, hnone, ite_self]
      exact SameData.delivers ⟨rfl, rfl, rfl, rfl⟩ hs'
    | cons kind payload =>
      have hdispatch := delivers_dispatch hs' hphase hbytes nowMs
      rw [hbytes] at hdispatch
      rw [if_neg (by rw [List.length_cons]; exact Nat.succ_ne_zero _)]
      exact hdispatch
  exact ⟨hold ▸ hnew.payloads, hnew.sound⟩

theorem delivers_advance {s : GameLink} (hs : Sound s) : Delivers s s.advance none := by
  unfold advance
  cases hphase : s.phase with
  | reading => exact SameData.delivers ⟨rfl, rfl, rfl, rfl⟩ hs
  | replaying n addr rest =>
    cases rest with
    | nil =>
      refine ⟨?_, Nat.zero_le _, fun _ _ _ => rfl⟩
      unfold outstanding
      rw [hphase]
      exact (List.append_nil _).symm
    | cons pkt rest =>
      refine ⟨?_, hs.room, fun _ _ h => ?_⟩
      · unfold outstanding written
        rw [hphase]
        simp only [List.map_append, List.map_cons, List.map_nil, List.append_assoc, List.cons_append,
          List.nil_append, Option.toList_none, List.append_nil]
        rfl
      · cases h
  | forwarding n addr =>
    refine ⟨?_, hs.room, fun _ _ h => ?_⟩
    · unfold outstanding written
      rw [hphase]
      dsimp only
      rw [hs.replayed n addr hphase, List.map_append]
      rfl
    · cases h

theorem delivers_step {s : GameLink} (hs : Sound s) (ev : LinkEvent) :
    Delivers s (s.step ev).1 (s.kept ev) := by
  cases ev with
  | packet p nowMs =>
    unfold step kept
    dsimp only
    by_cases hphase : s.phase = .reading
    · have hreceive := delivers_receive hs hphase p nowMs
      by_cases hover : s.Overflowing
      · rw [if_pos hover] at hreceive
        rw [if_pos hphase, if_neg fun h => h.2 hover]
        exact hreceive
      · rw [if_neg hover] at hreceive
        rw [if_pos hphase, if_pos ⟨hphase, hover⟩]
        exact hreceive
    · rw [if_neg hphase, if_neg fun h => hphase h.1]
      exact SameData.delivers ⟨rfl, rfl, rfl, rfl⟩ hs
  | advance => exact delivers_advance hs
  | gamePacket remoteAddr data => exact (sameData_gamePacket remoteAddr data s).delivers hs

/-! ## Runs -/

/-- `iceToGame` when the ICE connection is up; a restarted peer knows its predecessor's address. -/
def start (offerer : Bool) (gameAddr : Option AddrPort) : GameLink where
  offerer := offerer
  gameAddr := gameAddr
  buf := List.replicate iceBufLen 0

theorem keptPayloads_concat (tr : List (GameLink × LinkEvent × Unit)) (x : GameLink × LinkEvent × Unit) :
    keptPayloads (tr ++ [x]) = keptPayloads tr ++ (x.1.kept x.2.1).toList := by
  unfold keptPayloads
  rw [List.filterMap_append, List.filterMap_cons]
  cases x.1.kept x.2.1 <;> rfl

theorem delivered_runState (offerer : Bool) (gameAddr : Option AddrPort) (events : List LinkEvent) :
    Sound (runState step (start offerer gameAddr) events) ∧
      (runState step (start offerer gameAddr) events).written ++
        (runState step (start offerer gameAddr) events).outstanding =
      keptPayloads (trace step (start offerer gameAddr) events) := by
  refine run_invariant_trace step
    (I := fun tr s => Sound s ∧ s.written ++ s.outstanding = keptPayloads tr)
    ⟨⟨Nat.zero_le _, fun _ _ h => ?_⟩, rfl⟩ ?_ events
  · cases h
  · rintro tr s ev ⟨hs, hpayloads⟩
    have hstep := delivers_step hs ev
    refine ⟨hstep.sound, ?_⟩
    rw [hstep.payloads, hpayloads, keptPayloads_concat]

theorem dataPayload_eq_some {p : ICEPacket} {payload : Bytes} (h : p.dataPayload = some payload) :
    p.bytes = fafPrefixData :: payload := by
  cases hbytes : p.bytes with
  | nil =>
    unfold ICEPacket.dataPayload at h
    rw [hbytes] at h
    cases h
  | cons kind payload' =>
    by_cases hkind : kind = fafPrefixData
    · subst hkind
      rw [dataPayload_of_data hbytes] at h
      split at h
      · cases h
      · cases h
        rfl
    · rw [dataPayload_of_kind hbytes hkind] at h
      cases h

/-- What is kept is the payload of a data packet. -/
theorem kept_eq_some {s : GameLink} {ev : LinkEvent} {payload : Bytes} (h : s.kept ev = some payload) :
    ∃ p nowMs, ev = .packet p nowMs ∧ p.bytes = fafPrefixData :: payload := by
  cases ev with
  | packet p nowMs =>
    simp only [kept] at h
    split at h
    · exact ⟨p, nowMs, rfl, dataPayload_eq_some h⟩
    · cases h
  | advance => cases h
  | gamePacket remoteAddr data => cases h

theorem earlyData_inOrder (offerer : Bool) (gameAddr : Option AddrPort) (events : List LinkEvent) :
    ((runState step (start offerer gameAddr) events).phase = .reading →
      (runState step (start offerer gameAddr) events).written ++
        (runState step (start offerer gameAddr) events).earlyBuf =
      keptPayloads (trace step (start offerer gameAddr) events)) ∧
    (runState step (start offerer gameAddr) events).written ++
        (runState step (start offerer gameAddr) events).outstanding =
      keptPayloads (trace step (start offerer gameAddr) events) ∧
    ∀ payload ∈ keptPayloads (trace step (start offerer gameAddr) events),
      ∃ p nowMs, .packet p nowMs ∈ events ∧ p.bytes = fafPrefixData :: payload := by
  obtain ⟨-, hpayloads⟩ := delivered_runState offerer gameAddr events
  refine ⟨fun hphase => ?_, hpayloads, fun payload hmem => ?_⟩
  · rw [← hpayloads, outstanding_reading hphase]
  · obtain ⟨x, hx, hkept⟩ := List.mem_filterMap.mp hmem
    obtain ⟨p, nowMs, hev, hbytes⟩ := kept_eq_some hkept
    exact ⟨p, nowMs, hev ▸ mem_of_mem_trace step hx, hbytes⟩

def dataPacket (b : UInt8) : LinkEvent := .packet ⟨[fafPrefixData, b], by simp [iceBufLen]⟩ 0

/-- Two packets come before the game has sent anything, and one after. -/
def replayRun : List LinkEvent :=
  [dataPacket 1, dataPacket 2, .gamePacket ⟨.v4 0x7F000001, 6112⟩ [0], dataPacket 3] ++
    List.replicate 4 .advance

theorem replayRun_inOrder : (runState step (start true none) (replayRun.take 3)).earlyBuf = [[1], [2]] ∧
    (runState step (start true none) replayRun).written = [[1], [2], [3]] ∧
    keptPayloads (trace step (start true none) replayRun) = [[1], [2], [3]] := by
  have hwritten : (runState step (start true none) replayRun).written = [[1], [2], [3]] := by decide +kernel
  have hkept := (earlyData_inOrder true none replayRun).1 (by decide +kernel)
  rw [hwritten, show (runState step (start true none) replayRun).earlyBuf = [] by decide +kernel] at hkept
  exact ⟨by decide +kernel, hwritten, hkept.symm⟩

end GameLink
end Adapter
end SturmRelay
