import SturmRelay.Foundations.Runs
import SturmRelay.Adapter.Framing

/-! # Writes that are cut short

One player's TCP connection, as the goroutines of `internal/relay/router.go` and
`internal/relay/tcphandler.go` write to it. A write whose deadline fires has put some of its frame on
the connection and returns an error. `sendToTarget` logs the error and drops the packet; the echo of
`handleConn` leaves the loop, and the deferred `Close` comes some time later.

Which writes are cut, and when somebody closes the connection, is given by the events. The receiver
stays in step exactly in the runs where a write that was cut is followed by a close before the next
write (`synchronised_iff`). -/

namespace SturmRelay
set_option autoImplicit false

/-- A packet that `writeTCPFrame` can frame. -/
structure FramedPacket where
  data : Bytes
  fits : data.length ≤ maxTCPFramePayload

/-- What `writeTCPFrame` hands to `conn.Write`. -/
def FramedPacket.frame (pkt : FramedPacket) : Bytes := Adapter.tcpFrame pkt.data

theorem FramedPacket.writeTCPFrame_eq (pkt : FramedPacket) :
    writeTCPFrame pkt.data = .ok pkt.frame :=
  SessionManager.writeTCPFrame_of_le pkt.fits ⟨0, none⟩

/-- A write that put at least one byte on the connection. -/
structure Written where
  pkt : FramedPacket
  bytes : Bytes

structure TCPConn where
  isOpen : Bool := true
  /-- `handleConn` is in its loop. -/
  serving : Bool := true
  log : List Written := []

inductive ConnWriter
  | router
  | echo
  deriving DecidableEq, Repr

/-- `taken` bytes are what the network takes of the frame before the deadline, if it is not all of
them. `close` is `conn.Close()`, whoever calls it. -/
inductive ConnEvent
  | write (who : ConnWriter) (pkt : FramedPacket) (taken : ℕ)
  | close

namespace TCPConn

/-- `conn.Write`: whether it returned no error, and the connection afterwards. -/
def write (pkt : FramedPacket) (taken : ℕ) (c : TCPConn) : Bool × TCPConn :=
  if c.isOpen then
    let bytes := pkt.frame.take taken
    (decide (bytes = pkt.frame), if bytes = [] then c else { c with log := c.log ++ [⟨pkt, bytes⟩] })
  else (false, c)

/-- The answer is whether the packet counts as routed. -/
def step (c : TCPConn) : ConnEvent → TCPConn × Bool
  | .write .router pkt taken => ((c.write pkt taken).2, (c.write pkt taken).1)
  | .write .echo pkt taken =>
    if c.serving then
      match c.write pkt taken with
      | (true, c) => (c, true)
      | (false, c) => ({ c with serving := false }, false)
    else (c, false)
  | .close => ({ c with isOpen := false }, true)

/-- Everything the connection has carried. -/
def stream (c : TCPConn) : Bytes := c.log.flatMap Written.bytes

/-! ## In step -/

/-- Complete frames, then at most one that is not, and nothing after it. -/
def InFrames (log : List Written) : Prop :=
  ∀ before w after, log = before ++ w :: after → w.bytes ≠ w.pkt.frame → after = []

/-- The connection carries frames, and the adapter decodes none that was not meant. -/
structure Synchronised (c : TCPConn) : Prop where
  inFrames : InFrames c.log
  decoded : ∀ segs fuel, segs.flatten = c.stream →
    ∀ d ∈ ((Adapter.readTCPFrame Adapter.packetBufferSize).readAll fuel segs).1,
      ∃ w ∈ c.log, w.pkt.data = d

/-- The last frame on the connection is incomplete. -/
def Torn (c : TCPConn) : Prop := ∃ w, c.log.getLast? = some w ∧ w.bytes ≠ w.pkt.frame

/-- The event puts bytes on the connection. -/
def Puts (c : TCPConn) : ConnEvent → Prop
  | .write who _ taken => c.isOpen = true ∧ 0 < taken ∧ (who = .echo → c.serving = true)
  | .close => False

/-- The network takes less than the frame. -/
def Cut : ConnEvent → Prop
  | .write _ pkt taken => taken < pkt.frame.length
  | .close => False

theorem inFrames_concat {log : List Written} {w : Written} :
    InFrames (log ++ [w]) ↔ InFrames log ∧ ¬ ∃ w', log.getLast? = some w' ∧ w'.bytes ≠ w'.pkt.frame := by
  constructor
  · intro h
    refine ⟨?_, ?_⟩
    · intro before w' after hlog hw'
      have hafter := h before w' (after ++ [w]) (by simp [hlog]) hw'
      exact absurd hafter (by simp)
    · rintro ⟨w', hlast, hw'⟩
      obtain ⟨before, rfl⟩ := List.getLast?_eq_some_iff.mp hlast
      exact absurd (h before w' [w] (by simp) hw') (by simp)
  · rintro ⟨h, hlast⟩ before w' after hlog hw'
    rcases List.eq_nil_or_concat after with rfl | ⟨mid, x, rfl⟩
    · rfl
    · -- an incomplete frame before the last write is already in `log`
      exfalso
      have hsplit : log ++ [w] = (before ++ w' :: mid) ++ [x] := by
        rw [hlog]
        simp
      have hlog' := (List.append_inj' hsplit rfl).1
      have hmid := h before w' mid hlog' hw'
      refine hlast ⟨w', ?_, hw'⟩
      rw [hlog', hmid]
      simp

theorem log_write {pkt : FramedPacket} {taken : ℕ} {c : TCPConn} (hopen : c.isOpen = true)
    (htaken : 0 < taken) :
    (c.write pkt taken).2.log = c.log ++ [⟨pkt, pkt.frame.take taken⟩] := by
  have hne : pkt.frame.take taken ≠ [] := by
    intro hnil
    have hlen := congrArg List.length hnil
    simp only [FramedPacket.frame, Adapter.tcpFrame, List.length_take, List.length_append,
      length_beEncode, List.length_nil] at hlen
    omega
  simp [write, hopen, hne]

theorem log_write_of_not {pkt : FramedPacket} {taken : ℕ} {c : TCPConn}
    (h : ¬ (c.isOpen = true ∧ 0 < taken)) : (c.write pkt taken).2.log = c.log := by
  unfold write
  split
  · next hopen =>
    have htaken : taken = 0 := Nat.eq_zero_of_not_pos fun hpos => h ⟨hopen, hpos⟩
    simp [htaken]
  · rfl

theorem isOpen_write (c : TCPConn) (pkt : FramedPacket) (taken : ℕ) :
    (c.write pkt taken).2.isOpen = c.isOpen := by
  unfold write
  split
  · dsimp only
    split <;> rfl
  · rfl

theorem serving_write (c : TCPConn) (pkt : FramedPacket) (taken : ℕ) :
    (c.write pkt taken).2.serving = c.serving := by
  unfold write
  split
  · dsimp only
    split <;> rfl
  · rfl

/-- The handler goes on exactly if the echo was written. -/
theorem step_echo {c : TCPConn} (hserve : c.serving = true) {pkt : FramedPacket} {taken : ℕ} :
    (c.step (.write .echo pkt taken)).1 =
      { (c.write pkt taken).2 with serving := (c.write pkt taken).1 } := by
  have hkept := (c.serving_write pkt taken).trans hserve
  obtain ⟨res, c', hw⟩ : ∃ res c', c.write pkt taken = (res, c') := ⟨_, _, rfl⟩
  rw [hw] at hkept
  cases res with
  | true =>
    simp only [step, hserve, if_true, hw]
    rw [← hkept]
  | false => simp only [step, hserve, if_true, hw]

/-- A step that puts bytes on the connection appends one entry to the log, any other step none. -/
theorem log_step (c : TCPConn) (ev : ConnEvent) :
    (Puts c ev ∧ ∃ w, (c.step ev).1.log = c.log ++ [w] ∧ w.bytes <+: w.pkt.frame ∧
      (w.bytes ≠ w.pkt.frame ↔ Cut ev)) ∨
    (¬ Puts c ev ∧ (c.step ev).1.log = c.log) := by
  cases ev with
  | close => exact Or.inr ⟨not_false, rfl⟩
  | write who pkt taken =>
    have hlog : (c.step (.write who pkt taken)).1.log =
        if who = .echo → c.serving = true then (c.write pkt taken).2.log else c.log := by
      cases who with
      | router => simp [step]
      | echo =>
        by_cases hserve : c.serving = true
        · simp [step_echo hserve, hserve]
        · simp [step, hserve]
    by_cases hserve : who = .echo → c.serving = true
    · rw [if_pos hserve] at hlog
      by_cases hputs : c.isOpen = true ∧ 0 < taken
      · refine Or.inl ⟨⟨hputs.1, hputs.2, hserve⟩, _, hlog.trans (log_write hputs.1 hputs.2), ?_, ?_⟩
        · exact List.take_prefix taken pkt.frame
        · rw [Ne, List.take_eq_self_iff, Nat.not_le]
          rfl
      · exact Or.inr ⟨fun h => hputs ⟨h.1, h.2.1⟩, hlog.trans (log_write_of_not hputs)⟩
    · rw [if_neg hserve] at hlog
      exact Or.inr ⟨fun h => hserve h.2.2, hlog⟩

theorem inFrames_step (c : TCPConn) (ev : ConnEvent) :
    InFrames (c.step ev).1.log ↔ InFrames c.log ∧ (Puts c ev → ¬ Torn c) := by
  rcases log_step c ev with ⟨hputs, w, hlog, -⟩ | ⟨hnot, hlog⟩
  · rw [hlog, inFrames_concat]
    exact and_congr_right fun _ => ⟨fun h _ => h, fun h => h hputs⟩
  · rw [hlog]
    exact ⟨fun h => ⟨h, fun hp => absurd hp hnot⟩, fun h => h.1⟩

/-! ## What the adapter decodes -/

/-- A proper part of a frame does not read as one. -/
theorem readTCPFrame_torn {pkt : FramedPacket} {bytes : Bytes} (hpre : bytes <+: pkt.frame)
    (hne : bytes ≠ pkt.frame) :
    ∃ e, (Adapter.readTCPFrame Adapter.packetBufferSize).onStream bytes = .err e := by
  obtain ⟨rest, hrest⟩ := hpre
  have hrest_ne : rest ≠ [] := by
    rintro rfl
    exact hne (by rw [← hrest, List.append_nil])
  have hshort : bytes.length < 2 + pkt.data.length := by
    have hlen := congrArg List.length hrest
    have hpos := List.length_pos_iff.mpr hrest_ne
    simp only [FramedPacket.frame, Adapter.tcpFrame, List.length_append, length_beEncode] at hlen
    omega
  rw [Adapter.readTCPFrame, ReadScript.onStream]
  unfold StreamReader.readFull
  by_cases h2 : 2 ≤ bytes.length
  · -- the header is there, so the length is known and the body is short
    have hhdr : bytes.take 2 = beEncode 2 pkt.data.length := by
      have htake := congrArg (List.take 2) hrest
      rwa [List.take_append_of_le_length h2, FramedPacket.frame, Adapter.tcpFrame,
        List.take_left' (length_beEncode 2 _)] at htake
    have hbuf : ¬ Adapter.packetBufferSize < pkt.data.length := by
      have hfits : pkt.data.length ≤ 1400 := pkt.fits
      unfold Adapter.packetBufferSize
      omega
    have hbody : ¬ pkt.data.length ≤ (bytes.drop 2).length := by
      rw [List.length_drop]
      omega
    rw [if_pos h2]
    dsimp only
    rw [hhdr, Adapter.beDecode_length pkt.fits, if_neg hbuf, ReadScript.onStream]
    unfold StreamReader.readFull
    rw [if_neg hbody]
    split
    · next heq => split at heq <;> cases heq
    · next e heq => exact ⟨_, rfl⟩
    · next heq => split at heq <;> cases heq
  · rw [if_neg h2]
    by_cases h0 : bytes.length = 0
    · rw [if_pos h0]
      exact ⟨_, rfl⟩
    · rw [if_neg h0]
      exact ⟨_, rfl⟩

/-- The log holds beginnings of frames. -/
def Prefixes (log : List Written) : Prop := ∀ w ∈ log, w.bytes <+: w.pkt.frame

theorem prefixes_step (c : TCPConn) (ev : ConnEvent) (h : Prefixes c.log) :
    Prefixes (c.step ev).1.log := by
  rcases log_step c ev with ⟨-, w, hlog, hw, -⟩ | ⟨-, hlog⟩
  · rw [hlog]
    exact List.forall_mem_append.mpr ⟨h, List.forall_mem_singleton.mpr hw⟩
  · rw [hlog]
    exact h

/-- A log in frames is complete frames and a rest that does not read. -/
theorem InFrames.split {log : List Written} (h : InFrames log) (hpre : Prefixes log) :
    ∃ whole : List Written, ∃ tail e, (∀ w ∈ whole, w ∈ log) ∧
      log.flatMap Written.bytes = (whole.map fun w => w.pkt.frame).flatten ++ tail ∧
      (Adapter.readTCPFrame Adapter.packetBufferSize).onStream tail = .err e := by
  induction log with
  | nil => exact ⟨[], [], _, by simp, rfl, Adapter.readTCPFrame_nil _⟩
  | cons w log ih =>
    obtain ⟨hw, hlog⟩ := List.forall_mem_cons.mp hpre
    by_cases hfull : w.bytes = w.pkt.frame
    · have hrest : InFrames log := fun before w' after he hw' =>
        h (w :: before) w' after (by rw [he]; rfl) hw'
      obtain ⟨whole, tail, e, hmem, hstream, htail⟩ := ih hrest hlog
      refine ⟨w :: whole, tail, e, ?_, ?_, htail⟩
      · rintro w' (_ | ⟨_, hw'⟩)
        · exact List.mem_cons_self ..
        · exact List.mem_cons_of_mem w (hmem w' hw')
      · rw [List.flatMap_cons, hstream, List.map_cons, List.flatten_cons, List.append_assoc, hfull]
    · have hnil := h [] w log rfl hfull
      obtain ⟨e, he⟩ := readTCPFrame_torn hw hfull
      exact ⟨[], w.bytes, e, by simp, by simp [hnil], he⟩

theorem synchronised_of_inFrames {c : TCPConn} (h : InFrames c.log) (hpre : Prefixes c.log) :
    Synchronised c := by
  refine ⟨h, ?_⟩
  intro segs fuel hsegs d hd
  obtain ⟨whole, tail, e, hmem, hstream, htail⟩ := h.split hpre
  have hvalues : segs.flatten = ((whole.map fun w => w.pkt.data).map Adapter.tcpFrame).flatten ++ tail := by
    rw [hsegs, stream, hstream, List.map_map]
    rfl
  have henc : ∀ d ∈ whole.map fun w => w.pkt.data, ∀ rest,
      (Adapter.readTCPFrame Adapter.packetBufferSize).onStream (Adapter.tcpFrame d ++ rest) =
        .ok d rest := by
    intro d hd rest
    obtain ⟨w, -, rfl⟩ := List.mem_map.mp hd
    exact Adapter.readTCPFrame_tcpFrame w.pkt.fits rest
  have hin := (ReadScript.readAll_isPrefix Adapter.tcpFrame henc htail fuel hvalues).subset hd
  obtain ⟨w, hw, rfl⟩ := List.mem_map.mp hin
  exact ⟨w, hmem w hw, rfl⟩

/-! ## The events of a run -/

/-- An echo that cannot be written whole, or that finds the connection closed. -/
def EchoFails (before : List ConnEvent) : ConnEvent → Prop
  | .write .echo pkt taken => .close ∈ before ∨ taken < pkt.frame.length
  | _ => False

/-- `handleConn` has left its loop. -/
def HandlerLeft (before : List ConnEvent) : Prop := Occurs EchoFails before

/-- A write of which the network takes at least a byte, if the connection is open. Once the handler
has left its loop there are no more echoes. -/
def Starts (before : List ConnEvent) : ConnEvent → Prop
  | .write who _ taken => 0 < taken ∧ (who = .echo → ¬ HandlerLeft before)
  | .close => False

def CutShort (before : List ConnEvent) (ev : ConnEvent) : Prop := Starts before ev ∧ Cut ev

/-- Whenever a write comes after one that was cut, the connection has been closed. -/
def ClosedAfterCut (events : List ConnEvent) : Prop :=
  Throughout (fun before ev => Starts before ev → Occurs CutShort before → .close ∈ before) events

/-- What the events say of the connection. -/
structure Reflects (events : List ConnEvent) (c : TCPConn) : Prop where
  isOpen : c.isOpen = true ↔ .close ∉ events
  serving : c.serving = true ↔ ¬ HandlerLeft events
  torn : (∃ w ∈ c.log, w.bytes ≠ w.pkt.frame) ↔
    Occurs (fun before ev => .close ∉ before ∧ CutShort before ev) events

variable {events : List ConnEvent} {c : TCPConn}

theorem Reflects.puts_iff (h : Reflects events c) (ev : ConnEvent) :
    Puts c ev ↔ .close ∉ events ∧ Starts events ev := by
  cases ev with
  | close => simp [Puts, Starts]
  | write who pkt taken =>
    show c.isOpen = true ∧ 0 < taken ∧ (who = .echo → c.serving = true) ↔ _
    rw [h.isOpen, h.serving]
    rfl

/-- An echo that fails ends the loop of the handler; no other step does. -/
theorem Reflects.serving_step (h : Reflects events c) (ev : ConnEvent) :
    (c.step ev).1.serving = true ↔ c.serving = true ∧ ¬ EchoFails events ev := by
  cases ev with
  | close => simp [step, EchoFails]
  | write who pkt taken =>
    cases who with
    | router =>
      simp [step, EchoFails, c.serving_write pkt taken]
    | echo =>
      have hok : (c.write pkt taken).1 = true ↔ ¬ EchoFails events (.write .echo pkt taken) := by
        unfold write EchoFails
        by_cases hopen : c.isOpen = true
        · simp [hopen, h.isOpen.mp hopen]
        · have hclose := not_not.mp (mt h.isOpen.mpr hopen)
          simp [hopen, hclose]
      rw [← hok]
      by_cases hserve : c.serving = true
      · simp [step_echo hserve, hserve]
      · simp [step, hserve]

theorem isOpen_step (c : TCPConn) (ev : ConnEvent) :
    (c.step ev).1.isOpen = true ↔ c.isOpen = true ∧ ev ≠ .close := by
  cases ev with
  | close => simp [step]
  | write who pkt taken =>
    have hkept := c.isOpen_write pkt taken
    cases who with
    | router => simp [step, hkept]
    | echo =>
      by_cases hserve : c.serving = true
      · simp [step_echo hserve, hkept]
      · simp [step, hserve]

theorem reflects_step (ev : ConnEvent) (h : Reflects events c) :
    Reflects (events ++ [ev]) (c.step ev).1 where
  isOpen := by
    rw [isOpen_step, h.isOpen, List.mem_append, List.mem_singleton, not_or, Ne, eq_comm (a := ev)]
  serving := by
    rw [h.serving_step, h.serving, HandlerLeft, HandlerLeft, occurs_concat, not_or]
  torn := by
    rw [occurs_concat, ← h.torn]
    rcases log_step c ev with ⟨hputs, w, hlog, -, hcut⟩ | ⟨hnot, hlog⟩
    · have hstarts := (h.puts_iff ev).mp hputs
      have hlast : w.bytes ≠ w.pkt.frame ↔ .close ∉ events ∧ CutShort events ev := by
        rw [hcut, CutShort]
        simp [hstarts]
      rw [hlog, ← hlast]
      simp only [List.mem_append, List.mem_singleton, or_and_right, exists_or, exists_eq_left]
    · have hlast : ¬ (.close ∉ events ∧ CutShort events ev) := by
        rintro ⟨hopen, hstarts, -⟩
        exact hnot ((h.puts_iff ev).mpr ⟨hopen, hstarts⟩)
      rw [hlog, or_iff_left hlast]

theorem reflects (events : List ConnEvent) : Reflects events (runState step {} events) := by
  induction events using List.reverseRecOn with
  | nil =>
    exact ⟨by simp [runState], by simp [runState, HandlerLeft, not_occurs_nil],
      by simp [runState, not_occurs_nil]⟩
  | append_singleton events ev ih =>
    rw [runState_append]
    exact reflects_step ev ih

/-- In frames, an incomplete frame is the last one. -/
theorem torn_iff_of_inFrames (h : InFrames c.log) : Torn c ↔ ∃ w ∈ c.log, w.bytes ≠ w.pkt.frame := by
  constructor
  · rintro ⟨w, hlast, hw⟩
    exact ⟨w, List.mem_of_getLast? hlast, hw⟩
  · rintro ⟨w, hmem, hw⟩
    obtain ⟨before, after, hlog⟩ := List.append_of_mem hmem
    have hnil := h before w after hlog hw
    refine ⟨w, ?_, hw⟩
    rw [hlog, hnil]
    simp

/-- As long as nobody has closed the connection, every cut is one of an open connection. -/
theorem occurs_cutShort_of_open (h : .close ∉ events) :
    Occurs (fun before ev => .close ∉ before ∧ CutShort before ev) events ↔ Occurs CutShort events := by
  constructor
  · rintro ⟨before, ev, after, he, -, hcut⟩
    exact ⟨before, ev, after, he, hcut⟩
  · rintro ⟨before, ev, after, he, hcut⟩
    refine ⟨before, ev, after, he, fun hclose => h ?_, hcut⟩
    rw [he]
    exact List.mem_append_left _ hclose

/-- By induction on the events: a further write keeps the connection in frames unless it is open and
has seen a cut. -/
theorem inFrames_iff (events : List ConnEvent) :
    InFrames (runState step {} events).log ↔ ClosedAfterCut events := by
  induction events using List.reverseRecOn with
  | nil =>
    refine ⟨fun _ before ev after he => ?_, fun _ before w after hlog => ?_⟩
    · simp at he
    · exact absurd hlog.symm (by simp [runState])
  | append_singleton events ev ih =>
    have hr := reflects events
    have hrun : runState step {} (events ++ [ev]) = (step (runState step {} events) ev).1 :=
      runState_append step {} events [ev]
    have hclosed_concat : ClosedAfterCut (events ++ [ev]) ↔ ClosedAfterCut events ∧
        (Starts events ev → Occurs CutShort events → .close ∈ events) := throughout_concat
    rw [hrun, inFrames_step, ih, hclosed_concat]
    refine and_congr_right fun hclosed => ?_
    rw [torn_iff_of_inFrames (ih.mpr hclosed), hr.torn, hr.puts_iff]
    by_cases hclose : .close ∈ events
    · simp [hclose]
    · simp [hclose, occurs_cutShort_of_open hclose]

/-- The receiver stays in step exactly when every write that was cut is the last one, or is followed
by a close before the next. -/
theorem synchronised_iff (events : List ConnEvent) :
    Synchronised (runState step {} events) ↔ ClosedAfterCut events := by
  have hpre : Prefixes (runState step {} events).log :=
    run_invariant (I := fun c : TCPConn => Prefixes c.log) prefixes_step
      (fun w hw => absurd hw List.not_mem_nil) events
  rw [← inFrames_iff]
  exact ⟨Synchronised.inFrames, fun h => synchronised_of_inFrames h hpre⟩

/-! ## A stalled receiver -/

/-- A header-only packet from player 1 to player 2. -/
def pingFrom1 : FramedPacket := ⟨[0, 0, 0, 1, 0, 0, 0, 2], by decide⟩

/-- A header-only packet from player 3 to player 2. -/
def pingFrom3 : FramedPacket := ⟨[0, 0, 0, 3, 0, 0, 0, 2], by decide⟩

/-- The deadline of the first write fires after six bytes; the receiver recovers and the second
write goes through. -/
def stalledThenSent : List ConnEvent := [.write .router pingFrom1 6, .write .router pingFrom3 10]

theorem stalledThenSent_not_synchronised :
    ¬ Synchronised (runState step {} stalledThenSent) ∧
    ((Adapter.readTCPFrame Adapter.packetBufferSize).readAll 3
      [(runState step {} stalledThenSent).stream]).1 =
        [[0, 0, 0, 1, 0, 8, 0, 0], [0, 0, 0]] := by
  refine ⟨fun h => ?_, by decide⟩
  have hafter := h.inFrames [] ⟨pingFrom1, [0, 8, 0, 0, 0, 1]⟩ [⟨pingFrom3, pingFrom3.frame⟩] rfl (by decide)
  cases hafter

end TCPConn
end SturmRelay
