import Mathlib.Data.List.Infix
import Mathlib.Data.PNat.Notation

/-! # Buffered writers

A writer collects what is written in a buffer of fixed size and passes it on to a sink that takes
everything; `delivered` is what the sink has and `stream` what it has after the next flush.

An emitter is a program that writes and may stop with an error. `Emits p out e` is its whole
specification: from any writer it adds `out` to the stream and returns `e`, whatever the buffer
did in between. The rules follow the way emitters are composed, and `run_answers`, `run_stream` and
`run_pending` are about a list of calls on one writer. -/

namespace SturmRelay
set_option autoImplicit false

structure BufferedWriter (τ : Type) where
  size : ℕ+
  delivered : List τ
  pending : List τ
  pending_le : pending.length ≤ size

namespace BufferedWriter
variable {τ : Type}

def new (τ : Type) (size : ℕ+) : BufferedWriter τ := ⟨size, [], [], Nat.zero_le _⟩

def available (w : BufferedWriter τ) : ℕ := w.size - w.pending.length

def stream (w : BufferedWriter τ) : List τ := w.delivered ++ w.pending

def flush (w : BufferedWriter τ) : BufferedWriter τ :=
  { w with delivered := w.stream, pending := [], pending_le := Nat.zero_le _ }

def buffer (w : BufferedWriter τ) (p : List τ) (h : p.length ≤ w.available) : BufferedWriter τ :=
  { w with
    pending := w.pending ++ p
    pending_le := by
      have := w.pending_le
      unfold available at h
      rw [List.length_append]
      omega }

/-- A write to an empty buffer: what does not fit goes straight to the sink. -/
def writeEmpty (w : BufferedWriter τ) (p : List τ) : BufferedWriter τ :=
  if h : p.length ≤ w.available then w.buffer p h
  else { w with delivered := w.delivered ++ p }

def write (w : BufferedWriter τ) (p : List τ) : BufferedWriter τ :=
  if h : p.length ≤ w.available then w.buffer p h
  else if w.pending = [] then w.writeEmpty p
  else
    -- The buffer is filled and flushed first; the rest meets an empty buffer.
    (w.buffer (p.take w.available) (List.length_take_le _ _)).flush.writeEmpty (p.drop w.available)

def writeByte (w : BufferedWriter τ) (b : τ) : BufferedWriter τ :=
  if h : 1 ≤ w.available then w.buffer [b] h
  else w.flush.buffer [b] w.size.2

@[simp] theorem stream_flush (w : BufferedWriter τ) : w.flush.stream = w.stream :=
  List.append_nil _

theorem stream_of_pending {w : BufferedWriter τ} (h : w.pending = []) : w.stream = w.delivered := by
  rw [stream, h, List.append_nil]

@[simp] theorem stream_buffer (w : BufferedWriter τ) (p : List τ) (h : p.length ≤ w.available) :
    (w.buffer p h).stream = w.stream ++ p := (List.append_assoc _ _ _).symm

theorem stream_writeEmpty {w : BufferedWriter τ} (hw : w.pending = []) (p : List τ) :
    (w.writeEmpty p).stream = w.stream ++ p := by
  unfold writeEmpty
  split
  · exact stream_buffer w p _
  · simp only [stream, hw, List.append_nil]

/-- However a write is split over the buffer, the stream grows by what was written. -/
theorem stream_write (w : BufferedWriter τ) (p : List τ) : (w.write p).stream = w.stream ++ p := by
  unfold write
  split
  · exact stream_buffer w p _
  · split
    · next hw => exact stream_writeEmpty hw p
    · rw [stream_writeEmpty rfl, stream_flush, stream_buffer, List.append_assoc,
        List.take_append_drop]

theorem stream_writeByte (w : BufferedWriter τ) (b : τ) :
    (w.writeByte b).stream = w.stream ++ [b] := by
  unfold writeByte
  split
  · exact stream_buffer w [b] _
  · exact (stream_buffer w.flush [b] _).trans (congrArg (· ++ [b]) w.stream_flush)

theorem delivered_flush (w : BufferedWriter τ) : w.delivered <+: w.flush.delivered :=
  List.prefix_append _ _

theorem delivered_writeEmpty (w : BufferedWriter τ) (p : List τ) :
    w.delivered <+: (w.writeEmpty p).delivered := by
  unfold writeEmpty
  split
  · exact List.prefix_rfl
  · exact List.prefix_append _ _

theorem delivered_write (w : BufferedWriter τ) (p : List τ) :
    w.delivered <+: (w.write p).delivered := by
  unfold write
  split
  · exact List.prefix_rfl
  · split
    · exact delivered_writeEmpty w p
    · refine List.IsPrefix.trans ?_ (delivered_writeEmpty _ _)
      exact delivered_flush (w.buffer _ _)

theorem delivered_writeByte (w : BufferedWriter τ) (b : τ) :
    w.delivered <+: (w.writeByte b).delivered := by
  unfold writeByte
  split
  · exact List.prefix_rfl
  · exact delivered_flush w

/-- What was passed on stays passed on: with nothing new in the stream, an empty buffer stays so. -/
theorem pending_of_stream_eq {w w' : BufferedWriter τ} (hw : w.pending = [])
    (hs : w'.stream = w.stream) (hd : w.delivered <+: w'.delivered) : w'.pending = [] := by
  have hlen := congrArg List.length hs
  have hle := hd.length_le
  rw [stream_of_pending hw, stream, List.length_append] at hlen
  exact List.eq_nil_of_length_eq_zero (by omega)

end BufferedWriter

/-! ## Emitters -/

def Emitter (τ ε : Type) := BufferedWriter τ → Option ε × BufferedWriter τ

namespace Emitter
variable {τ ε ε' ι : Type}

def emit (p : List τ) : Emitter τ ε := fun w => (none, w.write p)

def emitByte (b : τ) : Emitter τ ε := fun w => (none, w.writeByte b)

def emitFlush : Emitter τ ε := fun w => (none, w.flush)

def done : Emitter τ ε := fun w => (none, w)

def abort (e : ε) : Emitter τ ε := fun w => (some e, w)

def andThen (p q : Emitter τ ε) : Emitter τ ε := fun w =>
  match p w with
  | (none, w') => q w'
  | (some e, w') => (some e, w')

def wrap (f : ε → ε') (p : Emitter τ ε) : Emitter τ ε' := fun w =>
  ((p w).1.map f, (p w).2)

/-- One emitter after the other on the same writer, each with its own answer. -/
def run (prog : ι → Emitter τ ε) : List ι → BufferedWriter τ → List (Option ε) × BufferedWriter τ
  | [], w => ([], w)
  | i :: is, w => ((prog i w).1 :: (run prog is (prog i w).2).1, (run prog is (prog i w).2).2)

structure Emits (p : Emitter τ ε) (out : List τ) (e : Option ε) : Prop where
  answer : ∀ w, (p w).1 = e
  stream : ∀ w, (p w).2.stream = w.stream ++ out
  delivered : ∀ w, w.delivered <+: (p w).2.delivered

theorem emits_emit (p : List τ) : Emits (emit p : Emitter τ ε) p none :=
  ⟨fun _ => rfl, fun w => w.stream_write p, fun w => w.delivered_write p⟩

theorem emits_emitByte (b : τ) : Emits (emitByte b : Emitter τ ε) [b] none :=
  ⟨fun _ => rfl, fun w => w.stream_writeByte b, fun w => w.delivered_writeByte b⟩

theorem emits_emitFlush : Emits (emitFlush : Emitter τ ε) [] none :=
  ⟨fun _ => rfl, fun w => w.stream_flush.trans (List.append_nil _).symm, fun w => w.delivered_flush⟩

theorem emits_done : Emits (done : Emitter τ ε) [] none :=
  ⟨fun _ => rfl, fun _ => (List.append_nil _).symm, fun _ => List.prefix_rfl⟩

theorem emits_abort (e : ε) : Emits (abort e : Emitter τ ε) [] (some e) :=
  ⟨fun _ => rfl, fun _ => (List.append_nil _).symm, fun _ => List.prefix_rfl⟩

theorem andThen_of_none {p q : Emitter τ ε} {w : BufferedWriter τ} (h : (p w).1 = none) :
    andThen p q w = q (p w).2 := by
  unfold andThen
  rcases hp : p w with ⟨e, w'⟩
  rw [hp] at h
  cases h
  rfl

theorem andThen_of_some {p q : Emitter τ ε} {w : BufferedWriter τ} {e : ε} (h : (p w).1 = some e) :
    andThen p q w = (some e, (p w).2) := by
  unfold andThen
  rcases hp : p w with ⟨e', w'⟩
  rw [hp] at h
  cases h
  rfl

theorem Emits.andThen {p q : Emitter τ ε} {out out' : List τ} {e : Option ε} (hp : Emits p out none)
    (hq : Emits q out' e) : Emits (p.andThen q) (out ++ out') e := by
  have hrun : ∀ w, p.andThen q w = q (p w).2 := fun w => andThen_of_none (hp.answer w)
  refine ⟨fun w => ?_, fun w => ?_, fun w => ?_⟩
  · rw [hrun, hq.answer]
  · rw [hrun, hq.stream, hp.stream, List.append_assoc]
  · rw [hrun]
    exact (hp.delivered w).trans (hq.delivered _)

theorem Emits.andThen_stop {p : Emitter τ ε} {out : List τ} {e : ε} (hp : Emits p out (some e))
    (q : Emitter τ ε) : Emits (p.andThen q) out (some e) := by
  have hrun : ∀ w, p.andThen q w = (some e, (p w).2) := fun w => andThen_of_some (hp.answer w)
  refine ⟨fun w => ?_, fun w => ?_, fun w => ?_⟩
  · rw [hrun]
  · rw [hrun]
    exact hp.stream w
  · rw [hrun]
    exact hp.delivered w

theorem Emits.wrap {p : Emitter τ ε} {out : List τ} {e : Option ε} (hp : Emits p out e) (f : ε → ε') :
    Emits (p.wrap f) out (e.map f) :=
  ⟨fun w => congrArg (Option.map f) (hp.answer w), hp.stream, hp.delivered⟩

/-! ## Calls on one writer -/

section Run
variable {prog : ι → Emitter τ ε} {out : ι → List τ} {answer : ι → Option ε}

theorem run_answers (is : List ι) (h : ∀ i ∈ is, Emits (prog i) (out i) (answer i))
    (w : BufferedWriter τ) : (run prog is w).1 = is.map answer := by
  induction is generalizing w with
  | nil => rfl
  | cons i is ih =>
    obtain ⟨hi, his⟩ := List.forall_mem_cons.mp h
    rw [run, List.map_cons, ih his, hi.answer]

theorem run_stream (is : List ι) (h : ∀ i ∈ is, Emits (prog i) (out i) (answer i))
    (w : BufferedWriter τ) : (run prog is w).2.stream = w.stream ++ is.flatMap out := by
  induction is generalizing w with
  | nil => exact (List.append_nil _).symm
  | cons i is ih =>
    obtain ⟨hi, his⟩ := List.forall_mem_cons.mp h
    rw [run, ih his, hi.stream, List.flatMap_cons, List.append_assoc]

/-- When every call either leaves the buffer empty or writes nothing, nothing stays behind. -/
theorem run_pending (is : List ι) (h : ∀ i ∈ is, Emits (prog i) (out i) (answer i))
    (hflush : ∀ i ∈ is, (∀ w, (prog i w).2.pending = []) ∨ out i = []) (w : BufferedWriter τ)
    (hw : w.pending = []) : (run prog is w).2.pending = [] := by
  induction is generalizing w with
  | nil => exact hw
  | cons i is ih =>
    obtain ⟨hi, his⟩ := List.forall_mem_cons.mp h
    obtain ⟨hfi, hfis⟩ := List.forall_mem_cons.mp hflush
    apply ih his hfis
    rcases hfi with hfi | hnone
    · exact hfi w
    · have hs := hi.stream w
      rw [hnone, List.append_nil] at hs
      exact BufferedWriter.pending_of_stream_eq hw hs (hi.delivered w)

end Run

end Emitter
end SturmRelay
