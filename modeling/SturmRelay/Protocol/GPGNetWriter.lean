import SturmRelay.Protocol.GPGNet
import Mathlib.Algebra.Order.BigOperators.Group.List

/-! # What the GPGNet writer puts on the wire

`WriteMessage` emits a message piece by piece into the buffer and looks at each argument when it
comes to it. A call ends in one of three ways (`Written`): the message is encoded, the header is
refused before the first byte, or the call fails in the middle and what it has emitted stays in the
buffer, in front of the next message. -/

namespace SturmRelay
namespace GPGNet
set_option autoImplicit false

open Emitter

/-! ## Encodings -/

/-- The field an argument is written as; none for an unsupported type. -/
def Arg.chunk (platform : UInt64 → Int32) : Arg → Option Chunk
  | .int v => some (.int v.toInt32)
  | .int32 v => some (.int v)
  | .uint16 v => some (.int (Int32.ofNat v.toNat))
  | .uint32 v => some (.int v.toInt32)
  | .float64 bits => some (.int (float64ToInt32 platform bits))
  | .string s => some (.str s)
  | .other _ => none

def encodeString (s : Bytes) : Bytes := putInt32LE (Int32.ofNat s.length) ++ s

def encodeChunk : Chunk → Bytes
  | .int v => fieldTypeInt :: putInt32LE v
  | .str s => fieldTypeString :: encodeString s

def encodeArgs (platform : UInt64 → Int32) (args : List Arg) : Bytes :=
  (args.filterMap (Arg.chunk platform)).flatMap encodeChunk

def encode (platform : UInt64 → Int32) (m : Outgoing) : Bytes :=
  encodeString m.header ++ (putInt32LE (Int32.ofNat m.args.length) ++ encodeArgs platform m.args)

/-- The arguments the writer accepts. -/
def Arg.Encodable : Arg → Prop
  | .string s => s.length ≤ maxStringLength
  | .other _ => False
  | _ => True

/-- The calls that write all of their message or none of it. -/
def Outgoing.Atomic (m : Outgoing) : Prop :=
  maxStringLength < m.header.length ∨ ∀ a ∈ m.args, a.Encodable

/-! ## One call -/

section OneCall
variable (platform : UInt64 → Int32)

theorem emits_writeString {s : Bytes} (h : s.length ≤ maxStringLength) :
    Emits (writeString s) (encodeString s) none := by
  rw [writeString, if_neg (Nat.not_lt.mpr h)]
  exact (emits_emit _).andThen (emits_emit s)

theorem emits_writeString_tooLong {s : Bytes} (h : maxStringLength < s.length) :
    Emits (writeString s) [] (some (.stringTooLong s.length)) := by
  rw [writeString, if_pos h]
  exact emits_abort _

theorem emits_intField (v : Int32) :
    Emits ((emitByte fieldTypeInt).andThen (writeInt v)) (encodeChunk (.int v)) none :=
  (emits_emitByte fieldTypeInt).andThen (emits_emit _)

theorem emits_writeArg {a : Arg} (h : a.Encodable) :
    ∃ c, a.chunk platform = some c ∧ Emits (writeArg platform a) (encodeChunk c) none := by
  cases a with
  | int v => exact ⟨_, rfl, emits_intField _⟩
  | int32 v => exact ⟨_, rfl, emits_intField _⟩
  | uint16 v => exact ⟨_, rfl, emits_intField _⟩
  | uint32 v => exact ⟨_, rfl, emits_intField v.toInt32⟩
  | float64 bits => exact ⟨_, rfl, emits_intField _⟩
  | string s => exact ⟨_, rfl, (emits_emitByte fieldTypeString).andThen (emits_writeString h)⟩
  | other ty => exact h.elim

theorem emits_writeArg_stop {a : Arg} (h : ¬ a.Encodable) :
    ∃ out e, Emits (writeArg platform a) out (some e) := by
  cases a with
  | string s =>
    -- The type byte is out before the length is looked at.
    have hlong := emits_writeString_tooLong (Nat.not_le.mp h)
    exact ⟨_, _, (emits_emitByte fieldTypeString).andThen hlong⟩
  | other ty => exact ⟨_, _, emits_abort _⟩
  | _ => exact absurd trivial h

theorem emits_writeArgList {args : List Arg} (h : ∀ a ∈ args, a.Encodable) :
    Emits (writeArgList platform args) (encodeArgs platform args) none := by
  induction args with
  | nil => exact emits_done
  | cons a args ih =>
    obtain ⟨c, hc, ha⟩ := emits_writeArg platform (h a List.mem_cons_self)
    have hrest := ih fun b hb => h b (List.mem_cons_of_mem a hb)
    rw [encodeArgs, List.filterMap_cons_some hc, List.flatMap_cons]
    exact ha.andThen hrest

theorem emits_writeArgList_stop {args : List Arg} (h : ¬ ∀ a ∈ args, a.Encodable) :
    ∃ out e, Emits (writeArgList platform args) out (some e) := by
  induction args with
  | nil => exact absurd (fun a ha => nomatch ha) h
  | cons a args ih =>
    by_cases ha : a.Encodable
    · have hargs : ¬ ∀ b ∈ args, b.Encodable := fun hall => h (List.forall_mem_cons.mpr ⟨ha, hall⟩)
      obtain ⟨c, _, hemit⟩ := emits_writeArg platform ha
      obtain ⟨out, e, hstop⟩ := ih hargs
      exact ⟨_, e, hemit.andThen hstop⟩
    · obtain ⟨out, e, hstop⟩ := emits_writeArg_stop platform ha
      exact ⟨out, e, hstop.andThen_stop _⟩

theorem emits_writeMessage {m : Outgoing} (hheader : m.header.length ≤ maxStringLength)
    (hargs : ∀ a ∈ m.args, a.Encodable) :
    Emits (writeMessage platform m) (encode platform m) none ∧
      ∀ w, (writeMessage platform m w).2.pending = [] := by
  have hstr := (emits_writeString hheader).wrap WriteError.messageHeader
  have hbody : Emits (writeArgs platform m.args) _ none :=
    (emits_emit _).andThen (emits_writeArgList platform hargs)
  have hbody' := hbody.wrap WriteError.messageArgs
  have hall := hstr.andThen (hbody'.andThen emits_emitFlush)
  rw [List.append_nil] at hall
  refine ⟨hall, fun w => ?_⟩
  rw [writeMessage, andThen_of_none (hstr.answer w), andThen_of_none (hbody'.answer _)]
  rfl

/-- The three ways a call can end, with what it adds to the stream and its answer. -/
inductive Written (platform : UInt64 → Int32) (m : Outgoing) : Bytes → Option WriteError → Prop
  | encoded (hargs : ∀ a ∈ m.args, a.Encodable)
      (hflush : ∀ w, (writeMessage platform m w).2.pending = []) :
      Written platform m (encode platform m) none
  | refused (e : WriteError) (hlong : maxStringLength < m.header.length) :
      Written platform m [] (some e)
  | torn (out : Bytes) (e : WriteError) (hatomic : ¬ m.Atomic) (hout : out ≠ []) :
      Written platform m out (some e)

theorem writeMessage_written (platform : UInt64 → Int32) (m : Outgoing) :
    ∃ out e, Emits (writeMessage platform m) out e ∧ Written platform m out e := by
  by_cases hlong : maxStringLength < m.header.length
  · have hstop := (emits_writeString_tooLong hlong).wrap WriteError.messageHeader
    exact ⟨_, _, hstop.andThen_stop _, .refused _ hlong⟩
  by_cases hargs : ∀ a ∈ m.args, a.Encodable
  · obtain ⟨hemit, hflush⟩ := emits_writeMessage platform (Nat.not_lt.mp hlong) hargs
    exact ⟨_, _, hemit, .encoded hargs hflush⟩
  · obtain ⟨out, e, hstop⟩ := emits_writeArgList_stop platform hargs
    have hbody : Emits (writeArgs platform m.args) _ (some e) := (emits_emit _).andThen hstop
    have hheader := (emits_writeString (Nat.not_lt.mp hlong)).wrap WriteError.messageHeader
    have hall := hheader.andThen ((hbody.wrap WriteError.messageArgs).andThen_stop emitFlush)
    refine ⟨_, _, hall, .torn _ _ (not_or.mpr ⟨hlong, hargs⟩) ?_⟩
    -- The length of the header and the number of arguments are out already.
    exact List.append_ne_nil_of_left_ne_nil (List.cons_ne_nil _ _) _

end OneCall

/-! ## Calls on one writer -/

/-- The calls that returned nil. -/
def accepted (platform : UInt64 → Int32) (size : ℕ+) (calls : List Outgoing) : List Outgoing :=
  ((calls.zip (writeMessages platform size calls).1).filter fun c => c.2.isNone).map Prod.fst

/-- The connection has the encodings of the accepted messages and nothing else, and another flush
adds nothing. -/
structure Intact (platform : UInt64 → Int32) (size : ℕ+) (calls : List Outgoing) : Prop where
  delivered : (writeMessages platform size calls).2.delivered =
    (accepted platform size calls).flatMap (encode platform)
  flushed : (writeMessages platform size calls).2.flush.delivered =
    (accepted platform size calls).flatMap (encode platform)

/-- What a call with this answer has to add to the stream. -/
def owed (platform : UInt64 → Int32) (m : Outgoing) (e : Option WriteError) : Bytes :=
  if e.isNone then encode platform m else []

section Calls
variable {platform : UInt64 → Int32} {out : Outgoing → Bytes} {answer : Outgoing → Option WriteError}

theorem accepted_encodings (h : ∀ m, Emits (writeMessage platform m) (out m) (answer m))
    (size : ℕ+) (calls : List Outgoing) :
    (accepted platform size calls).flatMap (encode platform) =
      calls.flatMap fun m => owed platform m (answer m) := by
  rw [accepted, writeMessages, run_answers calls fun m _ => h m]
  induction calls with
  | nil => rfl
  | cons m calls ih =>
    rw [List.map_cons, List.zip_cons_cons, List.filter_cons, List.flatMap_cons, ← ih, owed]
    split <;> rfl

theorem Written.eq_owed {m : Outgoing} {bs : Bytes} {e : Option WriteError}
    (hw : Written platform m bs e) (h : m.Atomic) : bs = owed platform m e := by
  cases hw with
  | encoded => rfl
  | refused => rfl
  | torn _ _ hatomic _ => exact absurd h hatomic

theorem Written.flushed {m : Outgoing} {bs : Bytes} {e : Option WriteError}
    (hw : Written platform m bs e) (h : m.Atomic) :
    (∀ w, (writeMessage platform m w).2.pending = []) ∨ bs = [] := by
  cases hw with
  | encoded _ hflush => exact Or.inl hflush
  | refused => exact Or.inr rfl
  | torn _ _ hatomic _ => exact absurd h hatomic

theorem Written.owed_le {m : Outgoing} {bs : Bytes} {e : Option WriteError}
    (hw : Written platform m bs e) : (owed platform m e).length ≤ bs.length := by
  cases hw with
  | encoded => exact le_rfl
  | refused => exact le_rfl
  | torn => exact Nat.zero_le _

theorem Written.atomic {m : Outgoing} {bs : Bytes} {e : Option WriteError}
    (hw : Written platform m bs e) (h : bs.length = (owed platform m e).length) : m.Atomic := by
  cases hw with
  | encoded hargs _ => exact Or.inr hargs
  | refused _ hlong => exact Or.inl hlong
  | torn _ _ _ hout => exact absurd (List.eq_nil_of_length_eq_zero h) hout

/-- No call adds less than it owes, so in a stream of the right length no call adds more. -/
theorem atomic_of_length_eq (hw : ∀ m, Written platform m (out m) (answer m))
    (calls : List Outgoing) (h : (calls.flatMap out).length =
      (calls.flatMap fun m => owed platform m (answer m)).length) : ∀ m ∈ calls, m.Atomic := by
  have hle : ∀ ms : List Outgoing, (ms.flatMap fun m => owed platform m (answer m)).length ≤
      (ms.flatMap out).length := by
    intro ms
    rw [List.length_flatMap, List.length_flatMap]
    exact List.sum_le_sum fun m _ => (hw m).owed_le
  induction calls with
  | nil => exact fun m hm => nomatch hm
  | cons m calls ih =>
    have hm := (hw m).owed_le
    have hcalls := hle calls
    rw [List.flatMap_cons, List.flatMap_cons, List.length_append, List.length_append] at h
    exact List.forall_mem_cons.mpr ⟨(hw m).atomic (by omega), ih (by omega)⟩

end Calls

/-- A writer keeps the stream intact exactly when no call fails after its header has been
accepted. -/
theorem intact_iff (platform : UInt64 → Int32) (size : ℕ+) (calls : List Outgoing) :
    Intact platform size calls ↔ ∀ m ∈ calls, m.Atomic := by
  choose out answer hemit hw using writeMessage_written platform
  have hstream : (writeMessages platform size calls).2.stream = calls.flatMap out :=
    run_stream calls (fun m _ => hemit m) (BufferedWriter.new UInt8 size)
  have hencodings := accepted_encodings hemit size calls
  constructor
  · intro h
    apply atomic_of_length_eq hw calls
    rw [← hstream, ← hencodings, ← h.flushed]
    rfl
  · intro hatomic
    have howed : calls.flatMap out = calls.flatMap fun m => owed platform m (answer m) :=
      List.flatMap_congr fun m hm => (hw m).eq_owed (hatomic m hm)
    have hpending : (writeMessages platform size calls).2.pending = [] :=
      run_pending calls (fun m _ => hemit m) (fun m hm => (hw m).flushed (hatomic m hm)) _ rfl
    have hflushed : (writeMessages platform size calls).2.flush.delivered =
        (accepted platform size calls).flatMap (encode platform) := by
      rw [hencodings, ← howed]
      exact hstream
    refine ⟨?_, hflushed⟩
    rw [← BufferedWriter.stream_of_pending hpending]
    exact hflushed

/-- A JSON `true` for the game, and a good message after it. -/
def boolThenGood : List Outgoing := [⟨[0x41], [.other "bool"]⟩, ⟨[0x42], []⟩]

theorem boolThenGood_not_intact : ¬ Intact (fun _ => 0) 4096 boolThenGood := by
  intro h
  exact absurd h.delivered (by decide)

end GPGNet
end SturmRelay
