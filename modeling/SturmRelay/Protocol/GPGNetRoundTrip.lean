import SturmRelay.Protocol.GPGNetGrammar
import SturmRelay.Protocol.GPGNetWriter

/-! # GPGNet writer and reader agree

What `WriteMessage` encodes is in the grammar of `ReadMessage`, so streams of messages read back,
up to the escapes that the reader replaces and the writer does not restore. A message that was
read has none left, and reads back as it is. -/

namespace SturmRelay
namespace GPGNet
set_option autoImplicit false

open Emitter

/-! ## Escapes -/

/-- The bytes `a b` are nowhere next to each other. -/
def Free (a b : UInt8) (s : Bytes) : Prop := s.IsChain fun x y => ¬ (x = a ∧ y = b)

section Escapes
variable {a b c : UInt8}

theorem length_replacePair_le (s : Bytes) : (replacePair a b c s).length ≤ s.length := by
  fun_induction replacePair a b c s with
  | case1 x y s _ ih =>
    simp only [List.length_cons]
    omega
  | case2 x y s _ ih =>
    simp only [List.length_cons] at ih ⊢
    omega
  | case3 s => exact le_rfl

theorem replacePair_of_free {s : Bytes} (h : Free a b s) : replacePair a b c s = s := by
  fun_induction replacePair a b c s with
  | case1 x y s hxy ih => exact absurd hxy (List.isChain_cons_cons.mp h).1
  | case2 x y s _ ih => rw [ih (List.isChain_cons_cons.mp h).2]
  | case3 s => rfl

theorem head_replacePair {s : Bytes} {z : UInt8} (h : z ∈ (replacePair a b c s).head?) :
    z = c ∨ z ∈ s.head? := by
  fun_cases replacePair a b c s with
  | case1 x y s hxy =>
    rw [replacePair, if_pos hxy] at h
    exact Or.inl (Option.mem_some.mp h).symm
  | case2 x y s hxy =>
    rw [replacePair, if_neg hxy] at h
    exact Or.inr h
  | case3 s hs =>
    rw [replacePair] at h
    · exact Or.inr h
    · exact hs

/-- Every pair of neighbours in the result was there before, and was not replaced, or has the new
byte in it. -/
theorem isChain_replacePair {R : UInt8 → UInt8 → Prop} (hl : ∀ x, R x c) (hr : ∀ y, R c y) {s : Bytes}
    (h : s.IsChain fun x y => ¬ (x = a ∧ y = b) → R x y) : (replacePair a b c s).IsChain R := by
  fun_induction replacePair a b c s with
  | case1 x y s _ ih =>
    have hs := (List.isChain_cons_cons.mp h).2.tail
    exact List.isChain_cons.mpr ⟨fun z _ => hr z, ih hs⟩
  | case2 x y s hxy ih =>
    obtain ⟨hR, hs⟩ := List.isChain_cons_cons.mp h
    refine List.isChain_cons.mpr ⟨fun z hz => ?_, ih hs⟩
    rcases head_replacePair hz with rfl | hz
    · exact hl x
    · cases hz
      exact hR hxy
  | case3 s hs =>
    match s, hs with
    | [], _ => exact .nil
    | [x], _ => exact .singleton x
    | x :: y :: s, hs => exact (hs x y s rfl).elim

theorem free_replacePair (ha : c ≠ a) (hb : c ≠ b) (s : Bytes) : Free a b (replacePair a b c s) :=
  isChain_replacePair (fun _ h => hb h.2) (fun _ h => ha h.1)
    ((List.isChain_isInfix s).imp fun _ _ _ h => h)

theorem Free.replacePair {s : Bytes} (h : Free a b s) (ha : c ≠ a) (hb : c ≠ b) (a' b' : UInt8) :
    Free a b (replacePair a' b' c s) :=
  isChain_replacePair (fun _ h => hb h.2) (fun _ h => ha h.1) (h.imp fun _ _ hxy _ => hxy)

theorem length_replaceEscapes_le (s : Bytes) : (replaceEscapes s).length ≤ s.length :=
  (length_replacePair_le _).trans (length_replacePair_le s)

/-- The second pass makes no pair for the first one, so replacing twice changes nothing. -/
theorem replaceEscapes_replaceEscapes (s : Bytes) :
    replaceEscapes (replaceEscapes s) = replaceEscapes s := by
  have htab : Free 0x2F 0x74 (replaceEscapes s) :=
    (free_replacePair (by decide) (by decide) s).replacePair (by decide) (by decide) _ _
  have hline : Free 0x2F 0x6E (replaceEscapes s) := free_replacePair (by decide) (by decide) _
  rw [replaceEscapes, replacePair_of_free htab, replacePair_of_free hline]

end Escapes

/-! ## Encodings are in the grammar -/

/-- How a field reads back. -/
def Chunk.normal : Chunk → Chunk
  | .int v => .int v
  | .str s => .str (replaceEscapes s)

/-- The fields that can be written. -/
def Chunk.Short : Chunk → Prop
  | .int _ => True
  | .str s => s.length ≤ maxStringLength

theorem toInt_ofNat_of_le {n : ℕ} (h : n ≤ maxStringLength) : (Int32.ofNat n).toInt = n :=
  Int32.toInt_ofNat_of_lt (lt_of_le_of_lt h (by decide))

theorem intField_put (v : Int32) : IntField (putInt32LE v) v :=
  ⟨length_putInt32LE v, (int32LE_putInt32LE v).symm⟩

theorem stringField_encode {s : Bytes} (h : s.length ≤ maxStringLength) :
    StringField (encodeString s) s := by
  have hn := toInt_ofNat_of_le h
  exact ⟨_, _, intField_put _, by omega, by omega, by omega, rfl⟩

theorem chunkField_encode {c : Chunk} (h : c.Short) : ChunkField (encodeChunk c) c.normal := by
  cases c with
  | int v => exact .int (intField_put v)
  | str s => exact .str (by decide) (stringField_encode h)

theorem chunkFields_encode {cs : List Chunk} (h : ∀ c ∈ cs, c.Short) :
    ChunkFields (cs.flatMap encodeChunk) (cs.map Chunk.normal) := by
  induction cs with
  | nil => exact .nil
  | cons c cs ih =>
    obtain ⟨hc, hcs⟩ := List.forall_mem_cons.mp h
    exact .cons (chunkField_encode hc) (ih hcs)

section Encode
variable (platform : UInt64 → Int32)

theorem Arg.Encodable.chunk_short {a : Arg} (h : a.Encodable) :
    ∃ c, a.chunk platform = some c ∧ c.Short := by
  cases a with
  | string s => exact ⟨_, rfl, h⟩
  | other ty => exact h.elim
  | _ => exact ⟨_, rfl, trivial⟩

/-- The message that `m` reads back as. -/
def Outgoing.received (m : Outgoing) : Message :=
  ⟨m.header, (m.args.filterMap (Arg.chunk platform)).map Chunk.normal⟩

theorem length_chunks {args : List Arg} (h : ∀ a ∈ args, a.Encodable) :
    (args.filterMap (Arg.chunk platform)).length = args.length := by
  rw [List.length_filterMap_eq_countP, List.countP_eq_length]
  intro a ha
  obtain ⟨c, hc, _⟩ := (h a ha).chunk_short platform
  rw [hc]
  rfl

theorem messageField_encode {m : Outgoing} (hheader : m.header.length ≤ maxStringLength)
    (hcount : m.args.length ≤ maxChunkSize) (hargs : ∀ a ∈ m.args, a.Encodable) :
    MessageField (encode platform m) (m.received platform) := by
  have hn : (Int32.ofNat m.args.length).toInt = m.args.length :=
    toInt_ofNat_of_le (hcount.trans (by decide))
  have hlen : (m.received platform).chunks.length = m.args.length :=
    (List.length_map _).trans (length_chunks platform hargs)
  have hshort : ∀ c ∈ m.args.filterMap (Arg.chunk platform), c.Short := by
    intro c hc
    obtain ⟨a, ha, hac⟩ := List.mem_filterMap.mp hc
    obtain ⟨c', hc', hs⟩ := (hargs a ha).chunk_short platform
    rw [hac] at hc'
    cases hc'
    exact hs
  refine ⟨_, _, stringField_encode hheader, ⟨_, _, _, intField_put _, ?_, ?_, ?_,
    chunkFields_encode hshort, rfl⟩, rfl⟩
  · omega
  · omega
  · omega

theorem readMessage_encode {m : Outgoing} (hheader : m.header.length ≤ maxStringLength)
    (hcount : m.args.length ≤ maxChunkSize) (hargs : ∀ a ∈ m.args, a.Encodable) (rest : Bytes) :
    readMessage (encode platform m ++ rest) = .ok (m.received platform) rest :=
  (accepts_readMessage _ _ _).mpr ⟨_, rfl, messageField_encode platform hheader hcount hargs⟩

theorem writeMessages_encode (size : ℕ+) {msgs : List Outgoing}
    (hheader : ∀ m ∈ msgs, m.header.length ≤ maxStringLength)
    (hargs : ∀ m ∈ msgs, ∀ a ∈ m.args, a.Encodable) :
    (writeMessages platform size msgs).1 = msgs.map (fun _ => none) ∧
      (writeMessages platform size msgs).2.delivered = msgs.flatMap (encode platform) := by
  have hemit := fun m hm => emits_writeMessage platform (hheader m hm) (hargs m hm)
  have hpending : (writeMessages platform size msgs).2.pending = [] :=
    run_pending msgs (fun m hm => (hemit m hm).1) (fun m hm => Or.inl (hemit m hm).2) _ rfl
  refine ⟨run_answers msgs (fun m hm => (hemit m hm).1) _, ?_⟩
  rw [← BufferedWriter.stream_of_pending hpending]
  exact run_stream msgs (fun m hm => (hemit m hm).1) _

end Encode

/-! ## Messages of plain arguments -/

/-- The arguments with an exact normal form: integers and strings that fit. -/
def Arg.Plain : Arg → Prop
  | .string s => s.length ≤ maxStringLength
  | .float64 _ => False
  | .other _ => False
  | _ => True

/-- Integers by their value modulo `2 ^ 32` as `int32`, strings with escapes replaced. -/
def Arg.normalForm : Arg → Option Chunk
  | .int v => some (.int (Int32.ofInt v.toInt))
  | .int32 v => some (.int (Int32.ofInt v.toInt))
  | .uint16 v => some (.int (Int32.ofInt v.toNat))
  | .uint32 v => some (.int (Int32.ofInt v.toNat))
  | .string s => some (.str (replaceEscapes s))
  | .float64 _ => none
  | .other _ => none

structure Outgoing.Plain (m : Outgoing) : Prop where
  header : m.header.length ≤ maxStringLength
  count : m.args.length ≤ maxChunkSize
  args : ∀ a ∈ m.args, a.Plain

/-- The message `r` is `m` with its arguments in normal form. -/
structure ReadAs (m : Outgoing) (r : Message) : Prop where
  header : r.header = m.header
  chunks : r.chunks.map some = m.args.map Arg.normalForm

/-- The messages are all written and read back in order, and that is all there is to read: another
`ReadMessage` finds the end of the stream. -/
structure ReadsBack (platform : UInt64 → Int32) (size : ℕ+) (msgs : List Outgoing) : Prop where
  written : (writeMessages platform size msgs).1 = msgs.map fun _ => none
  read : ∃ read : List Message, List.Forall₂ ReadAs msgs read ∧
    readMessages msgs.length (writeMessages platform size msgs).2.delivered = (read, .ok () []) ∧
    ∀ n, msgs.length < n → readMessages n (writeMessages platform size msgs).2.delivered =
      (read, .err (.messageHeader (.stringLength (.io .eof))))

section Plain
variable (platform : UInt64 → Int32)

theorem Arg.Plain.encodable {a : Arg} (h : a.Plain) : a.Encodable := by
  cases a with
  | string s => exact h
  | float64 bits => exact h.elim
  | other ty => exact h.elim
  | _ => trivial

theorem toInt32_eq_ofInt (v : UInt32) : v.toInt32 = Int32.ofInt v.toNat := by
  apply Int32.toBitVec_inj.mp
  change v.toBitVec = BitVec.ofInt 32 v.toBitVec.toNat
  rw [BitVec.ofInt_natCast, BitVec.ofNat_toNat, BitVec.setWidth_eq]

theorem Arg.Plain.normal_chunk {a : Arg} (h : a.Plain) :
    (a.chunk platform).map Chunk.normal = a.normalForm := by
  cases a with
  | int v => exact congrArg (fun n => some (Chunk.int n)) (Int32.ofInt_int64ToInt v).symm
  | int32 v => exact congrArg (fun n => some (Chunk.int n)) (Int32.ofInt_toInt v).symm
  | uint16 v => rfl
  | uint32 v => exact congrArg (fun n => some (Chunk.int n)) (toInt32_eq_ofInt v)
  | string s => rfl
  | float64 bits => exact h.elim
  | other ty => exact h.elim

theorem Outgoing.Plain.readAs {m : Outgoing} (h : m.Plain) : ReadAs m (m.received platform) := by
  refine ⟨rfl, ?_⟩
  obtain ⟨header, args⟩ := m
  change ((args.filterMap (Arg.chunk platform)).map Chunk.normal).map some = args.map Arg.normalForm
  have hargs : ∀ a ∈ args, a.Plain := h.args
  clear h
  induction args with
  | nil => rfl
  | cons a args ih =>
    obtain ⟨ha, has⟩ := List.forall_mem_cons.mp hargs
    obtain ⟨c, hc, _⟩ := ha.encodable.chunk_short platform
    have hnormal := ha.normal_chunk platform
    rw [hc] at hnormal
    rw [List.filterMap_cons_some hc, List.map_cons, List.map_cons, List.map_cons, ih has, ← hnormal]
    rfl

theorem readMessages_encode {msgs : List Outgoing} (h : ∀ m ∈ msgs, m.Plain) (k : ℕ) (rest : Bytes) :
    readMessages (msgs.length + k) (msgs.flatMap (encode platform) ++ rest) =
      (msgs.map (Outgoing.received platform) ++ (readMessages k rest).1, (readMessages k rest).2) := by
  induction msgs with
  | nil => simp
  | cons m msgs ih =>
    obtain ⟨hm, hmsgs⟩ := List.forall_mem_cons.mp h
    have hread := readMessage_encode platform hm.header hm.count
      (fun a ha => (hm.args a ha).encodable) (msgs.flatMap (encode platform) ++ rest)
    rw [List.length_cons, Nat.add_right_comm, List.flatMap_cons, List.append_assoc, readMessages, hread]
    simp only [ih hmsgs]
    rfl

theorem readsBack_of_plain (size : ℕ+) {msgs : List Outgoing} (h : ∀ m ∈ msgs, m.Plain) :
    ReadsBack platform size msgs := by
  obtain ⟨hwritten, hdelivered⟩ := writeMessages_encode platform size (fun m hm => (h m hm).header)
    fun m hm a ha => ((h m hm).args a ha).encodable
  refine ⟨hwritten, msgs.map (Outgoing.received platform), ?_, ?_, ?_⟩
  · exact List.forall₂_map_right_iff.mpr (List.forall₂_same.mpr fun m hm => (h m hm).readAs platform)
  · have hread := readMessages_encode platform h 0 []
    rw [List.append_nil, ← hdelivered] at hread
    exact hread.trans (by rw [readMessages, List.append_nil])
  · intro n hn
    obtain ⟨k, rfl⟩ := Nat.exists_eq_add_of_lt hn
    have hread := readMessages_encode platform h (k + 1) []
    rw [List.append_nil, ← hdelivered] at hread
    refine hread.trans ?_
    change (_ ++ [], _) = _
    rw [List.append_nil]
    rfl

end Plain

/-! ## Messages that were read -/

def Chunk.arg : Chunk → Arg
  | .int v => .int32 v
  | .str s => .string s

/-- A message that was read, as the arguments of `WriteMessage`. -/
def Message.outgoing (m : Message) : Outgoing := ⟨m.header, m.chunks.map Chunk.arg⟩

/-- The message can be written, and reads back as it is. -/
structure Rewritable (platform : UInt64 → Int32) (size : ℕ+) (m : Message) : Prop where
  written : (writeMessages platform size [m.outgoing]).1 = [none]
  read : readMessage (writeMessages platform size [m.outgoing]).2.delivered = .ok m []

section Received
variable (platform : UInt64 → Int32)

theorem StringField.length_le {w s : Bytes} (h : StringField w s) : s.length ≤ maxStringLength := by
  obtain ⟨_, n, _, _, hmax, hlen, _⟩ := h
  omega

theorem ChunkField.stable {w : Bytes} {c : Chunk} (h : ChunkField w c) : c.Short ∧ c.normal = c := by
  cases h with
  | int => exact ⟨trivial, rfl⟩
  | str _ hs =>
    exact ⟨(length_replaceEscapes_le _).trans hs.length_le,
      congrArg Chunk.str (replaceEscapes_replaceEscapes _)⟩

theorem ChunkFields.stable {w : Bytes} {cs : List Chunk} (h : ChunkFields w cs) :
    ∀ c ∈ cs, c.Short ∧ c.normal = c := by
  induction h with
  | nil => exact fun c hc => nomatch hc
  | cons hc _ ih => exact List.forall_mem_cons.mpr ⟨hc.stable, ih⟩

theorem Chunk.Short.encodable {c : Chunk} (h : c.Short) : c.arg.Encodable := by
  cases c with
  | int v => trivial
  | str s => exact h

theorem filterMap_arg (cs : List Chunk) :
    (cs.map Chunk.arg).filterMap (Arg.chunk platform) = cs := by
  induction cs with
  | nil => rfl
  | cons c cs ih =>
    cases c with
    | int v => exact congrArg (Chunk.int v :: ·) ih
    | str s => exact congrArg (Chunk.str s :: ·) ih

theorem received_outgoing {m : Message} (h : ∀ c ∈ m.chunks, c.normal = c) :
    m.outgoing.received platform = m := by
  have hchunks : (m.chunks.map Chunk.normal) = m.chunks :=
    (List.map_congr_left h).trans (List.map_id _)
  rw [Outgoing.received, Message.outgoing, filterMap_arg, hchunks]

theorem rewritable_of_read (size : ℕ+) {stream rest : Bytes} {m : Message}
    (h : readMessage stream = .ok m rest) : Rewritable platform size m := by
  obtain ⟨_, _, hm⟩ := (accepts_readMessage stream m rest).mp h
  obtain ⟨_, _, hheader, ⟨_, n, _, _, _, hmax, hlen, hchunks, _⟩, _⟩ := hm
  have hstable := hchunks.stable
  have hle : m.outgoing.header.length ≤ maxStringLength := hheader.length_le
  have hcount : m.outgoing.args.length ≤ maxChunkSize := by
    rw [Message.outgoing, List.length_map]
    omega
  have hargs : ∀ a ∈ m.outgoing.args, a.Encodable := by
    intro a ha
    obtain ⟨c, hc, rfl⟩ := List.mem_map.mp ha
    exact (hstable c hc).1.encodable
  obtain ⟨hwritten, hdelivered⟩ := writeMessages_encode platform size
    (List.forall_mem_singleton.mpr hle) (List.forall_mem_singleton.mpr hargs)
  refine ⟨hwritten, ?_⟩
  rw [hdelivered, List.flatMap_singleton, ← List.append_nil (encode _ _),
    readMessage_encode platform hle hcount hargs, received_outgoing platform fun c hc => (hstable c hc).2]

end Received

/-- Encoding and decoding agree: plain messages read back in normal form, and what was read can be
written and read again. -/
theorem messages_roundTrip (platform : UInt64 → Int32) (size : ℕ+) :
    (∀ msgs : List Outgoing, (∀ m ∈ msgs, m.Plain) → ReadsBack platform size msgs) ∧
    ∀ (stream rest : Bytes) (m : Message), readMessage stream = .ok m rest →
      Rewritable platform size m :=
  ⟨fun _ h => readsBack_of_plain platform size h,
    fun _ _ _ h => rewritable_of_read platform size h⟩

/-- A chat line with an escape in it, and a negative number given as `uint32`. -/
def chatLine : Outgoing := ⟨[0x43], [.string [0x61, 0x2F, 0x6E], .uint32 0xFFFFFFFF]⟩

theorem chatLine_roundTrip : ReadsBack (fun _ => 0) 4096 [chatLine, chatLine] ∧
    Rewritable (fun _ => 0) 4096 ⟨[0x43], [.str [0x61, 0x0A], .int (-1)]⟩ := by
  have hplain : chatLine.Plain := ⟨by decide, by decide, List.forall_mem_cons.mpr
    ⟨show 3 ≤ maxStringLength by decide, List.forall_mem_singleton.mpr trivial⟩⟩
  constructor
  · apply (messages_roundTrip (fun _ => 0) 4096).1
    exact List.forall_mem_cons.mpr ⟨hplain, List.forall_mem_singleton.mpr hplain⟩
  · apply (messages_roundTrip (fun _ => 0) 4096).2 (encode (fun _ => 0) chatLine) []
    decide

end GPGNet
end SturmRelay
