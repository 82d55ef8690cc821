import SturmRelay.Protocol.GPGNet

/-! # The language of the GPGNet reader

The grammar of a message, in the order of the bytes, and that `ReadMessage` accepts it and nothing
else. A stream outside the grammar is an error, except where the number of chunks is negative:
`ReadChunks` checks the upper bound only, and allocating a slice of that capacity panics. -/

namespace SturmRelay
namespace GPGNet
set_option autoImplicit false

open StreamReader

/-! ## The grammar -/

def IntField (w : Bytes) (v : Int32) : Prop := w.length = 4 ∧ v = int32LE w

def StringField (w s : Bytes) : Prop :=
  ∃ len n, IntField len n ∧ 0 ≤ n.toInt ∧ n.toInt ≤ maxStringLength ∧ s.length = n.toInt ∧
    w = len ++ s

inductive ChunkField : Bytes → Chunk → Prop
  | int {w : Bytes} {v : Int32} (h : IntField w v) : ChunkField (fieldTypeInt :: w) (.int v)
  | str {ty : UInt8} {w s : Bytes} (hty : ty ≠ fieldTypeInt) (h : StringField w s) :
      ChunkField (ty :: w) (.str (replaceEscapes s))

inductive ChunkFields : Bytes → List Chunk → Prop
  | nil : ChunkFields [] []
  | cons {w ws : Bytes} {c : Chunk} {cs : List Chunk} (h : ChunkField w c) (hs : ChunkFields ws cs) :
      ChunkFields (w ++ ws) (c :: cs)

def ChunksField (w : Bytes) (cs : List Chunk) : Prop :=
  ∃ count n body, IntField count n ∧ 0 ≤ n.toInt ∧ n.toInt ≤ maxChunkSize ∧ cs.length = n.toInt ∧
    ChunkFields body cs ∧ w = count ++ body

def MessageField (w : Bytes) (m : Message) : Prop :=
  ∃ header chunks, StringField header m.header ∧ ChunksField chunks m.chunks ∧ w = header ++ chunks

/-- The stream goes on after its header with a negative number of chunks. -/
def NegativeCount (stream : Bytes) : Prop :=
  ∃ header s count n rest, StringField header s ∧ IntField count n ∧ n.toInt < 0 ∧
    stream = header ++ (count ++ rest)

/-! ## The reader accepts it -/

theorem accepts_readBytes (n : ℕ) : Accepts (readBytes n) fun w s => w.length = n ∧ s = w :=
  accepts_wrap (accepts_readFull n) _

theorem accepts_readInt : Accepts readInt IntField := by
  refine (accepts_bind (accepts_readBytes 4) fun b => accepts_pure (int32LE b)).congr fun w v => ?_
  constructor
  · rintro ⟨w1, w2, b, rfl, ⟨hlen, rfl⟩, rfl, rfl⟩
    rw [List.append_nil]
    exact ⟨hlen, rfl⟩
  · rintro ⟨hlen, rfl⟩
    exact ⟨w, [], w, (List.append_nil w).symm, ⟨hlen, rfl⟩, rfl, rfl⟩

theorem accepts_readString : Accepts readString StringField := by
  refine (accepts_bind (accepts_wrap accepts_readInt _) fun n => accepts_ite
    (fun _ => accepts_fail _) fun _ => accepts_wrap (accepts_readBytes _) _).congr fun w s => ?_
  constructor
  · rintro ⟨len, body, n, rfl, hn, ⟨_, h⟩ | ⟨hrange, hlen, rfl⟩⟩
    · exact h.elim
    · rw [not_or, not_lt, not_lt] at hrange
      exact ⟨len, n, hn, hrange.1, hrange.2, by omega, rfl⟩
  · rintro ⟨len, n, hn, hpos, hmax, hlen, rfl⟩
    refine ⟨len, s, n, rfl, hn, Or.inr ⟨?_, by omega, rfl⟩⟩
    rw [not_or, not_lt, not_lt]
    exact ⟨hpos, hmax⟩

theorem accepts_readChunk : Accepts readChunk ChunkField := by
  refine (accepts_bind (accepts_wrap (accepts_readBytes 1) _) fun ty => accepts_ite
    (fun _ => accepts_bind (accepts_wrap accepts_readInt _) fun v => accepts_pure (Chunk.int v))
    (fun _ => accepts_bind (accepts_wrap accepts_readString _) fun s =>
      accepts_pure (Chunk.str (replaceEscapes s)))).congr fun w c => ?_
  constructor
  · rintro ⟨w1, w2, _, rfl, ⟨hlen, rfl⟩, h⟩
    obtain ⟨ty, rfl⟩ := List.length_eq_one_iff.mp hlen
    rcases h with ⟨hty, w3, w4, v, rfl, hv, rfl, rfl⟩ | ⟨hty, w3, w4, s, rfl, hs, rfl, rfl⟩
    · cases hty
      rw [List.append_nil]
      exact .int hv
    · rw [List.append_nil]
      exact .str (fun h => hty (congrArg (fun b => [b]) h)) hs
  · rintro (⟨hv⟩ | ⟨hty, hs⟩)
    · exact ⟨[_], _, _, rfl, ⟨rfl, rfl⟩, Or.inl ⟨rfl, _, [], _, (List.append_nil _).symm, hv, rfl, rfl⟩⟩
    · refine ⟨[_], _, _, rfl, ⟨rfl, rfl⟩, Or.inr ⟨?_, _, [], _, (List.append_nil _).symm, hs, rfl, rfl⟩⟩
      exact fun h => hty (List.cons.inj h).1

theorem accepts_readChunkList (n : ℕ) :
    Accepts (readChunkList n) fun w cs => cs.length = n ∧ ChunkFields w cs := by
  induction n with
  | zero =>
    refine (accepts_pure []).congr fun w cs => ?_
    constructor
    · rintro ⟨rfl, rfl⟩
      exact ⟨rfl, .nil⟩
    · rintro ⟨hlen, h⟩
      cases h with
      | nil => exact ⟨rfl, rfl⟩
      | cons => cases hlen
  | succ n ih =>
    refine (accepts_bind accepts_readChunk fun c =>
      accepts_bind ih fun cs => accepts_pure (c :: cs)).congr fun w cs => ?_
    constructor
    · rintro ⟨w1, _, c, rfl, hc, w2, _, cs', rfl, ⟨rfl, hcs⟩, rfl, rfl⟩
      rw [List.append_nil]
      exact ⟨rfl, .cons hc hcs⟩
    · rintro ⟨hlen, h⟩
      cases h with
      | nil => cases hlen
      | cons hc hcs =>
        exact ⟨_, _, _, rfl, hc, _, [], _, (List.append_nil _).symm,
          ⟨Nat.succ.inj hlen, hcs⟩, rfl, rfl⟩

theorem accepts_readChunks : Accepts readChunks ChunksField := by
  refine (accepts_bind (accepts_wrap accepts_readInt _) fun n => accepts_ite
    (fun _ => accepts_fail _) fun _ => accepts_ite (fun _ => accepts_fault _)
      fun _ => accepts_readChunkList _).congr fun w cs => ?_
  constructor
  · rintro ⟨count, body, n, rfl, hn, ⟨_, h⟩ | ⟨hmax, ⟨_, h⟩ | ⟨hpos, hlen, hcs⟩⟩⟩
    · exact h.elim
    · exact h.elim
    · exact ⟨count, n, body, hn, by omega, by omega, by omega, hcs, rfl⟩
  · rintro ⟨count, n, body, hn, hpos, hmax, hlen, hcs, rfl⟩
    exact ⟨count, body, n, rfl, hn, Or.inr ⟨by omega, Or.inr ⟨by omega, by omega, hcs⟩⟩⟩

theorem accepts_readMessage : Accepts readMessage MessageField := by
  refine (accepts_bind (accepts_wrap accepts_readString _) fun h =>
    accepts_bind (accepts_wrap accepts_readChunks _) fun cs =>
      accepts_pure (Message.mk h cs)).congr fun w m => ?_
  constructor
  · rintro ⟨w1, _, h, rfl, hh, w2, _, cs, rfl, hcs, rfl, rfl⟩
    rw [List.append_nil]
    exact ⟨w1, w2, hh, hcs, rfl⟩
  · rintro ⟨w1, w2, hh, hcs, rfl⟩
    exact ⟨w1, w2, m.header, rfl, hh, w2, [], m.chunks, (List.append_nil w2).symm, hcs, rfl, rfl⟩

/-! ## Panics -/

theorem neverPanics_readInt : NeverPanics readInt :=
  ((neverPanics_readFull 4).wrap _).bind fun _ => neverPanics_pure _

theorem neverPanics_readString : NeverPanics readString :=
  (neverPanics_readInt.wrap _).bind fun _ =>
    (neverPanics_fail _).ite (((neverPanics_readFull _).wrap _).wrap _)

theorem neverPanics_readChunk : NeverPanics readChunk :=
  (((neverPanics_readFull 1).wrap _).wrap _).bind fun _ =>
    ((neverPanics_readInt.wrap _).bind fun _ => neverPanics_pure _).ite
      ((neverPanics_readString.wrap _).bind fun _ => neverPanics_pure _)

theorem neverPanics_readChunkList (n : ℕ) : NeverPanics (readChunkList n) := by
  induction n with
  | zero => exact neverPanics_pure _
  | succ n ih => exact neverPanics_readChunk.bind fun _ => ih.bind fun _ => neverPanics_pure _

theorem readChunks_eq_panic {s : Bytes} :
    (∃ f, readChunks s = .panic f) ↔
      ∃ count n rest, IntField count n ∧ n.toInt < 0 ∧ s = count ++ rest := by
  constructor
  · rintro ⟨f, h⟩
    rcases bind_eq_panic.mp h with hint | ⟨n, rest, hint, hrest⟩
    · exact absurd hint ((neverPanics_readInt.wrap _) s f)
    · obtain ⟨count, rfl, hn⟩ := (accepts_wrap accepts_readInt _ s n rest).mp hint
      refine ⟨count, n, rest, hn, ?_, rfl⟩
      by_contra hpos
      rw [if_neg hpos] at hrest
      exact (neverPanics_fail _).ite (neverPanics_readChunkList _) rest f hrest
  · rintro ⟨count, n, rest, hn, hneg, rfl⟩
    refine ⟨.makeSlice n.toInt, bind_eq_panic.mpr (Or.inr ⟨n, rest, ?_, ?_⟩)⟩
    · exact (accepts_wrap accepts_readInt _ _ _ _).mpr ⟨count, rfl, hn⟩
    · have hmax : ¬ (maxChunkSize : ℤ) < n.toInt := by omega
      rw [if_neg hmax, if_pos hneg]
      rfl

theorem readMessage_eq_panic {s : Bytes} : (∃ f, readMessage s = .panic f) ↔ NegativeCount s := by
  constructor
  · rintro ⟨f, h⟩
    rcases bind_eq_panic.mp h with hstr | ⟨hd, mid, hstr, hrest⟩
    · exact absurd hstr ((neverPanics_readString.wrap _) s f)
    obtain ⟨header, rfl, hheader⟩ := (accepts_wrap accepts_readString _ s hd mid).mp hstr
    rcases bind_eq_panic.mp hrest with hchunks | ⟨cs, rest, _, hpure⟩
    · obtain ⟨count, n, rest, hn, hneg, rfl⟩ :=
        readChunks_eq_panic.mp ⟨f, wrap_eq_panic.mp hchunks⟩
      exact ⟨header, hd, count, n, rest, hheader, hn, hneg, rfl⟩
    · exact nomatch hpure
  · rintro ⟨header, hd, count, n, rest, hheader, hn, hneg, rfl⟩
    obtain ⟨f, hf⟩ := readChunks_eq_panic.mpr ⟨count, n, rest, hn, hneg, rfl⟩
    refine ⟨f, bind_eq_panic.mpr (Or.inr ⟨hd, count ++ rest, ?_, ?_⟩)⟩
    · exact (accepts_wrap accepts_readString _ _ _ _).mpr ⟨header, rfl, hheader⟩
    · exact bind_eq_panic.mpr (Or.inl (wrap_eq_panic.mpr hf))

/-! ## Exact and total -/

/-- On this stream `ReadMessage` returns a message exactly when the stream begins with one, leaving
what comes after it, and an error otherwise. -/
structure ReadsGrammar (stream : Bytes) : Prop where
  accepts : ∀ m rest, readMessage stream = .ok m rest ↔ ∃ w, stream = w ++ rest ∧ MessageField w m
  rejects : (∀ w rest m, stream = w ++ rest → ¬ MessageField w m) → ∃ e, readMessage stream = .err e

theorem ReadsGrammar.not_panic {stream : Bytes} (h : ReadsGrammar stream) (f : Fault) :
    readMessage stream ≠ .panic f := by
  intro hf
  have hnone : ∀ w rest m, stream = w ++ rest → ¬ MessageField w m := by
    intro w rest m hs hm
    have hok := (h.accepts m rest).mpr ⟨w, hs, hm⟩
    rw [hf] at hok
    cases hok
  obtain ⟨e, he⟩ := h.rejects hnone
  rw [hf] at he
  cases he

theorem readsGrammar_iff (stream : Bytes) : ReadsGrammar stream ↔ ¬ NegativeCount stream := by
  constructor
  · intro h hneg
    obtain ⟨f, hf⟩ := readMessage_eq_panic.mpr hneg
    exact h.not_panic f hf
  · intro hneg
    refine ⟨fun m rest => accepts_readMessage stream m rest, fun hnone => ?_⟩
    cases hr : readMessage stream with
    | ok m rest =>
      obtain ⟨w, hs, hm⟩ := (accepts_readMessage stream m rest).mp hr
      exact absurd hm (hnone w rest m hs)
    | err e => exact ⟨e, rfl⟩
    | panic f => exact absurd (readMessage_eq_panic.mp ⟨f, hr⟩) hneg

/-- An empty header, then the count -1. -/
def minusOneChunks : Bytes := [0x00, 0x00, 0x00, 0x00, 0xFF, 0xFF, 0xFF, 0xFF]

theorem minusOneChunks_not_readsGrammar : ¬ ReadsGrammar minusOneChunks :=
  fun h => h.not_panic (.makeSlice (-1)) (by decide)

end GPGNet
end SturmRelay
