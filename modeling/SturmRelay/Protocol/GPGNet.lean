import SturmRelay.Foundations.BufferedWriter
import SturmRelay.Foundations.StreamReader
import Mathlib.Data.List.Chain
import Mathlib.Tactic.Cases

/-! # GPGNet messages

`internal/protocol/gpgnet.go`: the messages between the adapter and the game, read from and
written to a byte stream. Integers are little-endian `int32`, strings are byte strings with their
length in front.

* `make` with a negative capacity panics; everything else that is wrong with a stream is an error.
* The connection takes all bytes, so `bufio.Writer` never fails.
* What a `float64` out of range becomes as an `int32` is left to the implementation by the language:
  the parameter `platform`. -/

namespace SturmRelay
namespace GPGNet
set_option autoImplicit false

def fieldTypeInt : UInt8 := 0x00
def fieldTypeString : UInt8 := 0x01

def maxChunkSize : ℕ := 10
def maxStringLength : ℕ := 65535

/-- A decoded field, `int32` or `string`. -/
inductive Chunk
  | int (v : Int32)
  | str (s : Bytes)
  deriving DecidableEq, Repr

structure Message where
  header : Bytes
  chunks : List Chunk
  deriving DecidableEq, Repr

/-! ## Integers -/

def int32LE (b : Bytes) : Int32 := (UInt32.ofNat (leDecode b)).toInt32

def putInt32LE (v : Int32) : Bytes := leEncode 4 v.toUInt32.toNat

@[simp] theorem length_putInt32LE (v : Int32) : (putInt32LE v).length = 4 := length_leEncode _ _

@[simp] theorem int32LE_putInt32LE (v : Int32) : int32LE (putInt32LE v) = v := by
  have hlt : v.toUInt32.toNat < 256 ^ 4 := v.toUInt32.toNat_lt
  rw [int32LE, putInt32LE, leDecode_leEncode, Nat.mod_eq_of_lt hlt, UInt32.ofNat_toNat]
  rfl

/-! ## Escapes -/

/-- `strings.ReplaceAll` of the two bytes `a b` by the byte `c`. -/
def replacePair (a b c : UInt8) : Bytes → Bytes
  | x :: y :: s =>
    if x = a ∧ y = b then c :: replacePair a b c s else x :: replacePair a b c (y :: s)
  | s => s

/-- `/t` becomes a tab, then `/n` a line feed. -/
def replaceEscapes (s : Bytes) : Bytes :=
  replacePair 0x2F 0x6E 0x0A (replacePair 0x2F 0x74 0x09 s)

/-! ## Reading -/

inductive ReadError
  | io (e : EOF)
  | stringLength (e : ReadError)
  | invalidStringLength (n : Int32)
  | stringBytes (e : ReadError)
  | chunkCount (e : ReadError)
  | tooManyChunks (n : Int32)
  | chunkType (e : ReadError)
  | intChunk (e : ReadError)
  | stringChunk (e : ReadError)
  | messageHeader (e : ReadError)
  | messageChunks (e : ReadError)
  deriving DecidableEq, Repr

def ReadError.message : ReadError → String
  | .io e => e.message
  | .stringLength e => "reading string length: " ++ e.message
  | .invalidStringLength n => "invalid string length: " ++ toString n.toInt
  | .stringBytes e => "reading string bytes: " ++ e.message
  | .chunkCount e => "reading chunk count: " ++ e.message
  | .tooManyChunks n => "too many chunks: " ++ toString n.toInt
  | .chunkType e => "reading chunk type: " ++ e.message
  | .intChunk e => "reading int chunk: " ++ e.message
  | .stringChunk e => "reading string chunk: " ++ e.message
  | .messageHeader e => "reading message header: " ++ e.message
  | .messageChunks e => "reading message chunks: " ++ e.message

abbrev Reader := StreamReader UInt8 ReadError

open StreamReader

def readBytes (n : ℕ) : Reader Bytes := (readFull n).wrap .io

def readInt : Reader Int32 := do
  let b ← readBytes 4
  pure (int32LE b)

def readString : Reader Bytes := do
  let size ← readInt.wrap .stringLength
  if size.toInt < 0 ∨ maxStringLength < size.toInt then fail (.invalidStringLength size)
  else (readBytes size.toInt.toNat).wrap .stringBytes

/-- The body of the loop of `ReadChunks`. Every type byte but `fieldTypeInt` announces a string. -/
def readChunk : Reader Chunk := do
  let typeBuf ← (readBytes 1).wrap .chunkType
  if typeBuf = [fieldTypeInt] then do
    let v ← readInt.wrap .intChunk
    pure (.int v)
  else do
    let s ← readString.wrap .stringChunk
    pure (.str (replaceEscapes s))

def readChunkList : ℕ → Reader (List Chunk)
  | 0 => pure []
  | n + 1 => do
    let c ← readChunk
    let cs ← readChunkList n
    pure (c :: cs)

def readChunks : Reader (List Chunk) := do
  let count ← readInt.wrap .chunkCount
  if maxChunkSize < count.toInt then fail (.tooManyChunks count)
  -- `make([]interface{}, 0, count)`
  else if count.toInt < 0 then fault (.makeSlice count.toInt)
  else readChunkList count.toInt.toNat

def readMessage : Reader Message := do
  let header ← readString.wrap .messageHeader
  let chunks ← readChunks.wrap .messageChunks
  pure ⟨header, chunks⟩

/-- The read loop of a connection, `n` rounds at most: the messages, and how the loop ends. -/
def readMessages : ℕ → Bytes → List Message × Outcome UInt8 ReadError Unit
  | 0, s => ([], .ok () s)
  | n + 1, s =>
    match readMessage s with
    | .ok m rest => (m :: (readMessages n rest).1, (readMessages n rest).2)
    | .err e => ([], .err e)
    | .panic f => ([], .panic f)

/-! ## Writing -/

/-- An argument by its dynamic type; `float64` by its bits, other types by their name. -/
inductive Arg
  | int (v : Int64)
  | int32 (v : Int32)
  | uint16 (v : UInt16)
  | uint32 (v : UInt32)
  | float64 (bits : UInt64)
  | string (s : Bytes)
  | other (typeName : String)
  deriving DecidableEq, Repr

/-- A message as it is handed to `WriteMessage`. -/
structure Outgoing where
  header : Bytes
  args : List Arg
  deriving DecidableEq, Repr

inductive WriteError
  | stringTooLong (n : ℕ)
  | unsupportedArgType (typeName : String)
  | messageHeader (e : WriteError)
  | messageArgs (e : WriteError)
  deriving DecidableEq, Repr

def WriteError.message : WriteError → String
  | .stringTooLong n => "string too long: " ++ toString n ++ " > " ++ toString maxStringLength
  | .unsupportedArgType ty => "unsupported arg type " ++ ty
  | .messageHeader e => "writing message header: " ++ e.message
  | .messageArgs e => "writing message args: " ++ e.message

/-- `int32(v)` of a `float64`: the integer part when it is in range. -/
def float64ToInt32 (platform : UInt64 → Int32) (bits : UInt64) : Int32 :=
  let exponent : ℕ := bits.toNat / 2 ^ 52 % 2 ^ 11
  let fraction : ℕ := bits.toNat % 2 ^ 52
  let significand : ℕ := if exponent = 0 then fraction else 2 ^ 52 + fraction
  let magnitude : ℕ := significand * 2 ^ max exponent 1 / 2 ^ 1075
  let value : ℤ := if bits.toNat < 2 ^ 63 then magnitude else -magnitude
  if exponent = 2 ^ 11 - 1 ∨ value < -2 ^ 31 ∨ 2 ^ 31 ≤ value then platform bits
  else Int32.ofInt value

abbrev Writer := Emitter UInt8 WriteError

open Emitter

def writeInt (v : Int32) : Writer := emit (putInt32LE v)

def writeString (s : Bytes) : Writer :=
  if maxStringLength < s.length then abort (.stringTooLong s.length)
  else (writeInt (Int32.ofNat s.length)).andThen (emit s)

/-- The body of the loop of `WriteArgs`. -/
def writeArg (platform : UInt64 → Int32) : Arg → Writer
  | .int v => (emitByte fieldTypeInt).andThen (writeInt v.toInt32)
  | .int32 v => (emitByte fieldTypeInt).andThen (writeInt v)
  | .uint16 v => (emitByte fieldTypeInt).andThen (writeInt (Int32.ofNat v.toNat))
  | .uint32 v => (emitByte fieldTypeInt).andThen (emit (leEncode 4 v.toNat))
  | .float64 bits => (emitByte fieldTypeInt).andThen (writeInt (float64ToInt32 platform bits))
  | .string s => (emitByte fieldTypeString).andThen (writeString s)
  | .other ty => abort (.unsupportedArgType ty)

def writeArgList (platform : UInt64 → Int32) : List Arg → Writer
  | [] => done
  | a :: as => (writeArg platform a).andThen (writeArgList platform as)

def writeArgs (platform : UInt64 → Int32) (args : List Arg) : Writer :=
  (writeInt (Int32.ofNat args.length)).andThen (writeArgList platform args)

def writeMessage (platform : UInt64 → Int32) (m : Outgoing) : Writer :=
  ((writeString m.header).wrap .messageHeader).andThen
    (((writeArgs platform m.args).wrap .messageArgs).andThen emitFlush)

/-- One `WriteMessage` call after the other on a new writer: their answers, and the writer. -/
def writeMessages (platform : UInt64 → Int32) (size : ℕ+) (calls : List Outgoing) :
    List (Option WriteError) × BufferedWriter UInt8 :=
  run (writeMessage platform) calls (BufferedWriter.new UInt8 size)

end GPGNet
end SturmRelay
