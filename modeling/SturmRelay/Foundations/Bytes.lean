import Mathlib.Data.Nat.Notation
import Mathlib.Tactic.Ring

/-! # Bytes, byte order and slices

Fixed-width integers as bytes, least significant first (`leEncode`, `leDecode`) and most
significant first (`beEncode`, `beDecode`), slices of byte strings whose bounds are checked (a
slice out of range is a `Fault`, the run-time panic of the languages that check), and buffers that
are written in place. -/

namespace SturmRelay
set_option autoImplicit false

abbrev Bytes := List UInt8

def ascii (s : String) : Bytes := s.toList.map fun c => UInt8.ofNat c.toNat

/-! ## Byte order -/

/-- The low `w` bytes of `n`, least significant first. -/
def leEncode : ℕ → ℕ → Bytes
  | 0, _ => []
  | w + 1, n => UInt8.ofNat (n % 256) :: leEncode w (n / 256)

def leDecode : Bytes → ℕ
  | [] => 0
  | b :: bs => b.toNat + 256 * leDecode bs

def beEncode (w n : ℕ) : Bytes := (leEncode w n).reverse

def beDecode (bs : Bytes) : ℕ := leDecode bs.reverse

@[simp] theorem length_leEncode (w n : ℕ) : (leEncode w n).length = w := by
  induction w generalizing n with
  | zero => rfl
  | succ w ih => rw [leEncode, List.length_cons, ih]

@[simp] theorem length_beEncode (w n : ℕ) : (beEncode w n).length = w := by
  rw [beEncode, List.length_reverse, length_leEncode]

theorem leDecode_leEncode (w n : ℕ) : leDecode (leEncode w n) = n % 256 ^ w := by
  induction w generalizing n with
  | zero => simp [leEncode, leDecode, Nat.mod_one]
  | succ w ih =>
    have hbyte : (UInt8.ofNat (n % 256)).toNat = n % 256 :=
      UInt8.toNat_ofNat_of_lt' (Nat.mod_lt n (by decide))
    rw [leEncode, leDecode, ih, hbyte, pow_succ', Nat.mod_mul]

theorem beDecode_beEncode (w n : ℕ) : beDecode (beEncode w n) = n % 256 ^ w := by
  rw [beDecode, beEncode, List.reverse_reverse, leDecode_leEncode]

theorem leEncode_leDecode (bs : Bytes) : leEncode bs.length (leDecode bs) = bs := by
  induction bs with
  | nil => rfl
  | cons b bs ih =>
    have hb : b.toNat < 256 := b.toNat_lt
    have hmod : (b.toNat + 256 * leDecode bs) % 256 = b.toNat := by omega
    have hdiv : (b.toNat + 256 * leDecode bs) / 256 = leDecode bs := by omega
    rw [List.length_cons, leEncode, leDecode, hmod, hdiv, ih, UInt8.ofNat_toNat]

theorem leDecode_lt (bs : Bytes) : leDecode bs < 256 ^ bs.length := by
  induction bs with
  | nil => simp [leDecode]
  | cons b bs ih =>
    have hb : b.toNat < 256 := b.toNat_lt
    rw [List.length_cons, leDecode, pow_succ']
    omega

theorem beEncode_beDecode (bs : Bytes) : beEncode bs.length (beDecode bs) = bs := by
  rw [beEncode, beDecode, ← List.length_reverse, leEncode_leDecode, List.reverse_reverse]

theorem beDecode_lt (bs : Bytes) : beDecode bs < 256 ^ bs.length := by
  rw [beDecode, ← List.length_reverse]
  exact leDecode_lt bs.reverse

/-! ## Slices -/

/-- A run-time panic: a slice beyond the capacity of what is sliced, or a negative capacity asked
of the allocator. -/
inductive Fault
  | sliceBounds (hi cap : ℕ)
  | makeSlice (cap : ℤ)
  deriving DecidableEq, Repr

/-- `b[lo:hi]`. -/
def slice (b : Bytes) (lo hi : ℕ) : Except Fault Bytes :=
  if lo ≤ hi ∧ hi ≤ b.length then .ok ((b.take hi).drop lo) else .error (.sliceBounds hi b.length)

theorem slice_of_le {b : Bytes} {lo hi : ℕ} (hlo : lo ≤ hi) (hhi : hi ≤ b.length) :
    slice b lo hi = .ok ((b.take hi).drop lo) := if_pos ⟨hlo, hhi⟩

/-! ## Buffers -/

/-- `copy(b[lo:hi], src)`: as much of `src` as there is room for. -/
def copyInto (b : Bytes) (lo hi : ℕ) (src : Bytes) : Except Fault Bytes :=
  if lo ≤ hi ∧ hi ≤ b.length then
    .ok (b.take lo ++ src.take (hi - lo) ++ b.drop (lo + (src.take (hi - lo)).length))
  else .error (.sliceBounds hi b.length)

/-- When the destination is as long as the source, all of it is overwritten and no more. -/
theorem copyInto_exact {b src : Bytes} {lo hi : ℕ} (hhi : hi ≤ b.length)
    (hsrc : src.length + lo = hi) :
    copyInto b lo hi src = .ok (b.take lo ++ src ++ b.drop hi) := by
  have htake : src.take (hi - lo) = src := List.take_of_length_le (by omega)
  have hend : lo + src.length = hi := by omega
  rw [copyInto, if_pos ⟨by omega, hhi⟩, htake, hend]

theorem length_copyInto {b b' src : Bytes} {lo hi : ℕ} (h : copyInto b lo hi src = .ok b') :
    b'.length = b.length := by
  unfold copyInto at h
  split at h
  · next hb =>
    cases h
    simp only [List.length_append, List.length_take, List.length_drop]
    omega
  · cases h

/-- A byte buffer of fixed size that is allocated once and written over and over. -/
def Buffer (n : ℕ) := { b : Bytes // b.length = n }

namespace Buffer
variable {n : ℕ}

/-- `make([]byte, n)`. -/
def zero (n : ℕ) : Buffer n := ⟨List.replicate n 0, List.length_replicate⟩

/-- `copy(b[lo:hi], src)`. -/
def copyAt (b : Buffer n) (lo hi : ℕ) (src : Bytes) : Except Fault (Buffer n) :=
  match h : copyInto b.1 lo hi src with
  | .ok b' => .ok ⟨b', (length_copyInto h).trans b.2⟩
  | .error f => .error f

/-- `b[lo:hi]`. -/
def slice (b : Buffer n) (lo hi : ℕ) : Except Fault Bytes := SturmRelay.slice b.1 lo hi

theorem copyAt_exact (b : Buffer n) (lo hi : ℕ) (src : Bytes) (hhi : hi ≤ n)
    (hsrc : src.length + lo = hi) :
    ∃ b' : Buffer n, b.copyAt lo hi src = .ok b' ∧ b'.1 = b.1.take lo ++ src ++ b.1.drop hi := by
  have hok := copyInto_exact (b := b.1) (by rw [b.2]; exact hhi) hsrc
  refine ⟨⟨_, (length_copyInto hok).trans b.2⟩, ?_, rfl⟩
  unfold copyAt
  split
  · next b' h =>
    rw [hok] at h
    cases h
    rfl
  · next f h =>
    rw [hok] at h
    cases h

theorem slice_of_le (b : Buffer n) {lo hi : ℕ} (hlo : lo ≤ hi) (hhi : hi ≤ n) :
    b.slice lo hi = .ok ((b.1.take hi).drop lo) :=
  SturmRelay.slice_of_le hlo (by rw [b.2]; exact hhi)

end Buffer

end SturmRelay
