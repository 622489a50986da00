/-!
# Bit strings

A bit string is a list of bits, most significant first. Numbers of a fixed width and byte strings
are read as bit strings, and back.

Results:

* `length_ofNat`, `toNat_ofNat`: a number below `2 ^ n` is recovered from its `n` bits.
* `toNat_lt`: `n` bits denote a number below `2 ^ n`.
* `lt_two_pow_widthFor`: the numbers below `n` fit into `widthFor n` bits.
* `toBytes_ofBytes`: the bytes of a byte string's bits are that byte string.
-/

-- powers and sums of numbers are those of the core library, whatever else is imported
attribute [instance (high), default_instance 20000] instPowNat
attribute [instance (high)] Zero.ofOfNat0

namespace TiledVideo

/-- Bytes in stream order. -/
abbrev Bytes := List UInt8

/-- Bits in stream order, the most significant bit of a byte or number first. -/
abbrev BitString := List Bool

namespace Bits

/-! ## Numbers -/

/-- The `n` low bits of `v` (in `BitWriter::write_bits`). -/
def ofNat : Nat → Nat → BitString
  | 0, _ => []
  | n + 1, v => v.testBit n :: ofNat n v

/-- The number that the bits denote (in `BitReader::read_u32`). -/
def toNat (bits : BitString) : Nat :=
  bits.foldl (fun acc b => 2 * acc + b.toNat) 0

@[simp] theorem length_ofNat (n v : Nat) : (ofNat n v).length = n := by
  induction n with
  | zero => rfl
  | succ n ih => simp [ofNat, ih]

theorem foldl_toNat (bits : BitString) (acc : Nat) :
    bits.foldl (fun acc b => 2 * acc + b.toNat) acc = acc * 2 ^ bits.length + toNat bits := by
  induction bits generalizing acc with
  | nil => simp [toNat]
  | cons b bits ih =>
    simp only [toNat, List.foldl_cons, List.length_cons]
    rw [ih, ih (2 * 0 + b.toNat), Nat.pow_succ, Nat.add_mul, Nat.mul_zero, Nat.zero_add,
      Nat.mul_comm 2 acc, Nat.mul_assoc, Nat.mul_comm 2, Nat.add_assoc]

@[simp] theorem toNat_nil : toNat [] = 0 := rfl

theorem toNat_cons (b : Bool) (bits : BitString) :
    toNat (b :: bits) = b.toNat * 2 ^ bits.length + toNat bits := by
  have := foldl_toNat bits (2 * 0 + b.toNat)
  simpa [toNat] using this

theorem toNat_lt (bits : BitString) : toNat bits < 2 ^ bits.length := by
  induction bits with
  | nil => simp
  | cons b bits ih =>
    rw [toNat_cons, List.length_cons, Nat.pow_succ]
    cases b <;> simp <;> omega

theorem toNat_ofNat_mod (n v : Nat) : toNat (ofNat n v) = v % 2 ^ n := by
  induction n with
  | zero => simp [ofNat, Nat.mod_one]
  | succ n ih =>
    rw [ofNat, toNat_cons, ih, length_ofNat, Nat.testBit_eq_decide_div_mod_eq, Nat.mod_pow_succ,
      Nat.add_comm, Nat.mul_comm]
    rcases Nat.mod_two_eq_zero_or_one (v / 2 ^ n) with h | h <;> simp [h]

theorem toNat_ofNat {n v : Nat} (h : v < 2 ^ n) : toNat (ofNat n v) = v := by
  rw [toNat_ofNat_mod, Nat.mod_eq_of_lt h]

/-- The number of bits that tell `n` values apart, the binary logarithm of `n` rounded up (`ceil_log2`).
-/
def widthFor (n : Nat) : Nat :=
  if n ≤ 1 then 0 else Nat.log2 (n - 1) + 1

theorem lt_two_pow_widthFor {v n : Nat} (h : v < n) : v < 2 ^ widthFor n := by
  unfold widthFor
  split
  · next hn => omega
  · next hn =>
    have := @Nat.lt_log2_self (n - 1)
    omega

/-! ## Bytes -/

/-- The eight bits of a byte. -/
def ofByte (b : UInt8) : BitString :=
  ofNat 8 b.toNat

/-- The bits of a byte string. -/
def ofBytes (bytes : Bytes) : BitString :=
  bytes.flatMap ofByte

/-- The whole bytes of a bit string; up to seven bits at its end are left out. -/
def toBytes : BitString → Bytes
  | b₇ :: b₆ :: b₅ :: b₄ :: b₃ :: b₂ :: b₁ :: b₀ :: rest =>
    UInt8.ofNat (toNat [b₇, b₆, b₅, b₄, b₃, b₂, b₁, b₀]) :: toBytes rest
  | _ => []

/-- The bits at the end of a bit string that do not fill a byte. -/
def leftover (bits : BitString) : BitString :=
  bits.drop (8 * (bits.length / 8))

@[simp] theorem length_ofByte (b : UInt8) : (ofByte b).length = 8 := length_ofNat 8 _

@[simp] theorem ofBytes_nil : ofBytes [] = [] := rfl

@[simp] theorem ofBytes_cons (b : UInt8) (bytes : Bytes) :
    ofBytes (b :: bytes) = ofByte b ++ ofBytes bytes := rfl

theorem length_ofBytes (bytes : Bytes) : (ofBytes bytes).length = 8 * bytes.length := by
  induction bytes with
  | nil => rfl
  | cons b bytes ih => simp [ih]; omega

theorem toBytes_ofByte_append (b : UInt8) (rest : BitString) :
    toBytes (ofByte b ++ rest) = b :: toBytes rest := by
  have hv : toNat (ofByte b) = b.toNat := toNat_ofNat b.toNat_lt
  simp only [ofByte, ofNat] at hv ⊢
  simp only [List.cons_append, List.nil_append, toBytes, hv, UInt8.ofNat_toNat]

theorem toBytes_ofBytes (bytes : Bytes) : toBytes (ofBytes bytes) = bytes := by
  induction bytes with
  | nil => rfl
  | cons b bytes ih => rw [ofBytes_cons, toBytes_ofByte_append, ih]

theorem length_leftover (bits : BitString) : (leftover bits).length = bits.length % 8 := by
  simp only [leftover, List.length_drop]
  omega

end Bits

end TiledVideo
