import TiledVideo.Bitstream.Bits

/-!
# Exp-Golomb codes

The code word of `v` is `k` zero bits followed by the `k + 1` bits of `v + 1`, where `k` is the
binary logarithm of `v + 1`. Signed numbers are numbered `0, 1, -1, 2, -2, …` first.

Results:

* `length_word`: the word of `v` has `2 k + 1` bits.
* `toSigned_ofSigned`, `ofSigned_toSigned`: the signed numbering is a bijection.
-/

namespace TiledVideo.ExpGolomb

/-- The code word of an unsigned number (`BitWriter::write_exp_golomb`). -/
def word (v : Nat) : BitString :=
  let k := Nat.log2 (v + 1)
  List.replicate k false ++ Bits.ofNat (k + 1) (v + 1)

theorem length_word (v : Nat) : (word v).length = 2 * Nat.log2 (v + 1) + 1 := by
  simp [word]
  omega

/-- The place of a signed number in `0, 1, -1, 2, -2, …` (in `BitWriter::write_se`). -/
def ofSigned (x : Int) : Nat :=
  if x ≤ 0 then (-x).toNat * 2 else x.toNat * 2 - 1

/-- The signed number at place `v` of `0, 1, -1, 2, -2, …` (`golomb_to_signed`). -/
def toSigned (v : Nat) : Int :=
  if v % 2 = 1 then (v / 2 + 1 : Nat) else -(v / 2 : Nat)

theorem toSigned_ofSigned (x : Int) : toSigned (ofSigned x) = x := by
  unfold toSigned ofSigned
  split <;> split <;> omega

theorem ofSigned_toSigned (v : Nat) : ofSigned (toSigned v) = v := by
  unfold toSigned ofSigned
  split <;> split <;> omega

/-- The code word of a signed number (`BitWriter::write_se`). -/
def signedWord (x : Int) : BitString :=
  word (ofSigned x)

end TiledVideo.ExpGolomb
