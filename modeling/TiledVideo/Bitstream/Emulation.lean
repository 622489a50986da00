import TiledVideo.Bitstream.Bits

/-!
# Emulation prevention

Start codes delimit the units of a byte stream, so no unit may contain one. A byte `03` is put in
front of every byte below `04` that follows two zero bytes, and left out again by the reader.

Results:

* `escapeFrom_append`: a byte string may be escaped piece by piece, if the count of zero bytes is
  carried along.
* `unescape_escape`: nothing is lost.
-/

namespace TiledVideo.Emulation

/-! ## Escaping -/

/-- The bytes written for a byte string that follows `zeros` zero bytes (`ByteWriter::write`). -/
def escapeFrom : Nat → Bytes → Bytes
  | _, [] => []
  | zeros, b :: rest =>
    if zeros = 2 ∧ b < 4 then 3 :: b :: escapeFrom (if b = 0 then 1 else 0) rest
    else b :: escapeFrom (if b = 0 then zeros + 1 else 0) rest

/-- The number of zero bytes at the end of what is written for a byte string that follows `zeros` zero
bytes (in `ByteWriter::write`). -/
def zerosAfter : Nat → Bytes → Nat
  | zeros, [] => zeros
  | zeros, b :: rest =>
    if zeros = 2 ∧ b < 4 then zerosAfter (if b = 0 then 1 else 0) rest
    else zerosAfter (if b = 0 then zeros + 1 else 0) rest

/-- The bytes written for a byte string on its own. -/
def escape (payload : Bytes) : Bytes :=
  escapeFrom 0 payload

theorem escapeFrom_append (zeros : Nat) (a b : Bytes) :
    escapeFrom zeros (a ++ b) = escapeFrom zeros a ++ escapeFrom (zerosAfter zeros a) b := by
  induction a generalizing zeros with
  | nil => rfl
  | cons x a ih =>
    simp only [List.cons_append, escapeFrom, zerosAfter]
    split <;> simp [ih]

theorem zerosAfter_append (zeros : Nat) (a b : Bytes) :
    zerosAfter zeros (a ++ b) = zerosAfter (zerosAfter zeros a) b := by
  induction a generalizing zeros with
  | nil => rfl
  | cons x a ih =>
    simp only [List.cons_append, zerosAfter]
    split <;> simp [ih]

/-! ## Unescaping -/

/-- Leaves out the byte `03` after every two zero bytes. -/
def unescape : Bytes → Bytes
  | 0 :: 0 :: 3 :: rest => 0 :: 0 :: unescape rest
  | b :: rest => b :: unescape rest
  | [] => []

/-! ## Nothing is lost -/

theorem unescape_cons_of_ne_zero {b : UInt8} (h : b ≠ 0) (rest : Bytes) :
    unescape (b :: rest) = b :: unescape rest := by
  rw [unescape]
  rintro r hb -
  exact h hb

theorem unescape_zero_cons {b : UInt8} (h : b ≠ 0) (rest : Bytes) :
    unescape (0 :: b :: rest) = 0 :: b :: unescape rest := by
  rw [unescape, unescape_cons_of_ne_zero h]
  simp_all

theorem unescape_zero_zero_cons {b : UInt8} (h : 4 ≤ b) (rest : Bytes) :
    unescape (0 :: 0 :: b :: rest) = 0 :: 0 :: b :: unescape rest := by
  have h0 : b ≠ 0 := by rintro rfl; revert h; decide
  have h3 : b ≠ 3 := by rintro rfl; revert h; decide
  rw [unescape, unescape_zero_cons h0]
  simp_all

/-- Zero bytes that are already written stay as they are. -/
theorem unescape_replicate_append_escapeFrom (zeros : Nat) (hz : zeros ≤ 2) (s : Bytes) :
    unescape (List.replicate zeros 0 ++ escapeFrom zeros s) = List.replicate zeros 0 ++ s := by
  induction s generalizing zeros with
  | nil =>
    obtain rfl | rfl | rfl : zeros = 0 ∨ zeros = 1 ∨ zeros = 2 := by omega
    all_goals rfl
  | cons b s ih =>
    have ih0 : unescape (escapeFrom 0 s) = s := ih 0 (by omega)
    have ih1 : unescape (0 :: escapeFrom 1 s) = 0 :: s := ih 1 (by omega)
    have ih2 : unescape (0 :: 0 :: escapeFrom 2 s) = 0 :: 0 :: s := ih 2 (by omega)
    by_cases hb : b = 0
    · subst hb
      obtain rfl | rfl | rfl : zeros = 0 ∨ zeros = 1 ∨ zeros = 2 := by omega
      · exact ih1
      · exact ih2
      · exact congrArg (0 :: 0 :: ·) ih1
    · obtain rfl | rfl | rfl : zeros = 0 ∨ zeros = 1 ∨ zeros = 2 := by omega
      · simp [escapeFrom, hb, unescape_cons_of_ne_zero, ih0]
      · simp [escapeFrom, hb, unescape_zero_cons, ih0]
      · by_cases h4 : b < 4
        · simp [escapeFrom, hb, h4, unescape, unescape_cons_of_ne_zero, ih0]
        · have h4' : 4 ≤ b := by simpa using h4
          simp [escapeFrom, hb, h4, unescape_zero_zero_cons h4', ih0]

theorem unescape_escape (payload : Bytes) : unescape (escape payload) = payload :=
  unescape_replicate_append_escapeFrom 0 (by omega) payload

end TiledVideo.Emulation
