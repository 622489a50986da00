import TiledVideo.Bitstream.ExpGolomb

/-!
# Coding syntax elements

The code of a syntax structure is a bit string, put together from the codes of its elements in
order. It does not exist if the structure uses a feature that is not written, or if a value does
not fit its element. The first element without a code decides the error.
-/

namespace TiledVideo

/-- Why something could not be written. -/
inductive WriteError where
  /-- The structure uses a feature that is not written. -/
  | unsupported (feature : String)
  /-- The value does not fit the element it is destined for. -/
  | invalidValue (element : String) (value : Int)
  /-- A whole number of bytes was asked for in the middle of a byte. -/
  | notByteAligned
  deriving DecidableEq, Repr

/-- The code of a syntax structure, if it has one. -/
abbrev Code := Except WriteError BitString

namespace Code

variable {α : Type}

/-! ## Composition -/

/-- The code of nothing. -/
def empty : Code := .ok []

/-- One code after another. -/
def append (a b : Code) : Code := do
  let x ← a
  let y ← b
  pure (x ++ y)

instance : Append Code := ⟨append⟩

/-- Codes in order. -/
def concat : List Code → Code
  | [] => empty
  | c :: cs => c ++ concat cs

/-- The codes of the entries of a list, in order. -/
def each (f : α → Code) (as : List α) : Code :=
  concat (as.map f)

/-- The code of a part that may be absent. -/
def option (f : α → Code) : Option α → Code
  | some a => f a
  | none => empty

/-- The code of a part that is there only if `present` holds. -/
def onlyIf (present : Bool) (code : Code) : Code :=
  if present then code else empty

/-- A condition on the values being written. -/
def ensure (condition : Bool) (e : WriteError) : Code :=
  if condition then empty else .error e

/-! ## Elements -/

/-- One bit (`BitWriter::write_bit`). -/
def flag (b : Bool) : Code := .ok [b]

/-- An unsigned number in `n ≤ 32` bits (`BitWriter::write_bits`). -/
def uint (n v : Nat) : Code :=
  if n = 0 then empty
  else if n > 32 then .error (.invalidValue "bits" v)
  else if v < 2 ^ n then .ok (Bits.ofNat n v)
  else .error (.invalidValue "bits" v)

/-- An unsigned Exp-Golomb code (`BitWriter::write_ue`). -/
def ue (v : Nat) : Code := .ok (ExpGolomb.word v)

/-- A signed Exp-Golomb code (`BitWriter::write_se`). -/
def se (x : Int) : Code := .ok (ExpGolomb.signedWord x)

/-! ## The end of a payload -/

/-- The stop bit and the zero bits that fill its byte, after `length` bits
(`BitWriter::write_rbsp_trailing_bits`). -/
def stopBits (length : Nat) : BitString :=
  true :: List.replicate (7 - length % 8) false

/-- A code that begins on a byte boundary, closed by a stop bit and filled up to whole bytes. -/
def closed (code : Code) : Code := do
  let bits ← code
  pure (bits ++ stopBits bits.length)

end Code

end TiledVideo
