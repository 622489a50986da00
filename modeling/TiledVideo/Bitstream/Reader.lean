import TiledVideo.Bitstream.ExpGolomb

/-!
# Reading syntax elements

A reader consumes bits from the front of a cursor and keeps count of them. Every element is read
under its name, which the errors carry. A reader that fails keeps the cursor where its last
completed read left it; the zero bits in front of an Exp-Golomb code are completed reads of their
own.

Payloads end in a stop bit, the last bit that is set, and zero bits after it. So more data is left
exactly while a set bit follows the next bit.
-/

namespace TiledVideo

/-- What is left to read, and how many bits have been read (`BitReader`). -/
structure Cursor where
  bits : BitString
  position : Nat := 0

/-- A cursor at the start of a payload (`BitReader::new`). -/
def Cursor.ofBytes (payload : Bytes) : Cursor where
  bits := Bits.ofBytes payload

/-- Why reading a syntax element failed (`BitReaderError`). -/
inductive ReadError where
  /-- The data ended within the element. -/
  | endOfData (element : String)
  /-- More than 32 bits were asked for at once. -/
  | tooWide (element : String)
  /-- The element is out of the range of its code. -/
  | expGolombTooLarge (element : String)
  /-- Data was left before the stop bit. -/
  | remainingData
  /-- There was no stop bit at the end of the syntax. -/
  | missingStopBit
  deriving DecidableEq, Repr

/-- Readers of a syntax structure whose failures are described by `ε`. -/
abbrev Reader (ε : Type) := EStateM ε Cursor

namespace Reader

variable {ε α β : Type}

/-! ## Control -/

/-- Readers of elements are used in readers of structures that wrap their errors. -/
def mapError {ε₁ ε₂ : Type} (f : ε₁ → ε₂) (p : Reader ε₁ α) : Reader ε₂ α := fun c =>
  match p c with
  | .ok a c' => .ok a c'
  | .error e c' => .error (f e) c'

/-- What a reader makes of a payload. -/
def decode (p : Reader ε α) (payload : Bytes) : Except ε α :=
  match p (.ofBytes payload) with
  | .ok a _ => .ok a
  | .error e _ => .error e

/-- What a reader makes of the front of a payload, and how many bits it reads. -/
def decodeFront (p : Reader ε α) (payload : Bytes) : Except ε (α × Nat) :=
  match p (.ofBytes payload) with
  | .ok a c => .ok (a, c.position)
  | .error e _ => .error e

/-- Fails with `e` unless the condition holds. -/
def ensure (condition : Bool) (e : ε) : Reader ε Unit :=
  if condition then pure () else throw e

/-- The value of an `Option`, or the failure `e`. -/
def require (value : Option α) (e : ε) : Reader ε α :=
  match value with
  | some a => pure a
  | none => throw e

/-- The value of an `Except`, or its failure. -/
def ofExcept (value : Except ε α) : Reader ε α :=
  match value with
  | .ok a => pure a
  | .error e => throw e

/-- Reads a part of the syntax that is there only if `present` holds. -/
def optional (present : Bool) (p : Reader ε α) : Reader ε (Option α) :=
  if present then some <$> p else pure none

/-- Reads a part of the syntax that is there only if `present` holds, and else has a known value. -/
def optionalD (present : Bool) (p : Reader ε α) (inferred : α) : Reader ε α :=
  if present then p else pure inferred

/-- Reads `n` parts of one form. -/
def times : Nat → Reader ε α → Reader ε (List α)
  | 0, _ => pure []
  | n + 1, p => do
    let a ← p
    let as ← times n p
    pure (a :: as)

/-- Reads one part for each entry of a list. -/
def each (p : α → Reader ε β) : List α → Reader ε (List β)
  | [] => pure []
  | a :: as => do
    let b ← p a
    let bs ← each p as
    pure (b :: bs)

/-! ## Elements -/

/-- One bit (`BitReader::read_bool`). -/
def flag (element : String) : Reader ReadError Bool := fun c =>
  match c.bits with
  | [] => .error (.endOfData element) c
  | b :: rest => .ok b ⟨rest, c.position + 1⟩

/-- The next `n` bits. -/
def bits (n : Nat) (element : String) : Reader ReadError BitString := fun c =>
  let taken := c.bits.take n
  if taken.length < n then .error (.endOfData element) c
  else .ok taken ⟨c.bits.drop n, c.position + n⟩

/-- An unsigned number of `n ≤ 32` bits (`BitReader::read_u32`). -/
def uint (n : Nat) (element : String) : Reader ReadError Nat :=
  if n > 32 then throw (.tooWide element) else Bits.toNat <$> bits n element

/-- Passes over `n` bits (`BitReader::skip`). -/
def skip (n : Nat) (element : String) : Reader ReadError Unit :=
  (fun _ => ()) <$> bits n element

/-- Passes over the zero bits in front of an Exp-Golomb code and counts them; 32 are too many
(`count_zero_bits`). -/
def zeroRun (element : String) : Reader ReadError Nat := fun c =>
  let zeros := ((c.bits.take 32).takeWhile (!·)).length
  let c' : Cursor := ⟨c.bits.drop zeros, c.position + zeros⟩
  if zeros = 32 then .error (.expGolombTooLarge element) c' else .ok zeros c'

/-- An unsigned Exp-Golomb code (`BitReader::read_ue`). -/
def ue (element : String) : Reader ReadError Nat := do
  let k ← zeroRun element
  let _ ← flag element
  let low ← uint k element
  pure (2 ^ k - 1 + low)

/-- A signed Exp-Golomb code (`BitReader::read_se`). -/
def se (element : String) : Reader ReadError Int :=
  ExpGolomb.toSigned <$> ue element

/-! ## Position -/

/-- The number of bits read so far (`BitReader::position`). -/
def position : Reader ε Nat :=
  Cursor.position <$> get

/-- Whether the next bit is the first of a byte (`BitReader::byte_aligned`). -/
def aligned : Reader ε Bool :=
  (fun c => c.position % 8 == 0) <$> get

/-- Passes over the rest of the byte that has been begun. -/
def skipToByte (element : String) : Reader ReadError Unit := do
  let p ← position
  skip ((8 - p % 8) % 8) element

/-- The bytes that are left, if the next bit is the first of a byte (`BitReader::remaining_bytes`). -/
def remainingBytes : Reader ε (Option Bytes) :=
  (fun c => if c.position % 8 = 0 then some (Bits.toBytes c.bits) else none) <$> get

/-! ## The end of a payload -/

/-- Whether any data comes before the stop bit (`BitReader::has_more_rbsp_data`). -/
def moreData : Reader ε Bool :=
  (fun c => c.bits.tail.any id) <$> get

/-- Accepts the end of a payload: the stop bit and zero bits after it (`BitReader::finish_rbsp`). -/
def finish : Reader ReadError Unit := do
  ensure (!(← moreData)) .remainingData
  let c ← get
  ensure (c.bits.head?.getD false) .missingStopBit
  discard (flag "rbsp_stop_one_bit")

end Reader

end TiledVideo
