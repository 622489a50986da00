import TiledVideo.Bitstream.Writer
import TiledVideo.Nal.Header

/-!
# Byte streams of NAL units

In a byte stream each NAL unit follows a start code `00 00 01`, which may have one more zero byte in
front, and any number of zero bytes may follow the unit. A stream is cut at its start codes; the
zero bytes at the end of each piece belong to no unit, except that the last of them counts as the
extra zero byte of the start code after it. Pieces without a unit are passed over.
-/

namespace TiledVideo

/-- The three bytes in front of every NAL unit. -/
def startCode : Bytes := [0, 0, 1]

/-- The byte stream does not begin with a start code (`AnnexBError`). -/
inductive ByteStreamError where
  | missingStartCode
  deriving DecidableEq, Repr

/-- A NAL unit found in a byte stream (`AnnexBUnit`). -/
structure FramedUnit where
  /-- The unit with its start code, the extra zero byte included. -/
  framed : Bytes
  /-- The unit, beginning with its header. -/
  nal : Bytes
  deriving DecidableEq, Repr

namespace ByteStream

/-! ## Reading -/

/-- A byte string without the zero bytes at its end. -/
def trimZeros (bytes : Bytes) : Bytes :=
  (bytes.reverse.dropWhile (· == 0)).reverse

/-- What comes before the first start code, and what comes after each start code (in `NalUnits::next`).
-/
def pieces : Bytes → Bytes × List Bytes
  | 0 :: 0 :: 1 :: rest =>
    let (piece, later) := pieces rest
    ([], piece :: later)
  | b :: rest =>
    let (piece, later) := pieces rest
    (b :: piece, later)
  | [] => ([], [])

/-- Whether a byte string begins with a start code that any number of zero bytes may precede (in
`nal_units`). -/
def hasStartCode (bytes : Bytes) : Bool :=
  2 ≤ (bytes.takeWhile (· == 0)).length && (bytes.dropWhile (· == 0)).head? == some 1

/-- The units in the pieces that follow `before` (in `NalUnits::next`). -/
def unitsAfter (before : Bytes) : List Bytes → List FramedUnit
  | [] => []
  | piece :: later =>
    let nal := trimZeros piece
    if nal.isEmpty then unitsAfter piece later
    else
      let zeroByte : Bytes := if before.getLast? = some 0 then [0] else []
      ⟨zeroByte ++ startCode ++ nal, nal⟩ :: unitsAfter piece later

/-- The NAL units of a byte stream (`nal_units`). -/
def units (bytes : Bytes) : Except ByteStreamError (List FramedUnit) :=
  if hasStartCode bytes then
    let (before, later) := pieces bytes
    .ok (unitsAfter before later)
  else .error .missingStartCode

end ByteStream

/-! ## Writing -/

namespace BitStream

/-- Writes a start code and the header of a NAL unit in the base layer (`BitWriter::write_nal_header`).
The start code gets an extra zero byte if `long` holds. -/
def nalHeader (s : BitStream) (unitType : UnitType) (temporalId : Nat) (long : Bool) :
    Except WriteError BitStream := do
  if temporalId > 6 then
    throw (.invalidValue "nuh_temporal_id_plus1" (temporalId + 1))
  let out ← s.wholeBytes
  let zeroByte : Bytes := if long then [0] else []
  let header : Bytes := [UInt8.ofNat (unitType.id.val * 2), UInt8.ofNat (temporalId + 1)]
  pure { s with out := (out.writeRaw (zeroByte ++ startCode)).write header }

end BitStream

end TiledVideo
