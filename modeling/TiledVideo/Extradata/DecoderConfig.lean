import TiledVideo.Nal.Header
import TiledVideo.Nal.Payload
import TiledVideo.ParamSet.Context

/-!
# Decoder configuration records

A file carries the parameter sets of its video in a record of 23 fixed bytes, the last of which
counts the arrays that follow. Each array holds NAL units of one type, each with its length in front.
Bytes after the last array are ignored.

The sets of a record come into force by type, whatever the order of the arrays.
-/

namespace TiledVideo

/-- Why bytes are no decoder configuration record, or one whose sets cannot be read (`HvccError` and
`ParamSetError`). -/
inductive ConfigError where
  /-- The record would have to be longer. -/
  | notEnoughData (expected actual : Nat)
  /-- Only version one is known. -/
  | unsupportedVersion (version : Nat)
  | nalHeader (cause : NalHeaderError)
  /-- A unit has another type than its array. -/
  | incorrectType (expected actual : UnitType)
  | payload (cause : ReadError)
  | vps (cause : VpsError)
  | sps (cause : SpsError)
  | pps (cause : PpsError)
  deriving DecidableEq, Repr

/-- An array of NAL units of one type. -/
structure NalArray where
  /-- Whether all units of the type are in the array. -/
  complete : Bool
  unitType : UnitType
  units : List Bytes
  deriving DecidableEq, Repr

/-- A decoder configuration record (`HevcDecoderConfigurationRecord`). -/
structure DecoderConfig where
  /-- The bytes in front of the arrays. -/
  fixed : Vector UInt8 23
  arrays : List NalArray
  deriving DecidableEq

namespace DecoderConfig

/-! ## Reading -/

/-- The bytes of a record that have not been read, and how many have. -/
structure ByteCursor where
  rest : Bytes
  offset : Nat

/-- Readers of the parts of a record. -/
abbrev ByteReader := EStateM ConfigError ByteCursor

/-- The next `n` bytes (`ck`). -/
def takeBytes (n : Nat) : ByteReader Bytes := fun c =>
  if c.rest.length < n then .error (.notEnoughData (c.offset + n) (c.offset + c.rest.length)) c
  else .ok (c.rest.take n) ⟨c.rest.drop n, c.offset + n⟩

/-- The number that bytes denote, the highest first. -/
def bigEndian (bytes : Bytes) : Nat :=
  bytes.foldl (fun acc b => acc * 256 + b.toNat) 0

/-- Reads a number of parts. -/
def timesBytes {α : Type} : Nat → ByteReader α → ByteReader (List α)
  | 0, _ => pure []
  | n + 1, p => do
    let a ← p
    let as ← timesBytes n p
    pure (a :: as)

/-- Checks that a unit has a header of a given type (in `HevcDecoderConfigurationRecord::try_from`). -/
def checkType (expected : UnitType) (nal : Bytes) : Except ConfigError Unit := do
  let header ← (NalHeader.ofBytes nal).mapError .nalHeader
  if header.unitType = expected then pure () else throw (.incorrectType expected header.unitType)

/-- Reads a unit of a given type (in `HevcDecoderConfigurationRecord::try_from`). -/
def parseUnit (unitType : UnitType) : ByteReader Bytes := do
  let length ← takeBytes 2
  let nal ← takeBytes (bigEndian length)
  match checkType unitType nal with
  | .ok () => pure nal
  | .error e => throw e

/-- The type that the first byte of an array gives to its units. -/
def arrayType (b : UInt8) : UnitType :=
  ⟨⟨b.toNat % 64, by omega⟩⟩

/-- Reads an array (in `HevcDecoderConfigurationRecord::try_from`). -/
def parseArray : ByteReader NalArray := do
  let head ← takeBytes 3
  let kind := head.headD 0
  let units ← timesBytes (bigEndian head.tail) (parseUnit (arrayType kind))
  pure { complete := 128 ≤ kind, unitType := arrayType kind, units }

/-- The fixed bytes as a vector, for as many as there are. -/
def toFixed (bytes : Bytes) : Vector UInt8 23 :=
  .ofFn fun i => bytes.getD i 0

/-- Reads a record (`HevcDecoderConfigurationRecord::try_from`). -/
def parse : ByteReader DecoderConfig := do
  let fixed ← toFixed <$> takeBytes 23
  if fixed[0] ≠ 1 then
    throw (.unsupportedVersion fixed[0].toNat)
  let arrays ← timesBytes fixed[22].toNat parseArray
  pure { fixed, arrays }

/-- The record at the front of a byte string (`HevcDecoderConfigurationRecord::try_from`). -/
def decode (bytes : Bytes) : Except ConfigError DecoderConfig :=
  match parse ⟨bytes, 0⟩ with
  | .ok config _ => .ok config
  | .error e _ => .error e

/-! ## The fixed bytes -/

/-- The version of the record. -/
def version (c : DecoderConfig) : Nat := c.fixed[0].toNat

/-- The context of the profile. -/
def profileSpace (c : DecoderConfig) : Nat := c.fixed[1].toNat / 64

/-- Whether the level is one of the high tier. -/
def tier (c : DecoderConfig) : Bool := c.fixed[1].toNat / 32 % 2 == 1

/-- The number of the profile. -/
def profileIdc (c : DecoderConfig) : Nat := c.fixed[1].toNat % 32

/-- The profiles that the stream conforms to as well. -/
def profileCompatibility (c : DecoderConfig) : Nat :=
  bigEndian [c.fixed[2], c.fixed[3], c.fixed[4], c.fixed[5]]

/-- The number of the level. -/
def levelIdc (c : DecoderConfig) : Nat := c.fixed[12].toNat

/-- How finely pictures are divided at least. -/
def minSpatialSegmentation (c : DecoderConfig) : Nat :=
  bigEndian [c.fixed[13], c.fixed[14]] % 4096

/-- What pictures are divided into for parallel decoding: unknown, slices, tiles or block rows. -/
def parallelism (c : DecoderConfig) : Nat := c.fixed[15].toNat % 4

/-- The number of the chroma format. -/
def chromaFormat (c : DecoderConfig) : Nat := c.fixed[16].toNat % 4

/-- The bits of a luma sample, minus eight. -/
def bitDepthLumaMinus8 (c : DecoderConfig) : Nat := c.fixed[17].toNat % 8

/-- The bits of a chroma sample, minus eight. -/
def bitDepthChromaMinus8 (c : DecoderConfig) : Nat := c.fixed[18].toNat % 8

/-- The number of frames in 256 seconds, or zero. -/
def averageFrameRate (c : DecoderConfig) : Nat := bigEndian [c.fixed[19], c.fixed[20]]

/-- The number of temporal sub-layers, or zero. -/
def temporalLayers (c : DecoderConfig) : Nat := c.fixed[21].toNat / 8 % 8

/-- The number of bytes of a unit's length in the samples of the file, minus one. -/
def lengthSizeMinusOne (c : DecoderConfig) : Nat := c.fixed[21].toNat % 4

/-! ## Parameter sets -/

/-- The units of a type, in the order of the record (`HevcDecoderConfigurationRecord::units_of_type`). -/
def unitsOfType (c : DecoderConfig) (unitType : UnitType) : List Bytes :=
  (c.arrays.filter (·.unitType = unitType)).flatMap (·.units)

/-- The payload of a unit (`hvcc::rbsp`). -/
def unitPayload (nal : Bytes) : Except ConfigError Bytes :=
  (nalPayload nal).mapError .payload

/-- Puts in the video parameter set that a unit carries (in
`HevcDecoderConfigurationRecord::create_context`). -/
def putVps (ctx : Context) (nal : Bytes) : Except ConfigError Context := do
  let payload ← unitPayload nal
  let set ← (Context.decodeVps payload).mapError .vps
  pure (ctx.putVps set)

/-- Puts in the sequence parameter set that a unit carries (in
`HevcDecoderConfigurationRecord::create_context`). -/
def putSps (ctx : Context) (nal : Bytes) : Except ConfigError Context := do
  let payload ← unitPayload nal
  let set ← (Context.decodeSps payload).mapError .sps
  pure (ctx.putSps set)

/-- The picture parameter set that a unit carries (in `HevcDecoderConfigurationRecord::create_context`).
-/
def readPps (ctx : Context) (nal : Bytes) : Except ConfigError Pps := do
  let payload ← unitPayload nal
  (ctx.decodePps payload).mapError .pps

/-- Puts in the picture parameter set that a unit carries. -/
def putPps (ctx : Context) (nal : Bytes) : Except ConfigError Context :=
  ctx.putPps <$> readPps ctx nal

/-- The parameter sets of a record: first all of the video, then of the sequence, then of pictures
(`HevcDecoderConfigurationRecord::create_context`). -/
def context (c : DecoderConfig) : Except ConfigError Context := do
  let ctx ← (c.unitsOfType .vps).foldlM putVps Context.empty
  let ctx ← (c.unitsOfType .sps).foldlM putSps ctx
  (c.unitsOfType .pps).foldlM putPps ctx

end DecoderConfig

end TiledVideo
