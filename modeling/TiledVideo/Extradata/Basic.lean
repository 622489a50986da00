import TiledVideo.AccessUnit
import TiledVideo.Extradata.DecoderConfig

/-!
# Extradata

Parameter sets that are given ahead of a stream, either as a byte stream or as a decoder
configuration record. A record begins with its version, which is one; a byte stream cannot begin so.
-/

namespace TiledVideo

/-- Why extradata could not be read. -/
inductive ExtradataError where
  | empty
  | byteStream (cause : UnitError)
  | config (cause : ConfigError)
  /-- There is no picture parameter set, so there is no grid of tiles. -/
  | noPps
  deriving DecidableEq, Repr

/-- The number of rows and columns of tiles. -/
structure TileCount where
  rows : Nat
  columns : Nat
  deriving DecidableEq, Repr

/-- The number of tiles (`TileCount::num_tiles`). -/
def TileCount.total (c : TileCount) : Nat :=
  c.rows * c.columns

/-- The parameter sets of extradata (`ParameterSets`). -/
structure Extradata where
  ctx : Context
  /-- The first picture parameter set, which a later one of the same number may have replaced in
  `ctx`. -/
  firstPps : Option Pps
  deriving DecidableEq

namespace Extradata

/-- Reads a record (in `extradata::parse`). Its first picture parameter set is read with all its sets in
force. -/
def decodeConfig (bytes : Bytes) : Except ConfigError Extradata := do
  let config ← DecoderConfig.decode bytes
  let ctx ← config.context
  match (config.unitsOfType .pps).head? with
  | none => pure ⟨ctx, none⟩
  | some nal =>
    let first ← DecoderConfig.readPps ctx nal
    pure ⟨ctx, some first⟩

/-- Reads a byte stream (in `extradata::parse`). -/
def decodeByteStream (bytes : Bytes) : Except UnitError Extradata := do
  let (au, ctx) ← AccessUnit.decode Context.empty bytes
  pure ⟨ctx, au.firstPps⟩

/-- Reads extradata of either form (`extradata::parse`). -/
def decode (bytes : Bytes) : Except ExtradataError Extradata :=
  match bytes with
  | [] => .error .empty
  | b :: _ =>
    if b = 1 then (decodeConfig bytes).mapError .config
    else (decodeByteStream bytes).mapError .byteStream

/-- The grid of the first picture parameter set of extradata (`extract_tiles`). -/
def tileCount (bytes : Bytes) : Except ExtradataError TileCount := do
  let sets ← decode bytes
  match sets.firstPps with
  | none => throw .noPps
  | some pps => pure ⟨pps.partition.rows, pps.partition.columns⟩

end Extradata

end TiledVideo
