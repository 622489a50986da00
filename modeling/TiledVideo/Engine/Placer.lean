import TiledVideo.Engine.UnitWriter

/-!
# Placing a picture as a tile

A placer takes whole pictures and makes each a tile of a larger picture. The parameter sets are
written for the larger picture and its uniform grid, and the first slice of each access unit is
moved to where the tile is. Parameter sets without a slice wait for the next access unit with one.

An access unit that cannot be read is given back as it came. If one cannot be placed, all that waits
is dropped. If it can be placed but there is no room for its packet, it waits as well.
-/

namespace TiledVideo

/-- Where the tile is in the larger picture (`TileOptions`). -/
structure Placement where
  /-- Width of the larger picture in luma samples. -/
  width : Nat := 1280
  /-- Height of the larger picture in luma samples. -/
  height : Nat := 720
  /-- The number of columns of tiles; zero stands for one. -/
  column : Nat := 0
  /-- The number of rows of tiles; zero stands for one. -/
  row : Nat := 0
  /-- Where the upper left corner of the tile is, in luma samples. -/
  x : Nat := 0
  y : Nat := 0
  deriving DecidableEq, Repr, Inhabited

namespace Placement

/-- The largest width, height or position. -/
def maxDimension : Nat := 8192

/-- The largest number of columns or rows. -/
def maxTiles : Nat := 128

/-- The binary logarithm of the size of blocks that is assumed before a parameter set tells it. -/
def assumedLog2Ctb : Nat := 4

/-- The number of columns of tiles (`TileOptions::columns`). -/
def columns (p : Placement) : Nat := max p.column 1

/-- The number of rows of tiles (`TileOptions::rows`). -/
def rows (p : Placement) : Nat := max p.row 1

/-- The grid of the larger picture. -/
def tiles (p : Placement) : TileOverride := .uniform p.columns p.rows

/-- Checks that an option is at most `max` (in `TileOptions::validate`). -/
def checkOption (option : String) (value max : Nat) : Except EngineError Unit :=
  if value ≤ max then .ok () else .error (.invalidOption option value)

/-- Checks that there is a block for every column and every row of tiles (`TileOptions::check_grid`). -/
def checkGrid (p : Placement) (log2Ctb : Nat) : Except EngineError Unit :=
  if ctbsFor p.width log2Ctb < p.columns then .error (.invalidOption "column" p.column)
  else if ctbsFor p.height log2Ctb < p.rows then .error (.invalidOption "row" p.row)
  else .ok ()

/-- Checks all options (`TileOptions::validate`). -/
def check (p : Placement) : Except EngineError Unit := do
  checkOption "width" p.width maxDimension
  checkOption "height" p.height maxDimension
  checkOption "column" p.column maxTiles
  checkOption "row" p.row maxTiles
  checkOption "x" p.x maxDimension
  checkOption "y" p.y maxDimension
  p.checkGrid assumedLog2Ctb

/-- Where slices are placed (in `RawToTile::write_slice`). -/
def target (p : Placement) : SliceHeader.Target where
  width := p.width
  height := p.height
  tiles := p.tiles
  x := p.x
  y := p.y

end Placement

/-- An engine that places pictures as a tile (`RawToTile`). -/
structure Placer where
  placement : Placement
  /-- The parameter sets in force. -/
  ctx : Context
  /-- What waits for the next access unit with a slice. -/
  stream : BitStream
  deriving DecidableEq

namespace Placer

/-- A placer for a tile that has passed the checks (`RawToTile::new`). -/
def ofPlacement (p : Placement) : Except EngineError Placer := do
  p.check
  pure ⟨p, .empty, .empty⟩

/-- Writes a unit if it is a parameter set (in `RawToTile::rewrite`). -/
def writeUnit (p : Placement) (ctx : Context) (stream : BitStream) :
    DecodedUnit → Except EngineError BitStream
  | .vps set => (stream.parameterSet .vps set.encode).mapError .ofWrite
  | .sps sps => (stream.parameterSet .sps (sps.resized p.width p.height).encode).mapError .ofWrite
  | .pps pps => do
    match ctx.spsOf pps with
    | some sps => p.checkGrid sps.log2Ctb
    | none => pure ()
    (stream.parameterSet .pps (pps.encode p.tiles)).mapError .ofWrite
  | .slice _ => pure stream
  | .other _ => pure stream

/-- Writes a slice (`RawToTile::write_slice`). -/
def writeSlice (p : Placement) (ctx : Context) (stream : BitStream) (segment : SliceUnit) :
    Except EngineError BitStream := do
  let pps ← (ctx.ppsById segment.header.ppsId).elim (.error .unknownPps) .ok
  let sps ← (ctx.spsOf pps).elim (.error .unknownSps) .ok
  (stream.slice segment sps pps p.target).mapError .ofWrite

/-- Writes the parameter sets of an access unit, then its first slice (`RawToTile::rewrite`). Gives the
stream, and whether there was a slice. -/
def place (p : Placement) (ctx : Context) (stream : BitStream) (au : AccessUnit) :
    Except EngineError (BitStream × Bool) := do
  let stream ← au.units.foldlM (writeUnit p ctx) stream
  match au.slices.head? with
  | none => pure (stream, false)
  | some segment =>
    let stream ← writeSlice p ctx stream segment
    pure (stream, true)

/-- Takes an access unit and gives the packet for the larger picture, or none if there was no slice
(`RawToTile::filter`). What was written stays in the stream if there is no room for the packet. -/
def filter (s : Placer) (packet : Packet) (memory : Memory := .ample) :
    Except EngineError (Option Packet) × Placer :=
  match AccessUnit.decode s.ctx packet.data with
  | .error _ => (.ok (some packet), s)
  | .ok (au, ctx) =>
    match place s.placement ctx s.stream au with
    | .error e => (.error e, { s with ctx, stream := s.stream.reset })
    | .ok (stream, false) => (.ok none, { s with ctx, stream })
    | .ok (stream, true) =>
      match stream.packetData memory with
      | .error e => (.error e, { s with ctx, stream })
      | .ok data => (.ok (some (packet.derive data)), { s with ctx, stream := stream.reset })

/-- Drops all that waits (`RawToTile::flush`). -/
def flush (s : Placer) : Placer :=
  { s with stream := s.stream.reset }

theorem flush_eq (s : Placer) : s.flush = { s with stream := .empty } := by
  rw [flush, BitStream.reset_eq]

end Placer

end TiledVideo
