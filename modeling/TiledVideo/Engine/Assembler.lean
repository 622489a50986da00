import TiledVideo.Engine.Packet
import TiledVideo.Nal.ByteStream

/-!
# Assembling pictures from tiles

An assembler collects the packets of the tiles of a picture, in any order. When the last has come,
it gives the packet of the first tile with the slices of the other tiles behind it, in the order of
the tiles. So parameter sets are taken from the first tile alone.

A packet that is refused changes nothing. A picture that is complete leaves nothing behind, even if
it cannot be put together.
-/

namespace TiledVideo

/-- An engine that assembles pictures from tiles (`TileRepacker`). -/
structure Assembler where
  /-- The packets that have come for the picture at hand, by tile. -/
  tiles : List (Option Packet)
  /-- A packet with the timing and flags of the first that came. -/
  first : Option Packet
  deriving DecidableEq

namespace Assembler

/-- The largest number of tiles. -/
def maxTiles : Nat := 255

/-- An assembler of pictures with no packets yet. -/
def empty (tileCount : Nat) : Assembler :=
  ⟨List.replicate tileCount none, none⟩

/-- An assembler for a number of tiles (`TileRepacker::new`). -/
def ofTileCount (tileCount : Nat) : Except EngineError Assembler :=
  if tileCount = 0 ∨ maxTiles < tileCount then .error (.invalidOption "tile_num" tileCount)
  else .ok (empty tileCount)

/-- The number of tiles (`TileRepacker::tile_num`). -/
def tileCount (s : Assembler) : Nat :=
  s.tiles.length

/-- Checks that a packet is for a tile that is still missing, and gives the tile (in
`TileRepacker::push`). -/
def check (s : Assembler) (packet : Packet) : Except EngineError Nat :=
  match packet.tile with
  | none => .error .untagged
  | some tile =>
    match s.tiles[tile]? with
    | none => .error .tileOutOfRange
    | some (some _) => .error .duplicateTile
    | some none =>
      if s.first.all (packet.sameTiming ·) then .ok tile else .error .timingMismatch

/-- Whether a unit carries a slice (in `TileRepacker::repack`). -/
def isVcl (nal : Bytes) : Bool :=
  match NalHeader.ofBytes nal with
  | .ok header => header.unitType.isVcl
  | .error _ => false

/-- The slices of a tile, with their start codes (in `TileRepacker::repack`). -/
def slicesOf (packet : Packet) : Except EngineError Bytes := do
  let units ← (ByteStream.units packet.data).mapError fun _ => .notByteStream
  pure ((units.filter (isVcl ·.nal)).flatMap (·.framed))

/-- The data of the picture that packets in the order of their tiles make (in `TileRepacker::repack`). -/
def assemble : List Packet → Except EngineError Bytes
  | [] => .ok []
  | tile₀ :: others => do
    let slices ← others.mapM slicesOf
    pure (tile₀.data ++ slices.flatten)

/-- The packet of the picture, with given timing and flags, if there is room for all that the tiles
brought (`TileRepacker::repack`). -/
def repack (memory : Memory) (first : Packet) (tiles : List Packet) : Except EngineError Packet := do
  memory.alloc (tiles.map (·.data.length)).sum
  let data ← assemble tiles
  pure (first.derive data)

theorem repack_ample (first : Packet) (tiles : List Packet) :
    repack .ample first tiles = first.derive <$> assemble tiles := by
  rw [repack, Memory.alloc_ample, map_eq_pure_bind]
  rfl

/-- Takes the packet of a tile and gives the packet of the picture if it is complete
(`TileRepacker::push`). -/
def push (s : Assembler) (packet : Packet) (memory : Memory := .ample) :
    Except EngineError (Option Packet) × Assembler :=
  match s.check packet with
  | .error e => (.error e, s)
  | .ok tile =>
    let first := s.first.getD (packet.derive [])
    let tiles := s.tiles.set tile (some packet)
    if tiles.all Option.isSome then
      (some <$> repack memory first (tiles.filterMap id), empty s.tileCount)
    else (.ok none, ⟨tiles, some first⟩)

/-- Drops the packets of a picture that is not complete (`TileRepacker::flush`). -/
def flush (s : Assembler) : Assembler :=
  empty s.tileCount

end Assembler

end TiledVideo
