import TiledVideo.Engine.UnitWriter
import TiledVideo.Extradata.Basic
import TiledVideo.Tiling.LayoutTable

/-!
# Splitting pictures into tiles

A splitter takes pictures that are divided into tiles and gives a stream for each tile that can be
decoded on its own. Every parameter set goes into the streams of all tiles: sequence parameter sets
with the size of the tile, picture parameter sets without tiles. Each slice is placed at the corner
of its tile's picture and given out at once, together with the parameter sets that wait in the
stream of its tile.

An access unit that cannot be read is given back as it came. If one cannot be split, all that waits
in the streams is dropped.
-/

namespace TiledVideo

/-- The streams of the tiles, and the layouts that place slices in them. -/
structure TileStreams where
  layouts : LayoutTable
  /-- A stream for each tile; none as long as their number is not known. -/
  streams : List BitStream
  deriving DecidableEq

namespace TileStreams

/-- Steps that write to the streams. A step that fails may have changed them. -/
abbrev Step := EStateM EngineError TileStreams

/-- A failure of another part as a failure of a step. -/
def lift {ε α : Type} (f : ε → EngineError) (result : Except ε α) : Step α :=
  match result with
  | .ok a => pure a
  | .error e => throw (f e)

/-- No streams and no layouts. -/
def empty : TileStreams := ⟨.empty, []⟩

/-- Streams for a number of tiles, with nothing in them. -/
def fresh (tiles : Nat) : List BitStream :=
  List.replicate tiles .empty

/-- Streams for a number of tiles, if there is room for them (`new_streams`). -/
def newStreams (memory : Memory) (tiles : Nat) : Except EngineError (List BitStream) :=
  if memory.streams tiles then .ok (fresh tiles) else .error .outOfMemory

/-- The streams, which are made for a number of tiles if there are none (in
`FrameSplitter::write_slice`). -/
def openStreams (memory : Memory) (tiles : Nat) (t : TileStreams) :
    Except EngineError (List BitStream) :=
  if t.streams.isEmpty then newStreams memory tiles else .ok t.streams

/-- Drops all that waits in the streams (`FrameSplitter::reset_streams`). -/
def reset (t : TileStreams) : TileStreams :=
  { t with streams := t.streams.map BitStream.reset }

/-- The layout of a pair of parameter sets, from now on in use (in `FrameSplitter::write_sps` and
`FrameSplitter::write_slice`). -/
def resolve (sps : Sps) (pps : Pps) : Step TileLayout := do
  let t ← get
  let (layout, layouts) ← lift .ofLayout (t.layouts.resolve sps pps)
  set { t with layouts }
  pure layout

/-! ## Parameter sets -/

/-- Makes streams for the tiles of the first picture parameter set, unless there are any
(`FrameSplitter::ensure_streams`, in `FrameSplitter::distribute_parameter_sets`). -/
def prepare (memory : Memory) (au : AccessUnit) : Step Unit := do
  let t ← get
  match t.streams, au.firstPps with
  | [], some pps =>
    if pps.partition.tiles.isSome then
      let streams ← lift id (newStreams memory pps.partition.tileCount)
      set { t with streams }
    else throw .tilesNotEnabled
  | _, _ => pure ()

/-- Writes a parameter set to all streams (`FrameSplitter::streams_for`, in
`FrameSplitter::distribute_parameter_sets`). -/
def writeAll (unitType : UnitType) (code : Code) : Step Unit := do
  let t ← get
  if t.streams.isEmpty then throw .tileCountUnknown
  let streams ← lift .ofWrite (t.streams.mapM (·.parameterSet unitType code))
  set { t with streams }

/-- Writes a sequence parameter set with the size of its tile to a stream (in
`FrameSplitter::write_sps`). -/
def writeSized (sps : Sps) (layout : TileLayout) (stream : BitStream × Nat) :
    Except EngineError BitStream :=
  match layout.tileSize stream.2 with
  | none => .error .badTileIndex
  | some (width, height) =>
    (stream.1.parameterSet .sps (sps.resized width height).encode).mapError .ofWrite

/-- Writes a sequence parameter set to all streams, sized by the layout of a picture parameter set
(`FrameSplitter::write_sps`). -/
def writeSps (sps : Sps) (pps : Pps) : Step Unit := do
  let layout ← resolve sps pps
  let t ← get
  if t.streams.length ≠ layout.tileCount then throw .tileCountChanged
  let streams ← lift id (t.streams.zipIdx.mapM (writeSized sps layout))
  set { t with streams }

/-- The picture parameter set that directly follows a sequence parameter set and names it (in
`FrameSplitter::distribute_parameter_sets`). -/
def ppsAfter (sps : Sps) : List DecodedUnit → Option Pps
  | .pps pps :: _ => if pps.spsId = sps.id then some pps else none
  | _ => none

/-- Writes the parameter sets among the units of an access unit (in
`FrameSplitter::distribute_parameter_sets`). -/
def distribute : List DecodedUnit → Step Unit
  | [] => pure ()
  | .vps set :: rest => do
    writeAll .vps set.encode
    distribute rest
  | .sps sps :: rest => do
    match ppsAfter sps rest with
    | some pps => writeSps sps pps
    | none => throw .spsWithoutPps
    distribute rest
  | .pps pps :: rest => do
    writeAll .pps (pps.encode .remove)
    distribute rest
  | .slice _ :: rest => distribute rest
  | .other _ :: rest => distribute rest

/-- Writes the parameter sets of an access unit (`FrameSplitter::distribute_parameter_sets`). -/
def distributeAll (memory : Memory) (au : AccessUnit) : Step Unit := do
  prepare memory au
  distribute au.units

/-! ## Slices -/

/-- Writes a slice to the stream of its tile and takes out all that is in the stream
(`FrameSplitter::write_slice`). -/
def writeSlice (memory : Memory) (ctx : Context) (segment : SliceUnit) : Step (Nat × Bytes) := do
  let pps ← lift id ((ctx.ppsById segment.header.ppsId).elim (.error .unknownPps) .ok)
  let sps ← lift id ((ctx.spsOf pps).elim (.error .unknownSps) .ok)
  let layout ← resolve sps pps
  let tile ← lift id ((layout.tileIndex segment.header.address).elim (.error .addressOutside) .ok)
  let (width, height) ← lift id ((layout.tileSize tile).elim (.error .badTileIndex) .ok)
  let t ← get
  let streams ← lift id (t.openStreams memory layout.tileCount)
  set { t with streams }
  if streams.length ≠ layout.tileCount then throw .tileCountChanged
  let stream ← lift id (streams[tile]?.elim (.error .badTileIndex) .ok)
  let target : SliceHeader.Target := { width, height, tiles := .remove, x := 0, y := 0 }
  let written ← lift .ofWrite (stream.slice segment sps pps target)
  let data ← lift id (written.packetData memory)
  set { t with streams := streams.set tile written.reset }
  pure (tile, data)

end TileStreams

/-! ## The splitter -/

namespace Splitter

/-- What a splitter is at (`State`). -/
inductive Phase where
  /-- Waiting for an access unit. -/
  | idle
  /-- Giving back an access unit that could not be read. -/
  | passThrough (packet : Packet)
  /-- Giving out the slices of an access unit, of which `next` is the first left. -/
  | distributing (input : Packet) (next : SliceUnit) (later : List SliceUnit)
  deriving DecidableEq, Repr

/-- The phase in which the slices that are left of an access unit are given out. -/
def Phase.ofSlices (input : Packet) : List SliceUnit → Phase
  | [] => .idle
  | next :: later => .distributing input next later

end Splitter

/-- An engine that splits pictures into tiles (`FrameSplitter`). -/
structure Splitter where
  /-- The parameter sets in force. -/
  ctx : Context
  tiles : TileStreams
  phase : Splitter.Phase
  deriving DecidableEq

namespace Splitter

/-- A splitter that learns the number of tiles from the stream (`FrameSplitter::default`). -/
def empty : Splitter := ⟨.empty, .empty, .idle⟩

/-- A splitter that knows the parameter sets of extradata (`FrameSplitter::new`). The first picture
parameter set gives the number of tiles, and its layout is in use from the start. -/
def ofExtradata (bytes : Bytes) (memory : Memory := .ample) : Except EngineError Splitter := do
  let sets ← (Extradata.decode bytes).mapError fun _ => .badExtradata
  let pps ← sets.firstPps.elim (.error .noPps) .ok
  if pps.partition.tiles.isNone then throw .tilesNotEnabled
  let streams ← TileStreams.newStreams memory pps.partition.tileCount
  match sets.ctx.spsOf pps with
  | none => pure ⟨sets.ctx, ⟨.empty, streams⟩, .idle⟩
  | some sps =>
    let (_, layouts) ← (LayoutTable.empty.resolve sps pps).mapError .ofLayout
    pure ⟨sets.ctx, ⟨layouts, streams⟩, .idle⟩

/-- The number of tiles, zero as long as it is not known (`FrameSplitter::num_tiles`). -/
def tileCount (s : Splitter) : Nat :=
  s.tiles.streams.length

/-- Takes the next access unit, once all packets of the one before have been received
(`FrameSplitter::send`). -/
def send (s : Splitter) (packet : Packet) (memory : Memory := .ample) :
    Except EngineError Unit × Splitter :=
  match s.phase with
  | .passThrough _ | .distributing .. => (.error .pendingOutput, s)
  | .idle =>
    match AccessUnit.decode s.ctx packet.data with
    | .error _ => (.ok (), { s with phase := .passThrough packet })
    | .ok (au, ctx) =>
      match TileStreams.distributeAll memory au s.tiles with
      | .error e tiles => (.error e, ⟨ctx, tiles.reset, .idle⟩)
      | .ok () tiles => (.ok (), ⟨ctx, tiles, .ofSlices packet au.slices⟩)

/-- Gives the next packet, or none if the access unit is used up (`FrameSplitter::receive`). -/
def receive (s : Splitter) (memory : Memory := .ample) :
    Except EngineError (Option Packet) × Splitter :=
  match s.phase with
  | .idle => (.ok none, s)
  | .passThrough packet => (.ok (some packet), { s with phase := .idle })
  | .distributing input next later =>
    match TileStreams.writeSlice memory s.ctx next s.tiles with
    | .error e tiles => (.error e, { s with tiles := tiles.reset, phase := .idle })
    | .ok (tile, data) tiles =>
      (.ok (some { input.derive data with tile := some tile }),
        { s with tiles, phase := .ofSlices input later })

/-- The number of packets that are left of the access unit at hand. -/
def pendingCount (s : Splitter) : Nat :=
  match s.phase with
  | .idle => 0
  | .passThrough _ => 1
  | .distributing _ _ later => later.length + 1

/-- Receives up to `n` packets, until there are no more or one cannot be given. -/
def receiveUpTo : Nat → Splitter → List (Except EngineError Packet) × Splitter
  | 0, s => ([], s)
  | n + 1, s =>
    match s.receive with
    | (.ok none, s) => ([], s)
    | (.error e, s) => ([.error e], s)
    | (.ok (some packet), s) =>
      let (later, s) := receiveUpTo n s
      (.ok packet :: later, s)

/-- Receives all packets that are left. -/
def drain (s : Splitter) : List (Except EngineError Packet) × Splitter :=
  receiveUpTo s.pendingCount s

/-- Drops the access unit that is at hand and all that waits in the streams (`FrameSplitter::flush`). -/
def flush (s : Splitter) : Splitter :=
  { s with tiles := s.tiles.reset, phase := .idle }

end Splitter

end TiledVideo
