import TiledVideo.AccessUnit
import TiledVideo.Engine.Packet

/-!
# Writing units

The units that the engines write: parameter sets and slice segments, each with a long start code.
Parameter sets belong to the lowest temporal sub-layer. The data of a slice follows its header as it
was read.
-/

namespace TiledVideo.BitStream

/-- Writes a parameter set of a given type (in `FrameSplitter::distribute_parameter_sets` and
`RawToTile::rewrite`). -/
def parameterSet (s : BitStream) (unitType : UnitType) (code : Code) :
    Except WriteError BitStream := do
  let s ← s.nalHeader unitType 0 true
  s.appendCode code

/-- Writes a slice segment placed at `target`, with the parameter sets that it was read with (in
`FrameSplitter::write_slice` and `RawToTile::write_slice`). -/
def slice (s : BitStream) (segment : SliceUnit) (sps : Sps) (pps : Pps)
    (target : SliceHeader.Target) : Except WriteError BitStream := do
  let unitType := segment.nalHeader.unitType
  let s ← s.nalHeader unitType segment.nalHeader.temporalId.val true
  let s ← s.appendCode (segment.header.encode unitType sps pps target)
  s.payload segment.data

/-- The data of a packet of all that was written (in `FrameSplitter::write_slice` and
`RawToTile::filter`). -/
def packetData (memory : Memory) (s : BitStream) : Except EngineError Bytes := do
  let room ← s.byteCount.mapError .ofWrite
  memory.alloc room
  (s.fetch room).mapError .ofWrite

end TiledVideo.BitStream
