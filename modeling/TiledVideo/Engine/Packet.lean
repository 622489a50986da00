import TiledVideo.Bitstream.Code
import TiledVideo.Tiling.Layout

/-!
# Packets

What the engines take and give: the bytes of one access unit, with the timing and flags of the
container that it came from. Timing and flags are passed on as they are.

Packets and streams need room. What there is room for is not up to an engine, so each call comes with
the memory that it finds, and fails where this has no room.
-/

namespace TiledVideo

/-- One access unit as a byte stream. -/
structure Packet where
  data : Bytes
  /-- When the picture is shown. -/
  pts : Option Int := none
  /-- When the picture is decoded. -/
  dts : Option Int := none
  flags : Nat := 0
  /-- The tile that the packet is for, if it is for one. -/
  tile : Option Nat := none
  deriving DecidableEq, Repr, Inhabited

namespace Packet

/-- A packet of other data with the same timing and flags, for no tile (`Packet::derive`). -/
def derive (p : Packet) (data : Bytes) : Packet :=
  { p with data, tile := none }

/-- Whether two packets have the same timing and flags (in `TileRepacker::push`). -/
def sameTiming (p q : Packet) : Bool :=
  p.pts == q.pts && p.dts == q.dts && p.flags == q.flags

/-- Whether decoding can start at the packet (`Packet::is_key`). -/
def isKey (p : Packet) : Bool :=
  p.flags % 2 == 1

end Packet

/-- Why an engine refused a packet or could not give one (`FilterError`). -/
inductive EngineError where
  /-- The stream contradicts itself or what the engine has seen of it. -/
  | invalidData (what : String)
  /-- The stream uses a feature that is not written. -/
  | unsupported (what : String)
  /-- There was no room for a packet, or for the streams of the tiles. -/
  | outOfMemory
  /-- Packets are still to be received before more can be sent. -/
  | pendingOutput
  | invalidOption (option : String) (value : Int)
  deriving DecidableEq, Repr

namespace EngineError

/-! ## Wording -/

/-- The message shown to a user (`FilterError::fmt`). -/
def message : EngineError → String
  | invalidData what => s!"invalid data: {what}"
  | unsupported what => s!"unsupported: {what}"
  | outOfMemory => "out of memory"
  | pendingOutput => "output pending"
  | invalidOption option value => s!"option {option} out of range: {value}"

/-! ## Contradictions in a stream -/

/-- The extradata could not be read. -/
def badExtradata : EngineError := invalidData "extradata"

/-- The extradata have no picture parameter set. -/
def noPps : EngineError := invalidData "no PPS in extradata"

/-- The pictures are not divided into tiles. -/
def tilesNotEnabled : EngineError := invalidData "tiles not enabled"

/-- The number of tiles is not the one it was. -/
def tileCountChanged : EngineError := invalidData "tile count changed"

/-- A parameter set came before any that tells the number of tiles. -/
def tileCountUnknown : EngineError := invalidData "tile count unknown"

/-- A sequence parameter set must come directly before the picture parameter set that it is sized
by. -/
def spsWithoutPps : EngineError := invalidData "SPS not followed by its PPS"

/-- A slice names a picture parameter set that is not known. -/
def unknownPps : EngineError := invalidData "slice refers to unknown PPS"

/-- A picture parameter set names a sequence parameter set that is not known. -/
def unknownSps : EngineError := invalidData "PPS refers to unknown SPS"

/-- A slice is outside the picture. -/
def addressOutside : EngineError := invalidData "slice segment address outside picture"

/-- A tile is outside the layout. -/
def badTileIndex : EngineError := invalidData "tile index"

/-- A packet is for no tile. -/
def untagged : EngineError := invalidData "packet without tile index"

/-- A packet is for a tile that does not exist. -/
def tileOutOfRange : EngineError := invalidData "tile index out of range"

/-- There already is a packet for the tile. -/
def duplicateTile : EngineError := invalidData "duplicated tile index"

/-- The packets of a picture differ in timing or flags. -/
def timingMismatch : EngineError := invalidData "packet metadata does not match"

/-- The packet of a tile is not a byte stream. -/
def notByteStream : EngineError := invalidData "tile packet is not Annex B"

/-! ## Errors of other parts -/

/-- What a failure to write means to the user of an engine (`FilterError::from`). -/
def ofWrite : WriteError → EngineError
  | .unsupported feature => unsupported feature
  | .invalidValue element _ => invalidData element
  | .notByteAligned => invalidData "unaligned write"

/-- What a missing or unexpected layout means to the user of an engine (`FilterError::from`). -/
def ofLayout : LayoutError → EngineError
  | .tilesDisabled => tilesNotEnabled
  | .explicitSizeOverflow true => invalidData "tile column widths exceed picture"
  | .explicitSizeOverflow false => invalidData "tile row heights exceed picture"
  | .mismatch what => invalidData what

end EngineError

/-! ## Room -/

/-- What there is room for during a call. Nothing needs no room. -/
structure Memory where
  /-- Whether there is room for that many new streams. -/
  streams : Nat → Bool
  /-- Whether there is room for a packet of that many bytes. -/
  bytes : Nat → Bool
  streams_zero : streams 0 = true := by rfl
  bytes_zero : bytes 0 = true := by rfl

namespace Memory

/-- There is room for everything. -/
def ample : Memory where
  streams := fun _ => true
  bytes := fun _ => true

/-- Room for a packet of `n` bytes (`packet::alloc`). -/
def alloc (memory : Memory) (n : Nat) : Except EngineError Unit :=
  if memory.bytes n then .ok () else .error .outOfMemory

@[simp] theorem alloc_ample (n : Nat) : ample.alloc n = .ok () := rfl

theorem alloc_eq_error_iff {memory : Memory} {n : Nat} {e : EngineError} :
    memory.alloc n = .error e ↔ memory.bytes n = false ∧ e = .outOfMemory := by
  unfold alloc
  cases memory.bytes n with
  | false => simp [eq_comm]
  | true => simp

end Memory

end TiledVideo
