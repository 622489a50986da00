import TiledVideo.Engine.Assembler
import TiledVideo.Engine.Placer
import TiledVideo.Engine.Splitter

/-!
# Splitting, placing and assembling

The three engines in a row. Each access unit is split; the packet of each tile is placed by the
placer of its tile; and the results are put together again.
-/

namespace TiledVideo

/-- A splitter, a placer for each tile and an assembler. -/
structure Relay where
  splitter : Splitter
  placers : List Placer
  assembler : Assembler
  deriving DecidableEq

namespace Relay

/-- Steps of the engines. A step that fails may have changed them. -/
abbrev Step := EStateM EngineError Relay

/-- Engines for tiles at the given places. -/
def ofPlacements (placements : List Placement) : Except EngineError Relay := do
  let placers ← placements.mapM Placer.ofPlacement
  let assembler ← Assembler.ofTileCount placements.length
  pure ⟨.empty, placers, assembler⟩

/-- Sends an access unit to the splitter. -/
def send (packet : Packet) : Step Unit := fun s =>
  match s.splitter.send packet with
  | (.ok (), splitter) => .ok () { s with splitter }
  | (.error e, splitter) => .error e { s with splitter }

/-- Receives a packet from the splitter. -/
def receive : Step (Option Packet) := fun s =>
  match s.splitter.receive with
  | (.ok packet, splitter) => .ok packet { s with splitter }
  | (.error e, splitter) => .error e { s with splitter }

/-- Passes a packet through a placer. -/
def place (tile : Nat) (packet : Packet) : Step (Option Packet) := fun s =>
  match s.placers[tile]? with
  | none => .error .badTileIndex s
  | some placer =>
    match placer.filter packet with
    | (.ok placed, placer) => .ok placed { s with placers := s.placers.set tile placer }
    | (.error e, placer) => .error e { s with placers := s.placers.set tile placer }

/-- Pushes a packet into the assembler. -/
def push (packet : Packet) : Step (Option Packet) := fun s =>
  match s.assembler.push packet with
  | (.ok picture, assembler) => .ok picture { s with assembler }
  | (.error e, assembler) => .error e { s with assembler }

/-- Passes on the packet of a tile. Gives what came out of the assembler, or `last` if nothing was
pushed. -/
def pass (last : Option Packet) (packet : Packet) : Step (Option Packet) :=
  match packet.tile with
  | none => throw .untagged
  | some tile => do
    match ← place tile packet with
    | none => pure last
    | some placed => push { placed with tile := some tile }

/-- Passes on up to `n` packets from the splitter, until there are no more. -/
def passAll : Nat → Option Packet → Step (Option Packet)
  | 0, last => pure last
  | n + 1, last => do
    match ← receive with
    | none => pure last
    | some packet => passAll n (← pass last packet)

/-- Passes an access unit through all engines. Gives what came out at the last push. -/
def process (packet : Packet) : Step (Option Packet) := do
  send packet
  let s ← get
  passAll s.splitter.pendingCount none

end Relay

end TiledVideo
