import TiledVideo.Nal.ByteStream
import TiledVideo.Nal.Payload
import TiledVideo.Slice.Header

/-!
# Access units

An access unit is the NAL units of one picture. Its parameter sets come into force one by one, and
each later unit is read with those in force at its place. Nothing is kept of an access unit with a
unit that cannot be read.

Only the base layer is decoded. Units of other layers and units that carry neither a parameter set
nor a slice are passed over, but their headers are kept.

Results:

* `decodeNals_append`: the units of a longer list are those of its parts, one after the other.
-/

namespace TiledVideo

/-- Why an access unit could not be read. -/
inductive UnitError where
  | byteStream (cause : ByteStreamError)
  | nalHeader (cause : NalHeaderError)
  | payload (cause : ReadError)
  | vps (cause : VpsError)
  | sps (cause : SpsError)
  | pps (cause : PpsError)
  | slice (cause : SliceError)
  deriving DecidableEq, Repr

/-- A slice segment: its header and the data that follows. -/
structure SliceUnit where
  nalHeader : NalHeader
  header : SliceHeader
  /-- The payload of the whole unit, without emulation prevention bytes. -/
  payload : Bytes
  /-- Where the slice data begins in the payload. -/
  dataOffset : Nat
  deriving DecidableEq, Repr

namespace SliceUnit

/-- The slice data (`SliceUnit::data`). -/
def data (s : SliceUnit) : Bytes :=
  s.payload.drop s.dataOffset

/-- The slice segment in a payload (in `AccessUnit::parse`). `previous` is the last independent segment
before it. -/
def decode (ctx : Context) (previous : Option SliceHeader) (nalHeader : NalHeader)
    (payload : Bytes) : Except SliceError SliceUnit := do
  let (header, position) ←
    (SliceHeader.parse ctx nalHeader.unitType previous).decodeFront payload
  pure { nalHeader, header, payload, dataOffset := position / 8 }

end SliceUnit

/-- A unit of an access unit (`Unit`). -/
inductive DecodedUnit where
  | vps (set : Vps)
  | sps (set : Sps)
  | pps (set : Pps)
  | slice (segment : SliceUnit)
  /-- A unit that is not decoded. -/
  | other (header : NalHeader)
  deriving DecidableEq, Repr

namespace DecodedUnit

/-- The slice segment that a unit is, if it is one. -/
def slice? : DecodedUnit → Option SliceUnit
  | slice segment => some segment
  | _ => none

/-- The picture parameter set that a unit is, if it is one. -/
def pps? : DecodedUnit → Option Pps
  | pps set => some set
  | _ => none

end DecodedUnit

/-- What the units read so far mean for the next one. -/
structure DecoderState where
  /-- The parameter sets in force. -/
  ctx : Context
  /-- The last independent slice segment. -/
  lastIndependent : Option SliceHeader

namespace DecoderState

/-- The state before an access unit. -/
def start (ctx : Context) : DecoderState := ⟨ctx, none⟩

/-- The state after a unit (in `AccessUnit::parse`). -/
def after (s : DecoderState) : DecodedUnit → DecoderState
  | .vps set => { s with ctx := s.ctx.putVps set }
  | .sps set => { s with ctx := s.ctx.putSps set }
  | .pps set => { s with ctx := s.ctx.putPps set }
  | .slice segment =>
    if segment.header.dependent then s else { s with lastIndependent := some segment.header }
  | .other _ => s

/-- Reads a unit of the base layer (in `AccessUnit::parse`). -/
def decodeBase (s : DecoderState) (header : NalHeader) (nal : Bytes) :
    Except UnitError DecodedUnit := do
  if header.unitType = .vps then
    let payload ← (nalPayload nal).mapError .payload
    .vps <$> (Context.decodeVps payload).mapError .vps
  else if header.unitType = .sps then
    let payload ← (nalPayload nal).mapError .payload
    .sps <$> (Context.decodeSps payload).mapError .sps
  else if header.unitType = .pps then
    let payload ← (nalPayload nal).mapError .payload
    .pps <$> (s.ctx.decodePps payload).mapError .pps
  else if header.unitType.isSlice then
    let payload ← (nalPayload nal).mapError .payload
    .slice <$> (SliceUnit.decode s.ctx s.lastIndependent header payload).mapError .slice
  else
    pure (.other header)

/-- Reads a unit (in `AccessUnit::parse`). -/
def decodeNal (s : DecoderState) (nal : Bytes) : Except UnitError DecodedUnit := do
  let header ← (NalHeader.ofBytes nal).mapError .nalHeader
  if header.layerId = 0 then s.decodeBase header nal else pure (.other header)

/-- Reads units in order, and gives the state after them (in `AccessUnit::parse`). -/
def decodeNals (s : DecoderState) : List Bytes → Except UnitError (List DecodedUnit × DecoderState)
  | [] => .ok ([], s)
  | nal :: nals => do
    let unit ← s.decodeNal nal
    let (units, last) ← (s.after unit).decodeNals nals
    pure (unit :: units, last)

theorem decodeNals_append (s : DecoderState) (a b : List Bytes) :
    s.decodeNals (a ++ b) = (do
      let (us, s₁) ← s.decodeNals a
      let (vs, s₂) ← s₁.decodeNals b
      pure (us ++ vs, s₂)) := by
  induction a generalizing s with
  | nil =>
    simp only [List.nil_append, decodeNals]
    cases h : s.decodeNals b <;> simp [h, bind, Except.bind, pure, Except.pure]
  | cons nal a ih =>
    simp only [List.cons_append, decodeNals]
    cases hu : s.decodeNal nal with
    | error e => rfl
    | ok unit =>
      simp only [bind, Except.bind]
      rw [ih]
      cases ha : (s.after unit).decodeNals a with
      | error e => rfl
      | ok r =>
        simp only [bind, Except.bind, pure, Except.pure]
        cases hb : r.2.decodeNals b <;> rfl

end DecoderState

/-- The units of a picture in the order of the byte stream. -/
structure AccessUnit where
  units : List DecodedUnit
  deriving DecidableEq, Repr

namespace AccessUnit

/-- Reads an access unit with the parameter sets in force before it, and gives those in force after it
(`AccessUnit::parse`). -/
def decode (ctx : Context) (bytes : Bytes) : Except UnitError (AccessUnit × Context) := do
  let found ← (ByteStream.units bytes).mapError .byteStream
  let (units, last) ← (DecoderState.start ctx).decodeNals (found.map (·.nal))
  pure (⟨units⟩, last.ctx)

/-- The slice segments of an access unit. -/
def slices (au : AccessUnit) : List SliceUnit :=
  au.units.filterMap DecodedUnit.slice?

/-- The first picture parameter set of an access unit. -/
def firstPps (au : AccessUnit) : Option Pps :=
  au.units.findSome? DecodedUnit.pps?

end AccessUnit

end TiledVideo
