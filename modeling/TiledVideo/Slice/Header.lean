import TiledVideo.Nal.Header
import TiledVideo.ParamSet.Context
import TiledVideo.Slice.Prediction
import TiledVideo.Slice.RefPics

/-!
# Slice segment headers

A slice segment begins with its place in the picture and the number of its picture parameter set.
The fields of an independent segment follow; a dependent segment has those of the independent
segment before it. Entry points and extension data come last, and the header is filled up to whole
bytes.

A header can be written for a picture of another size and with another grid of tiles than those it
was read with. Only its place, its entry points and the reserved bits change then.
-/

namespace TiledVideo

/-! ## Quantisation and deblocking -/

/-- Changes to the quantisation within a slice. -/
structure SliceQp where
  delta : Int
  cbOffset : Int
  crOffset : Int
  cuChromaOffsetEnabled : Bool
  deriving DecidableEq, Repr, Inhabited

namespace SliceQp

/-- Reads changes to the quantisation (in `SliceSegmentHeader::read_independent`). -/
def parse (pps : Pps) : Reader ReadError SliceQp := do
  let delta ← Reader.se "slice_qp_delta"
  let cbOffset ←
    Reader.optionalD pps.sliceChromaQpOffsetsPresent (Reader.se "slice_cb_qp_offset") 0
  let crOffset ←
    Reader.optionalD pps.sliceChromaQpOffsetsPresent (Reader.se "slice_cr_qp_offset") 0
  let cuChromaOffsetEnabled ←
    Reader.optionalD pps.hasChromaQpOffsets (Reader.flag "cu_chroma_qp_offset_enabled_flag") false
  pure { delta, cbOffset, crOffset, cuChromaOffsetEnabled }

/-- The code of changes to the quantisation (in `write_independent`). -/
def encode (pps : Pps) (q : SliceQp) : Code := .concat [
  .se q.delta,
  .onlyIf pps.sliceChromaQpOffsetsPresent (.se q.cbOffset),
  .onlyIf pps.sliceChromaQpOffsetsPresent (.se q.crOffset),
  .onlyIf pps.hasChromaQpOffsets (.flag q.cuChromaOffsetEnabled)]

end SliceQp

/-- The deblocking filter in a slice. -/
structure SliceDeblocking where
  /-- Whether the slice has settings of its own. -/
  overrides : Bool
  disabled : Bool
  betaOffsetDiv2 : Int
  tcOffsetDiv2 : Int
  deriving DecidableEq, Repr, Inhabited

namespace SliceDeblocking

/-- Reads the settings of the deblocking filter; those of the picture hold where there are none (in
`SliceSegmentHeader::read_independent`). -/
def parse (control : DeblockingControl) : Reader ReadError SliceDeblocking := do
  let overrides ←
    Reader.optionalD control.overrideEnabled (Reader.flag "deblocking_filter_override_flag") false
  let disabled ←
    Reader.optionalD overrides (Reader.flag "slice_deblocking_filter_disabled_flag")
      control.disabled
  let hasOffsets := overrides && !disabled
  let betaOffsetDiv2 ←
    Reader.optionalD hasOffsets (Reader.se "slice_beta_offset_div2") control.betaOffsetDiv2
  let tcOffsetDiv2 ←
    Reader.optionalD hasOffsets (Reader.se "slice_tc_offset_div2") control.tcOffsetDiv2
  pure { overrides, disabled, betaOffsetDiv2, tcOffsetDiv2 }

/-- Whether settings of the slice's own are written. -/
def overridesIn (control : DeblockingControl) (d : SliceDeblocking) : Bool :=
  control.overrideEnabled && d.overrides

/-- Whether the filter is off in the slice that is written. -/
def disabledIn (control : DeblockingControl) (d : SliceDeblocking) : Bool :=
  if d.overridesIn control then d.disabled else control.disabled

/-- The code of the settings of the deblocking filter (in `write_independent`). -/
def encode (control : DeblockingControl) (d : SliceDeblocking) : Code :=
  let hasOffsets := d.overridesIn control && !d.disabled
  .concat [
    .onlyIf control.overrideEnabled (.flag d.overrides),
    .onlyIf (d.overridesIn control) (.flag d.disabled),
    .onlyIf hasOffsets (.se d.betaOffsetDiv2),
    .onlyIf hasOffsets (.se d.tcOffsetDiv2)]

end SliceDeblocking

/-! ## Fields of independent segments -/

/-- The fields that a dependent segment takes over from the independent segment before it. -/
structure SliceFields where
  /-- Reserved flags as a number, the first flag in the highest bit. -/
  reservedFlags : Nat
  type : SliceType
  output : Bool
  /-- Given if the colour planes are coded as pictures of their own. -/
  colourPlane : Option Nat
  refs : RefPics
  saoLuma : Bool
  saoChroma : Bool
  prediction : Prediction
  qp : SliceQp
  deblocking : SliceDeblocking
  loopFilterAcross : Bool
  deriving DecidableEq, Repr, Inhabited

namespace SliceFields

/-- What is known of a slice when its prediction is read or written. -/
def setting (sps : Sps) (type : SliceType) (refs : RefPics) (total : Nat) : Prediction.Setting where
  type := type
  total := total
  temporalMvp := refs.temporalMvp
  chroma := sps.format.chromaArrayType != 0

/-- Whether a filter works in the slice that could work across its borders too. -/
def canFilterAcross (pps : Pps) (saoLuma saoChroma deblockingDisabled : Bool) : Bool :=
  pps.loopFilterAcrossSlices && (saoLuma || saoChroma || !deblockingDisabled)

/-- Reads the fields of an independent segment (`SliceSegmentHeader::read_independent`). -/
def parse (unitType : UnitType) (sps : Sps) (pps : Pps) : Reader SliceError SliceFields := do
  let reservedFlags ← Reader.uint pps.numExtraSliceHeaderBits "slice_reserved_flag"
  let type ← SliceType.parse
  let output ← Reader.optionalD pps.outputFlagPresent (Reader.flag "pic_output_flag") true
  let colourPlane ←
    Reader.optional sps.format.separatePlanes (Reader.uint 2 "colour_plane_id")
  let refs ← Reader.optionalD (!unitType.isIdr) (RefPics.parse sps) RefPics.absent
  let saoLuma ← Reader.optionalD sps.sao (Reader.flag "slice_sao_luma_flag") false
  let saoChroma ← Reader.optionalD (sps.sao && sps.format.chromaArrayType != 0)
    (Reader.flag "slice_sao_chroma_flag") false
  let prediction ← Reader.optionalD type.isInter
    (Prediction.parse pps (setting sps type refs (refs.totalCount sps))) (Prediction.inferred pps)
  let qp ← SliceQp.parse pps
  let deblocking ← SliceDeblocking.parse pps.deblockingControl
  let loopFilterAcross ←
    Reader.optionalD (canFilterAcross pps saoLuma saoChroma deblocking.disabled)
      (Reader.flag "slice_loop_filter_across_slices_enabled_flag") pps.loopFilterAcrossSlices
  pure {
    reservedFlags, type, output, colourPlane, refs, saoLuma, saoChroma, prediction, qp, deblocking
    loopFilterAcross }

/-- The code of the fields of an independent segment (`write_independent`). Reserved flags are cleared.
-/
def encode (unitType : UnitType) (sps : Sps) (pps : Pps) (f : SliceFields) : Code := .concat [
  .uint pps.numExtraSliceHeaderBits 0,
  .ue f.type.id,
  .onlyIf (!unitType.isIdr) (f.refs.encode sps),
  .onlyIf sps.sao (.flag f.saoLuma),
  .onlyIf (sps.sao && sps.format.chromaArrayType != 0) (.flag f.saoChroma),
  .onlyIf f.type.isInter
    (f.prediction.encode pps (setting sps f.type f.refs (f.refs.shortTermCount sps))),
  f.qp.encode pps,
  f.deblocking.encode pps.deblockingControl,
  .onlyIf (canFilterAcross pps f.saoLuma f.saoChroma
      (f.deblocking.disabledIn pps.deblockingControl))
    (.flag f.loopFilterAcross)]

end SliceFields

/-! ## Entry points -/

/-- Where the parts of a segment begin that can be decoded in parallel. -/
structure EntryPoints where
  offsetLengthMinus1 : Nat
  offsetsMinus1 : List Nat
  deriving DecidableEq, Repr, Inhabited

namespace EntryPoints

/-- Reads entry points, of which there are at most as many as blocks in the picture
(`read_entry_points`). -/
def parse (sps : Sps) : Reader SliceError EntryPoints := do
  let count ← SliceError.ueUpTo sps.sizeInCtbs "num_entry_point_offsets"
  let offsetLengthMinus1 ←
    Reader.optionalD (count != 0) (SliceError.ueUpTo 31 "offset_len_minus1") 0
  let offsetsMinus1 ←
    Reader.times count (Reader.uint (offsetLengthMinus1 + 1) "entry_point_offset_minus1")
  pure { offsetLengthMinus1, offsetsMinus1 }

/-- The code of entry points; their length is left out if there are none (in `write_slice_header`). -/
def encode (e : EntryPoints) : Code := .concat [
  .ue e.offsetsMinus1.length,
  .onlyIf (!e.offsetsMinus1.isEmpty) (.ue e.offsetLengthMinus1),
  .each (.uint (e.offsetLengthMinus1 + 1)) e.offsetsMinus1]

/-- No entry points. -/
def none : EntryPoints := ⟨0, []⟩

end EntryPoints

/-! ## Headers -/

/-- The header of a slice segment (`SliceSegmentHeader`). -/
structure SliceHeader where
  /-- Whether the segment is the first of its picture. -/
  first : Bool
  noOutputOfPriorPics : Bool
  ppsId : PpsId
  dependent : Bool
  /-- The place of the first block of the segment, in raster order. -/
  address : Nat
  /-- The fields of the segment, or of the independent segment before it. -/
  fields : SliceFields
  /-- Given if parts of the segment can be decoded in parallel. -/
  entryPoints : Option EntryPoints
  /-- Given if the picture parameter set announces extension data. -/
  extension : Option (List Nat)
  deriving DecidableEq, Repr, Inhabited

namespace SliceHeader

/-- Reads the address of a segment (in `SliceSegmentHeader::from_bits`). -/
def parseAddress (sps : Sps) : Reader SliceError Nat := do
  let address ← Reader.uint (Bits.widthFor sps.sizeInCtbs) "slice_segment_address"
  Reader.ensure (address < sps.sizeInCtbs)
    (SliceError.fieldTooLarge "slice_segment_address" address)
  pure address

/-- Reads the extension data of a header (in `SliceSegmentHeader::from_bits`). -/
def parseExtension : Reader SliceError (List Nat) := do
  let length ← SliceError.ueUpTo 256 "slice_segment_header_extension_length"
  Reader.times length (Reader.uint 8 "slice_segment_header_extension_data_byte")

/-- Reads the alignment at the end of a header (in `SliceSegmentHeader::from_bits`). -/
def parseAlignment : Reader SliceError Unit := do
  let one ← Reader.flag "alignment_bit_equal_to_one"
  Reader.ensure one SliceError.missingAlignmentBit
  Reader.skipToByte "alignment_bit_equal_to_zero"

/-- Reads the header of a segment in a unit of a given type, up to the first byte of its data
(`SliceSegmentHeader::from_bits`). `previous` is the last independent segment of the picture so far. -/
def parse (ctx : Context) (unitType : UnitType) (previous : Option SliceHeader) :
    Reader SliceError SliceHeader := do
  let first ← Reader.flag "first_slice_segment_in_pic_flag"
  let noOutputOfPriorPics ←
    Reader.optionalD unitType.isIrap (Reader.flag "no_output_of_prior_pics_flag") false
  let ppsIdNumber ← Reader.ue "slice_pic_parameter_set_id"
  let ppsId ← Reader.ofExcept ((PpsId.ofNat ppsIdNumber).mapError SliceError.badPpsId)
  let pps ← Reader.require (ctx.ppsById ppsId) (SliceError.undefinedPps ppsId)
  let sps ← Reader.require (ctx.spsOf pps) (SliceError.undefinedSps pps.spsId)
  let dependent ← Reader.optionalD (!first && pps.dependentSlices)
    (Reader.flag "dependent_slice_segment_flag") false
  let address ← Reader.optionalD (!first) (parseAddress sps) 0
  let fields ←
    if dependent then
      Reader.require (previous.map (·.fields)) SliceError.missingIndependentSegment
    else SliceFields.parse unitType sps pps
  let entryPoints ← Reader.optional pps.partition.hasEntryPoints (EntryPoints.parse sps)
  let extension ← Reader.optional pps.sliceHeaderExtensionPresent parseExtension
  parseAlignment
  pure { first, noOutputOfPriorPics, ppsId, dependent, address, fields, entryPoints, extension }

/-- Where a segment is placed in the picture that is written (`SliceTarget`). -/
structure Target where
  /-- Width of the picture in luma samples. -/
  width : Nat
  /-- Height of the picture in luma samples. -/
  height : Nat
  /-- What becomes of the grid of tiles of the picture parameter set. -/
  tiles : TileOverride
  /-- Where the first block of the segment is, in luma samples. -/
  x : Nat
  y : Nat
  /-- Whether the fields of an independent segment are written. -/
  independent : Bool := true
  deriving DecidableEq, Repr

namespace Target

/-- Whether the segment is the first of its picture. -/
def isFirst (t : Target) : Bool :=
  t.x == 0 && t.y == 0

/-- The place of the first block of the segment, in raster order (in `write_slice_header`). -/
def address (t : Target) (log2Ctb : Nat) : Nat :=
  t.y / 2 ^ log2Ctb * ctbsFor t.width log2Ctb + t.x / 2 ^ log2Ctb

/-- The number of blocks of the picture. -/
def sizeInCtbs (t : Target) (log2Ctb : Nat) : Nat :=
  ctbsFor t.width log2Ctb * ctbsFor t.height log2Ctb

/-- The code of the address, which must be in the picture (in `write_slice_header`). -/
def encodeAddress (t : Target) (log2Ctb : Nat) : Code := .concat [
  .ensure (t.x < t.width && t.y < t.height)
    (.invalidValue "slice_segment_address" (max t.x t.y : Nat)),
  .uint (Bits.widthFor (t.sizeInCtbs log2Ctb)) (t.address log2Ctb)]

end Target

/-- The code of extension data (in `write_slice_header`). -/
def encodeExtension (data : List Nat) : Code := .concat [
  .ue data.length,
  .each (.uint 8) data]

/-- The header of a segment placed at `t`, for a unit of a given type and with the parameter sets that
the header was read with (`write_slice_header`). -/
def encode (h : SliceHeader) (unitType : UnitType) (sps : Sps) (pps : Pps) (t : Target) : Code :=
  .closed <| .concat [
    .ensure (!pps.outputFlagPresent) (.unsupported "output_flag_present_flag"),
    .ensure (!sps.format.separatePlanes) (.unsupported "separate_colour_plane_flag"),
    .ensure sps.longTerm.isNone (.unsupported "long_term_ref_pics_present_flag"),
    .flag t.isFirst,
    .onlyIf unitType.isIrap (.flag h.noOutputOfPriorPics),
    .ue h.ppsId.val,
    .onlyIf (!t.isFirst) (t.encodeAddress sps.log2Ctb),
    .onlyIf t.independent (h.fields.encode unitType sps pps),
    .onlyIf (t.tiles.apply pps.partition).hasEntryPoints
      (h.entryPoints.getD .none).encode,
    .onlyIf pps.sliceHeaderExtensionPresent (encodeExtension (h.extension.getD []))]

end SliceHeader

end TiledVideo
