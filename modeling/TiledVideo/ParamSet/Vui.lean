import TiledVideo.ParamSet.Hrd
import TiledVideo.ParamSet.Window

/-!
# Video usability information

How the pictures of a sequence are meant to be shown: the shape of their samples, their colours, the
time base and the limits that the stream keeps to. All of it is optional.
-/

namespace TiledVideo

/-! ## Sample aspect ratio -/

/-- The width and height of a sample (`AspectRatioInfo`). -/
inductive SampleAspect where
  | unspecified
  /-- One of the ratios in the standard's table. -/
  | listed (index : Fin 16)
  /-- A code without a meaning. -/
  | reserved (idc : Nat)
  | extended (width height : Nat)
  deriving DecidableEq, Repr, Inhabited

namespace SampleAspect

/-- The ratios in the standard's table, width and height. -/
def table : Vector (Nat × Nat) 16 :=
  #v[(1, 1), (12, 11), (10, 11), (16, 11), (40, 33), (24, 11), (20, 11), (32, 11),
     (80, 33), (18, 11), (15, 11), (64, 33), (160, 99), (4, 3), (3, 2), (2, 1)]

/-- The number by which the ratio is coded (`AspectRatioInfo::to_u8`). -/
def idc : SampleAspect → Nat
  | unspecified => 0
  | listed index => index.val + 1
  | reserved idc => idc
  | extended _ _ => 255

/-- Width and height, if they are specified; neither may be zero (`AspectRatioInfo::get`). -/
def ratio? : SampleAspect → Option (Nat × Nat)
  | unspecified => none
  | listed index => some table[index]
  | reserved _ => none
  | extended width height => if width = 0 ∨ height = 0 then none else some (width, height)

/-- Reads a ratio (`AspectRatioInfo::read`). -/
def parse : Reader ReadError SampleAspect := do
  let idc ← Reader.uint 8 "aspect_ratio_idc"
  if idc = 0 then pure unspecified
  else if h : idc - 1 < 16 then pure (listed ⟨idc - 1, h⟩)
  else if idc = 255 then do
    let width ← Reader.uint 16 "sar_width"
    let height ← Reader.uint 16 "sar_height"
    pure (extended width height)
  else pure (reserved idc)

/-- The code of a ratio (`AspectRatioInfo::write`). -/
def encode (a : SampleAspect) : Code :=
  match a with
  | extended width height => .concat [.uint 8 a.idc, .uint 16 width, .uint 16 height]
  | _ => .uint 8 a.idc

end SampleAspect

/-! ## Overscan and colour -/

/-- Whether the cropped pictures are suited for display with overscan (`OverscanAppropriate`). -/
inductive Overscan where
  | unspecified
  | appropriate
  | inappropriate
  deriving DecidableEq, Repr, Inhabited

namespace Overscan

/-- Reads whether overscan is suited (`OverscanAppropriate::read`). -/
def parse : Reader ReadError Overscan := do
  let specified ← Reader.flag "overscan_info_present_flag"
  let suited ← Reader.optional specified (Reader.flag "overscan_appropriate_flag")
  pure <| match suited with
    | none => unspecified
    | some true => appropriate
    | some false => inappropriate

/-- The code of whether overscan is suited (`OverscanAppropriate::write`). -/
def encode : Overscan → Code
  | unspecified => .flag false
  | appropriate => .concat [.flag true, .flag true]
  | inappropriate => .concat [.flag true, .flag false]

end Overscan

/-- The representation of pictures before they were coded. -/
inductive VideoFormat where
  | component
  | pal
  | ntsc
  | secam
  | mac
  | unspecified
  /-- A code without a meaning. -/
  | reserved (code : Nat)
  deriving DecidableEq, Repr, Inhabited

namespace VideoFormat

/-- The format with a given code (`VideoFormat::from`). -/
def ofCode : Nat → VideoFormat
  | 0 => component
  | 1 => pal
  | 2 => ntsc
  | 3 => secam
  | 4 => mac
  | 5 => unspecified
  | code => reserved code

/-- The code of a format (`VideoFormat::to_u8`). -/
def code : VideoFormat → Nat
  | component => 0
  | pal => 1
  | ntsc => 2
  | secam => 3
  | mac => 4
  | unspecified => 5
  | reserved code => code

theorem code_ofCode (n : Nat) : (ofCode n).code = n := by
  unfold ofCode
  split <;> rfl

end VideoFormat

/-- The meaning of the sample values. -/
structure ColourDescription where
  primaries : Nat
  transfer : Nat
  matrix : Nat
  deriving DecidableEq, Repr, Inhabited

namespace ColourDescription

/-- Reads the meaning of the sample values (in `VideoSignalType::read`). -/
def parse : Reader ReadError ColourDescription := do
  let primaries ← Reader.uint 8 "colour_primaries"
  let transfer ← Reader.uint 8 "transfer_characteristics"
  let matrix ← Reader.uint 8 "matrix_coefficients"
  pure { primaries, transfer, matrix }

/-- The code of the meaning of the sample values (in `VideoSignalType::write`). -/
def encode (c : ColourDescription) : Code := .concat [
  .uint 8 c.primaries,
  .uint 8 c.transfer,
  .uint 8 c.matrix]

end ColourDescription

/-- The video signal that the samples stand for (`VideoSignalType`). -/
structure VideoSignal where
  format : VideoFormat
  fullRange : Bool
  colour : Option ColourDescription
  deriving DecidableEq, Repr, Inhabited

namespace VideoSignal

/-- Reads the kind of video signal (`VideoSignalType::read`). -/
def parse : Reader ReadError VideoSignal := do
  let code ← Reader.uint 3 "video_format"
  let fullRange ← Reader.flag "video_full_range_flag"
  let hasColour ← Reader.flag "colour_description_present_flag"
  let colour ← Reader.optional hasColour ColourDescription.parse
  pure { format := VideoFormat.ofCode code, fullRange, colour }

/-- The code of the kind of video signal (`VideoSignalType::write`). -/
def encode (v : VideoSignal) : Code := .concat [
  .uint 3 v.format.code,
  .flag v.fullRange,
  .flag v.colour.isSome,
  .option ColourDescription.encode v.colour]

end VideoSignal

/-- Where chroma samples lie between luma samples (`ChromaLocInfo`). -/
structure ChromaLocation where
  topField : Nat
  bottomField : Nat
  deriving DecidableEq, Repr, Inhabited

namespace ChromaLocation

/-- Reads where chroma samples lie (in `VuiParameters::read`). -/
def parse : Reader ReadError ChromaLocation := do
  let topField ← Reader.ue "chroma_sample_loc_type_top_field"
  let bottomField ← Reader.ue "chroma_sample_loc_type_bottom_field"
  pure { topField, bottomField }

/-- The code of where chroma samples lie (in `VuiParameters::write`). -/
def encode (c : ChromaLocation) : Code := .concat [
  .ue c.topField,
  .ue c.bottomField]

end ChromaLocation

/-! ## Time base -/

/-- The time base of a sequence, and a buffer model (`VuiTimingInfo`). -/
structure VuiTiming where
  numUnitsInTick : Nat
  timeScale : Nat
  numTicksPocDiffOneMinus1 : Option Nat
  hrd : Option Hrd
  deriving DecidableEq, Repr, Inhabited

namespace VuiTiming

/-- Reads the time base (in `VuiParameters::read`). -/
def parse (maxSubLayersMinus1 : Nat) : Reader ReadError VuiTiming := do
  let numUnitsInTick ← Reader.uint 32 "vui_num_units_in_tick"
  let timeScale ← Reader.uint 32 "vui_time_scale"
  let proportional ← Reader.flag "vui_poc_proportional_to_timing_flag"
  let numTicksPocDiffOneMinus1 ←
    Reader.optional proportional (Reader.ue "vui_num_ticks_poc_diff_one_minus1")
  let hasHrd ← Reader.flag "vui_hrd_parameters_present_flag"
  let hrd ← Reader.optional hasHrd (Hrd.parse true maxSubLayersMinus1 none)
  pure { numUnitsInTick, timeScale, numTicksPocDiffOneMinus1, hrd }

/-- The code of the time base (in `VuiParameters::write`). -/
def encode (t : VuiTiming) : Code := .concat [
  .uint 32 t.numUnitsInTick,
  .uint 32 t.timeScale,
  .flag t.numTicksPocDiffOneMinus1.isSome,
  .option .ue t.numTicksPocDiffOneMinus1,
  .flag t.hrd.isSome,
  .option Hrd.encode t.hrd]

end VuiTiming

/-! ## Limits -/

/-- Limits that a stream keeps to (`BitstreamRestrictions`). -/
structure BitstreamLimits where
  tilesFixed : Bool
  motionVectorsOverPicBoundaries : Bool
  restrictedRefPicLists : Bool
  minSpatialSegmentationIdc : Nat
  maxBytesPerPicDenom : Nat
  maxBitsPerMinCuDenom : Nat
  log2MaxMvLengthHorizontal : Nat
  log2MaxMvLengthVertical : Nat
  deriving DecidableEq, Repr, Inhabited

namespace BitstreamLimits

/-- The first of the limits that is beyond its range, with its value. -/
def firstTooLarge (b : BitstreamLimits) : Option (String × Nat) :=
  (([("min_spatial_segmentation_idc", b.minSpatialSegmentationIdc, 4095),
     ("max_bytes_per_pic_denom", b.maxBytesPerPicDenom, 16),
     ("max_bits_per_min_cu_denom", b.maxBitsPerMinCuDenom, 16),
     ("log2_max_mv_length_horizontal", b.log2MaxMvLengthHorizontal, 16),
     ("log2_max_mv_length_vertical", b.log2MaxMvLengthVertical, 16)] :
    List (String × Nat × Nat)).find? fun (_, value, max) => max < value).map
      fun (element, value, _) => (element, value)

/-- Reads the limits; all are read before any is checked (`BitstreamRestrictions::read`). -/
def parse : Reader ReadError BitstreamLimits := do
  let tilesFixed ← Reader.flag "tiles_fixed_structure_flag"
  let motionVectorsOverPicBoundaries ← Reader.flag "motion_vectors_over_pic_boundaries_flag"
  let restrictedRefPicLists ← Reader.flag "restricted_ref_pic_lists_flag"
  let minSpatialSegmentationIdc ← Reader.ue "min_spatial_segmentation_idc"
  let maxBytesPerPicDenom ← Reader.ue "max_bytes_per_pic_denom"
  let maxBitsPerMinCuDenom ← Reader.ue "max_bits_per_min_cu_denom"
  let log2MaxMvLengthHorizontal ← Reader.ue "log2_max_mv_length_horizontal"
  let log2MaxMvLengthVertical ← Reader.ue "log2_max_mv_length_vertical"
  pure {
    tilesFixed, motionVectorsOverPicBoundaries, restrictedRefPicLists, minSpatialSegmentationIdc
    maxBytesPerPicDenom, maxBitsPerMinCuDenom, log2MaxMvLengthHorizontal
    log2MaxMvLengthVertical }

/-- The code of the limits (in `VuiParameters::write`). -/
def encode (b : BitstreamLimits) : Code := .concat [
  .flag b.tilesFixed,
  .flag b.motionVectorsOverPicBoundaries,
  .flag b.restrictedRefPicLists,
  .ue b.minSpatialSegmentationIdc,
  .ue b.maxBytesPerPicDenom,
  .ue b.maxBitsPerMinCuDenom,
  .ue b.log2MaxMvLengthHorizontal,
  .ue b.log2MaxMvLengthVertical]

end BitstreamLimits

/-! ## All together -/

/-- Why usability information could not be read. -/
inductive VuiError where
  | read (cause : ReadError)
  | limitTooLarge (element : String) (value : Nat)
  deriving DecidableEq, Repr

instance : MonadLift (Reader ReadError) (Reader VuiError) := ⟨Reader.mapError .read⟩

/-- Video usability information (`VuiParameters`). -/
structure Vui where
  aspect : Option SampleAspect
  overscan : Overscan
  signal : Option VideoSignal
  chromaLocation : Option ChromaLocation
  neutralChroma : Bool
  fieldSeq : Bool
  frameFieldInfo : Bool
  displayWindow : Option Window
  timing : Option VuiTiming
  limits : Option BitstreamLimits
  deriving DecidableEq, Repr, Inhabited

namespace Vui

/-- Reads usability information (`VuiParameters::read`). -/
def parse (maxSubLayersMinus1 : Nat) : Reader VuiError Vui := do
  let hasAspect ← Reader.flag "aspect_ratio_info_present_flag"
  let aspect ← Reader.optional hasAspect SampleAspect.parse
  let overscan ← Overscan.parse
  let hasSignal ← Reader.flag "video_signal_type_present_flag"
  let signal ← Reader.optional hasSignal VideoSignal.parse
  let hasChromaLocation ← Reader.flag "chroma_loc_info_present_flag"
  let chromaLocation ← Reader.optional hasChromaLocation ChromaLocation.parse
  let neutralChroma ← Reader.flag "neutral_chroma_indication_flag"
  let fieldSeq ← Reader.flag "field_seq_flag"
  let frameFieldInfo ← Reader.flag "frame_field_info_present_flag"
  let displayWindow ← Window.parseOptional "default_display_window_flag"
  let hasTiming ← Reader.flag "vui_timing_info_present_flag"
  let timing ← Reader.optional hasTiming (VuiTiming.parse maxSubLayersMinus1)
  let hasLimits ← Reader.flag "bitstream_restriction_flag"
  let limits ← Reader.optional hasLimits BitstreamLimits.parse
  match limits.bind BitstreamLimits.firstTooLarge with
  | some (element, value) => throw (.limitTooLarge element value)
  | none => pure {
      aspect, overscan, signal, chromaLocation, neutralChroma, fieldSeq, frameFieldInfo
      displayWindow, timing, limits }

/-- The code of usability information (`VuiParameters::write`). -/
def encode (v : Vui) : Code := .concat [
  .flag v.aspect.isSome,
  .option SampleAspect.encode v.aspect,
  v.overscan.encode,
  .flag v.signal.isSome,
  .option VideoSignal.encode v.signal,
  .flag v.chromaLocation.isSome,
  .option ChromaLocation.encode v.chromaLocation,
  .flag v.neutralChroma,
  .flag v.fieldSeq,
  .flag v.frameFieldInfo,
  Window.encodeOptional v.displayWindow,
  .flag v.timing.isSome,
  .option VuiTiming.encode v.timing,
  .flag v.limits.isSome,
  .option BitstreamLimits.encode v.limits]

end Vui

end TiledVideo
