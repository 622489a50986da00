import TiledVideo.ParamSet.Id
import TiledVideo.ParamSet.ProfileTierLevel
import TiledVideo.ParamSet.RefPicSet
import TiledVideo.ParamSet.ScalingList
import TiledVideo.ParamSet.SubLayerOrdering
import TiledVideo.ParamSet.Vui

/-!
# Sequence parameter sets

The size and format of the pictures of a sequence and the coding tools that they may use. The
structure is divided where its coded form is: picture format, block sizes, coding tools, reference
pictures, usability information, extensions. Each part has a reader and a code of its own.

A set with candidates for long-term reference pictures can be read, but not written.
-/

namespace TiledVideo

/-- Why a payload is no sequence parameter set. -/
inductive SpsError where
  | read (cause : ReadError)
  | badId (cause : IdError)
  | fieldTooLarge (element : String) (value : Nat)
  | fieldTooSmall (element : String) (value : Nat)
  | refPicSet (cause : RefPicSetError)
  | scalingLists (cause : ScalingListError)
  | unsupportedExtension (extension : String)
  deriving DecidableEq, Repr

/-- A value out of its range in the usability information is a field of the set. -/
def SpsError.ofVui : VuiError → SpsError
  | .read cause => .read cause
  | .limitTooLarge element value => .fieldTooLarge element value

/-- A failure to read an element is one of this syntax itself, not of a part of it. -/
instance (priority := 2000) : MonadLift (Reader ReadError) (Reader SpsError) :=
  ⟨Reader.mapError .read⟩

instance : MonadLift (Reader RefPicSetError) (Reader SpsError) := ⟨Reader.mapError .refPicSet⟩
instance : MonadLift (Reader ScalingListError) (Reader SpsError) :=
  ⟨Reader.mapError .scalingLists⟩
instance : MonadLift (Reader VuiError) (Reader SpsError) := ⟨Reader.mapError .ofVui⟩

/-- Reads an unsigned number that must be at most `max` (`read_bounded_ue`). -/
def Sps.ueUpTo (max : Nat) (element : String) : Reader SpsError Nat := do
  let value ← Reader.ue element
  Reader.ensure (value ≤ max) (SpsError.fieldTooLarge element value)
  pure value

/-! ## Picture format -/

/-- How densely chroma is sampled. -/
inductive ChromaFormat where
  | monochrome
  | yuv420
  | yuv422
  | yuv444
  deriving DecidableEq, Repr, Inhabited

namespace ChromaFormat

/-- The number by which the format is coded (`ChromaFormat::chroma_format_idc`). -/
def idc : ChromaFormat → Nat
  | monochrome => 0
  | yuv420 => 1
  | yuv422 => 2
  | yuv444 => 3

/-- The format that a number codes (`ChromaFormat::from_chroma_format_idc`). -/
def ofIdc? : Nat → Option ChromaFormat
  | 0 => some monochrome
  | 1 => some yuv420
  | 2 => some yuv422
  | 3 => some yuv444
  | _ => none

/-- How many luma samples there are to a chroma sample, across and down (`ChromaFormat::sub_sampling`).
-/
def subSampling : ChromaFormat → Nat × Nat
  | yuv420 => (2, 2)
  | yuv422 => (2, 1)
  | monochrome | yuv444 => (1, 1)

theorem ofIdc?_eq_some_iff {n : Nat} {c : ChromaFormat} : ofIdc? n = some c ↔ n = c.idc := by
  constructor
  · intro h
    unfold ofIdc? at h
    split at h <;> cases h <;> rfl
  · rintro rfl
    cases c <;> rfl

end ChromaFormat

/-- The size and sample format of pictures. -/
structure PictureFormat where
  chroma : ChromaFormat
  /-- Whether the three colour planes are coded as pictures of their own. -/
  separatePlanes : Bool
  /-- Width in luma samples. -/
  width : Nat
  /-- Height in luma samples. -/
  height : Nat
  /-- The part of a picture that is output. -/
  window : Option Window
  bitDepthLumaMinus8 : Nat
  bitDepthChromaMinus8 : Nat
  deriving DecidableEq, Repr, Inhabited

namespace PictureFormat

/-- The largest width or height that any level permits. -/
def maxDimension : Nat := 16888

/-- Reads a width or height (`read_dimension`). -/
def parseDimension (element : String) : Reader SpsError Nat := do
  let value ← Sps.ueUpTo maxDimension element
  Reader.ensure (0 < value) (SpsError.fieldTooSmall element value)
  pure value

/-- Reads size and sample format (in `SeqParameterSet::from_bits`). -/
def parse : Reader SpsError PictureFormat := do
  let idc ← Reader.ue "chroma_format_idc"
  let chroma ←
    Reader.require (ChromaFormat.ofIdc? idc) (SpsError.fieldTooLarge "chroma_format_idc" idc)
  let separatePlanes ←
    Reader.optionalD (chroma == .yuv444) (Reader.flag "separate_colour_plane_flag") false
  let width ← parseDimension "pic_width_in_luma_samples"
  let height ← parseDimension "pic_height_in_luma_samples"
  let window ← Window.parseOptional "conformance_window_flag"
  let bitDepthLumaMinus8 ← Sps.ueUpTo 8 "bit_depth_luma_minus8"
  let bitDepthChromaMinus8 ← Sps.ueUpTo 8 "bit_depth_chroma_minus8"
  pure { chroma, separatePlanes, width, height, window, bitDepthLumaMinus8, bitDepthChromaMinus8 }

/-- The code of size and sample format (in `write_sps`). -/
def encode (f : PictureFormat) : Code := .concat [
  .ue f.chroma.idc,
  .onlyIf (f.chroma == .yuv444) (.flag f.separatePlanes),
  .ue f.width,
  .ue f.height,
  Window.encodeOptional f.window,
  .ue f.bitDepthLumaMinus8,
  .ue f.bitDepthChromaMinus8]

/-- The number of chroma arrays that matter to decoding: none if planes are coded separately
(`SeqParameterSet::chroma_array_type`). -/
def chromaArrayType (f : PictureFormat) : Nat :=
  if f.separatePlanes then 0 else f.chroma.idc

/-- Width and height of the part of a picture that is output (`SeqParameterSet::pixel_dimensions`). The
offsets are added up in 32 bits and must leave a part of the picture. -/
def outputSize (f : PictureFormat) : Except SpsError (Nat × Nat) :=
  match f.window with
  | none => .ok (f.width, f.height)
  | some w =>
    let (subWidth, subHeight) := f.chroma.subSampling
    let horizontal := (w.left + w.right) * subWidth
    let vertical := (w.top + w.bottom) * subHeight
    if 2 ^ 32 ≤ horizontal then .error (.fieldTooLarge "conf_win_right_offset" w.right)
    else if 2 ^ 32 ≤ vertical then .error (.fieldTooLarge "conf_win_bottom_offset" w.bottom)
    else if horizontal < f.width ∧ vertical < f.height then
      .ok (f.width - horizontal, f.height - vertical)
    else .error (.fieldTooLarge "conformance_window" (max horizontal vertical))

end PictureFormat

/-! ## Block sizes -/

/-- The number of coding tree blocks of `2 ^ log2Size` samples that cover `samples` (`ctbs_for`). -/
def ctbsFor (samples log2Size : Nat) : Nat :=
  (samples + 2 ^ log2Size - 1) / 2 ^ log2Size

/-- The sizes of coding and transform blocks. -/
structure BlockSizes where
  log2MinCodingMinus3 : Nat
  log2DiffMaxMinCoding : Nat
  log2MinTransformMinus2 : Nat
  log2DiffMaxMinTransform : Nat
  maxTransformDepthInter : Nat
  maxTransformDepthIntra : Nat
  deriving DecidableEq, Repr, Inhabited

namespace BlockSizes

/-- Reads block sizes (in `SeqParameterSet::from_bits`). -/
def parse : Reader SpsError BlockSizes := do
  let log2MinCodingMinus3 ← Sps.ueUpTo 3 "log2_min_luma_coding_block_size_minus3"
  let log2DiffMaxMinCoding ← Sps.ueUpTo 3 "log2_diff_max_min_luma_coding_block_size"
  Reader.ensure (log2MinCodingMinus3 + 3 + log2DiffMaxMinCoding ≤ 6)
    (SpsError.fieldTooLarge "log2_diff_max_min_luma_coding_block_size" log2DiffMaxMinCoding)
  let log2MinTransformMinus2 ← Sps.ueUpTo 3 "log2_min_luma_transform_block_size_minus2"
  let log2DiffMaxMinTransform ← Sps.ueUpTo 3 "log2_diff_max_min_luma_transform_block_size"
  let maxTransformDepthInter ← Sps.ueUpTo 4 "max_transform_hierarchy_depth_inter"
  let maxTransformDepthIntra ← Sps.ueUpTo 4 "max_transform_hierarchy_depth_intra"
  pure {
    log2MinCodingMinus3, log2DiffMaxMinCoding, log2MinTransformMinus2, log2DiffMaxMinTransform
    maxTransformDepthInter, maxTransformDepthIntra }

/-- The code of block sizes (in `write_sps`). -/
def encode (b : BlockSizes) : Code := .concat [
  .ue b.log2MinCodingMinus3,
  .ue b.log2DiffMaxMinCoding,
  .ue b.log2MinTransformMinus2,
  .ue b.log2DiffMaxMinTransform,
  .ue b.maxTransformDepthInter,
  .ue b.maxTransformDepthIntra]

/-- The binary logarithm of the size of the smallest coding blocks (`SeqParameterSet::log2_min_cb_size`).
-/
def log2MinCoding (b : BlockSizes) : Nat :=
  b.log2MinCodingMinus3 + 3

/-- The binary logarithm of the size of coding tree blocks (`SeqParameterSet::log2_ctb_size`). -/
def log2Ctb (b : BlockSizes) : Nat :=
  b.log2MinCoding + b.log2DiffMaxMinCoding

end BlockSizes

/-! ## Coding tools -/

/-- Which scaling lists are in use. -/
inductive Scaling where
  /-- None: all coefficients are scaled alike. -/
  | flat
  /-- The lists that the standard gives. -/
  | standard
  /-- The lists that are coded. -/
  | coded (lists : ScalingLists)
  deriving DecidableEq, Repr, Inhabited

namespace Scaling

/-- Whether scaling lists are in use at all. -/
def enabled : Scaling → Bool
  | flat => false
  | standard | coded _ => true

/-- The lists that are coded, if any are. -/
def lists? : Scaling → Option ScalingLists
  | coded lists => some lists
  | flat | standard => none

/-- Reads which scaling lists are in use (in `SeqParameterSet::from_bits`). -/
def parse : Reader SpsError Scaling := do
  let enabled ← Reader.flag "scaling_list_enabled_flag"
  let isCoded ← Reader.optionalD enabled (Reader.flag "sps_scaling_list_data_present_flag") false
  let lists ← Reader.optional isCoded ScalingLists.parse
  pure <| match lists with
    | some lists => coded lists
    | none => if enabled then standard else flat

/-- The code of which scaling lists are in use (in `write_sps`). -/
def encode : Scaling → Code
  | flat => .flag false
  | standard => .concat [.flag true, .flag false]
  | coded lists => .concat [.flag true, .flag true, lists.encode]

end Scaling

/-- How samples are coded without compression (`PcmParams`). -/
structure Pcm where
  bitDepthLumaMinus1 : Nat
  bitDepthChromaMinus1 : Nat
  log2MinCodingMinus3 : Nat
  log2DiffMaxMinCoding : Nat
  loopFilterDisabled : Bool
  deriving DecidableEq, Repr, Inhabited

namespace Pcm

/-- Reads how samples are coded without compression (in `SeqParameterSet::from_bits`). -/
def parse : Reader ReadError Pcm := do
  let bitDepthLumaMinus1 ← Reader.uint 4 "pcm_sample_bit_depth_luma_minus1"
  let bitDepthChromaMinus1 ← Reader.uint 4 "pcm_sample_bit_depth_chroma_minus1"
  let log2MinCodingMinus3 ← Reader.ue "log2_min_pcm_luma_coding_block_size_minus3"
  let log2DiffMaxMinCoding ← Reader.ue "log2_diff_max_min_pcm_luma_coding_block_size"
  let loopFilterDisabled ← Reader.flag "pcm_loop_filter_disabled_flag"
  pure {
    bitDepthLumaMinus1, bitDepthChromaMinus1, log2MinCodingMinus3, log2DiffMaxMinCoding
    loopFilterDisabled }

/-- The code of how samples are coded without compression (in `write_sps`). -/
def encode (p : Pcm) : Code := .concat [
  .uint 4 p.bitDepthLumaMinus1,
  .uint 4 p.bitDepthChromaMinus1,
  .ue p.log2MinCodingMinus3,
  .ue p.log2DiffMaxMinCoding,
  .flag p.loopFilterDisabled]

end Pcm

/-! ## Reference pictures -/

/-- A candidate for long-term reference pictures (`LongTermRefPicsSps`). -/
structure LongTermCandidate where
  /-- The low bits of its place in output order. -/
  pocLsb : Nat
  used : Bool
  deriving DecidableEq, Repr, Inhabited

namespace LongTermCandidate

/-- Reads a candidate whose place is given in `width` bits. -/
def parse (width : Nat) : Reader ReadError LongTermCandidate := do
  let pocLsb ← Reader.uint width "lt_ref_pic_poc_lsb_sps"
  let used ← Reader.flag "used_by_curr_pic_lt_sps_flag"
  pure { pocLsb, used }

/-- Reads all candidates (in `SeqParameterSet::from_bits`). -/
def parseAll (width : Nat) : Reader SpsError (List LongTermCandidate) := do
  let count ← Sps.ueUpTo 32 "num_long_term_ref_pics_sps"
  Reader.times count (parse width)

end LongTermCandidate

/-- Reads the short-term reference picture sets (in `SeqParameterSet::from_bits`). -/
def Sps.parseRefPicSets : Reader SpsError (List RefPicSet) := do
  let count ← Sps.ueUpTo 64 "num_short_term_ref_pic_sets"
  RefPicSet.parseAll count

/-! ## Extensions -/

/-- Coding tools of the range extension. -/
structure SpsRangeExtension where
  transformSkipRotation : Bool
  transformSkipContext : Bool
  implicitRdpcm : Bool
  explicitRdpcm : Bool
  extendedPrecision : Bool
  intraSmoothingDisabled : Bool
  highPrecisionOffsets : Bool
  persistentRiceAdaptation : Bool
  cabacBypassAlignment : Bool
  deriving DecidableEq, Repr, Inhabited

namespace SpsRangeExtension

/-- Reads the range extension (`SpsRangeExtension::read`). -/
def parse : Reader ReadError SpsRangeExtension := do
  let transformSkipRotation ← Reader.flag "transform_skip_rotation_enabled_flag"
  let transformSkipContext ← Reader.flag "transform_skip_context_enabled_flag"
  let implicitRdpcm ← Reader.flag "implicit_rdpcm_enabled_flag"
  let explicitRdpcm ← Reader.flag "explicit_rdpcm_enabled_flag"
  let extendedPrecision ← Reader.flag "extended_precision_processing_flag"
  let intraSmoothingDisabled ← Reader.flag "intra_smoothing_disabled_flag"
  let highPrecisionOffsets ← Reader.flag "high_precision_offsets_enabled_flag"
  let persistentRiceAdaptation ← Reader.flag "persistent_rice_adaptation_enabled_flag"
  let cabacBypassAlignment ← Reader.flag "cabac_bypass_alignment_enabled_flag"
  pure {
    transformSkipRotation, transformSkipContext, implicitRdpcm, explicitRdpcm, extendedPrecision
    intraSmoothingDisabled, highPrecisionOffsets, persistentRiceAdaptation, cabacBypassAlignment }

/-- The code of the range extension (`SpsRangeExtension::write`). -/
def encode (e : SpsRangeExtension) : Code := .concat [
  .flag e.transformSkipRotation,
  .flag e.transformSkipContext,
  .flag e.implicitRdpcm,
  .flag e.explicitRdpcm,
  .flag e.extendedPrecision,
  .flag e.intraSmoothingDisabled,
  .flag e.highPrecisionOffsets,
  .flag e.persistentRiceAdaptation,
  .flag e.cabacBypassAlignment]

end SpsRangeExtension

/-- The extensions of a sequence parameter set. -/
structure SpsExtensions where
  range : Option SpsRangeExtension
  /-- Bits that announce extensions not known yet, whose data is passed over. -/
  unknown : Nat
  deriving DecidableEq, Repr, Inhabited

namespace SpsExtensions

/-- No extensions. -/
def absent : SpsExtensions := ⟨none, 0⟩

/-- Reads a flag that announces an extension which cannot be read. -/
def parseUnsupported (extension : String) : Reader SpsError Unit := do
  let present ← Reader.flag (extension ++ "_flag")
  Reader.ensure (!present) (SpsError.unsupportedExtension extension)

/-- Reads extensions that are present. -/
def parsePresent : Reader SpsError SpsExtensions := do
  let hasRange ← Reader.flag "sps_range_extension_flag"
  parseUnsupported "sps_multilayer_extension"
  parseUnsupported "sps_3d_extension"
  parseUnsupported "sps_scc_extension"
  let unknown ← Reader.uint 4 "sps_extension_4bits"
  let range ← Reader.optional hasRange SpsRangeExtension.parse
  pure { range, unknown }

/-- Reads the extensions to the end of the payload, where nothing else may follow known ones (in
`SeqParameterSet::from_bits`). -/
def parse : Reader SpsError SpsExtensions := do
  let present ← Reader.flag "sps_extension_present_flag"
  let extensions ← Reader.optionalD present parsePresent absent
  Reader.optionalD (extensions.unknown == 0) Reader.finish ()
  pure extensions

/-- The code of the range extension if there is one; others are left out (in `write_sps`). -/
def encode (e : SpsExtensions) : Code :=
  match e.range with
  | none => .flag false
  | some range => .concat [.flag true, .flag true, .uint 7 0, range.encode]

end SpsExtensions

/-! ## All together -/

/-- A sequence parameter set (`SeqParameterSet`). -/
structure Sps where
  vpsId : Nat
  maxSubLayersMinus1 : Nat
  temporalIdNesting : Bool
  profileTierLevel : ProfileTierLevel
  id : SpsId
  format : PictureFormat
  log2MaxPocLsbMinus4 : Nat
  ordering : SubLayerOrdering
  blocks : BlockSizes
  scaling : Scaling
  /-- Asymmetric partitions for prediction. -/
  amp : Bool
  /-- Sample adaptive offset. -/
  sao : Bool
  pcm : Option Pcm
  refPicSets : List RefPicSet
  longTerm : Option (List LongTermCandidate)
  temporalMvp : Bool
  strongIntraSmoothing : Bool
  vui : Option Vui
  extensions : SpsExtensions
  deriving DecidableEq, Repr, Inhabited

namespace Sps

/-- Reads a sequence parameter set (`SeqParameterSet::from_bits`). -/
def parse : Reader SpsError Sps := do
  let vpsId ← Reader.uint 4 "sps_video_parameter_set_id"
  let maxSubLayersMinus1 ← Reader.uint 3 "sps_max_sub_layers_minus1"
  Reader.ensure (maxSubLayersMinus1 ≤ 6)
    (SpsError.fieldTooLarge "sps_max_sub_layers_minus1" maxSubLayersMinus1)
  let temporalIdNesting ← Reader.flag "sps_temporal_id_nesting_flag"
  let profileTierLevel ← ProfileTierLevel.parse maxSubLayersMinus1
  let idNumber ← Reader.ue "sps_seq_parameter_set_id"
  let id ← Reader.ofExcept ((SpsId.ofNat idNumber).mapError SpsError.badId)
  let format ← PictureFormat.parse
  let log2MaxPocLsbMinus4 ← ueUpTo 12 "log2_max_pic_order_cnt_lsb_minus4"
  let ordering ←
    SubLayerOrdering.parse "sps_sub_layer_ordering_info_present_flag" maxSubLayersMinus1
  let blocks ← BlockSizes.parse
  let scaling ← Scaling.parse
  let amp ← Reader.flag "amp_enabled_flag"
  let sao ← Reader.flag "sample_adaptive_offset_enabled_flag"
  let hasPcm ← Reader.flag "pcm_enabled_flag"
  let pcm ← Reader.optional hasPcm Pcm.parse
  let refPicSets ← parseRefPicSets
  let hasLongTerm ← Reader.flag "long_term_ref_pics_present_flag"
  let longTerm ←
    Reader.optional hasLongTerm (LongTermCandidate.parseAll (log2MaxPocLsbMinus4 + 4))
  let temporalMvp ← Reader.flag "sps_temporal_mvp_enabled_flag"
  let strongIntraSmoothing ← Reader.flag "strong_intra_smoothing_enabled_flag"
  let hasVui ← Reader.flag "vui_parameters_present_flag"
  let vui ← Reader.optional hasVui (Vui.parse maxSubLayersMinus1)
  let extensions ← SpsExtensions.parse
  pure {
    vpsId, maxSubLayersMinus1, temporalIdNesting, profileTierLevel, id, format
    log2MaxPocLsbMinus4, ordering, blocks, scaling, amp, sao, pcm, refPicSets, longTerm
    temporalMvp, strongIntraSmoothing, vui, extensions }

/-- The payload of a sequence parameter set (`write_sps`). -/
def encode (s : Sps) : Code := .closed <| .concat [
  .ensure s.longTerm.isNone (.unsupported "long_term_ref_pics_present_flag"),
  .uint 4 s.vpsId,
  .uint 3 s.maxSubLayersMinus1,
  .flag s.temporalIdNesting,
  s.profileTierLevel.encode,
  .ue s.id.val,
  s.format.encode,
  .ue s.log2MaxPocLsbMinus4,
  s.ordering.encode,
  s.blocks.encode,
  s.scaling.encode,
  .flag s.amp,
  .flag s.sao,
  .flag s.pcm.isSome,
  .option Pcm.encode s.pcm,
  .ue s.refPicSets.length,
  RefPicSet.encodeAll s.refPicSets,
  .flag false,
  .flag s.temporalMvp,
  .flag s.strongIntraSmoothing,
  .flag s.vui.isSome,
  .option Vui.encode s.vui,
  s.extensions.encode]

/-- The set for pictures of another size (in `write_sps`). -/
def resized (s : Sps) (width height : Nat) : Sps :=
  { s with format := { s.format with width, height } }

/-! ## Derived values -/

/-- The number of low bits by which places in output order are coded
(`SeqParameterSet::log2_max_pic_order_cnt_lsb`). -/
def log2MaxPocLsb (s : Sps) : Nat :=
  s.log2MaxPocLsbMinus4 + 4

/-- The binary logarithm of the size of coding tree blocks (`SeqParameterSet::log2_ctb_size`). -/
def log2Ctb (s : Sps) : Nat :=
  s.blocks.log2Ctb

/-- The size of coding tree blocks (`SeqParameterSet::ctb_size`). -/
def ctbSize (s : Sps) : Nat :=
  2 ^ s.log2Ctb

/-- The number of coding tree blocks across a picture (`SeqParameterSet::pic_width_in_ctbs`). -/
def widthInCtbs (s : Sps) : Nat :=
  ctbsFor s.format.width s.log2Ctb

/-- The number of coding tree blocks down a picture (`SeqParameterSet::pic_height_in_ctbs`). -/
def heightInCtbs (s : Sps) : Nat :=
  ctbsFor s.format.height s.log2Ctb

/-- The number of coding tree blocks of a picture (`SeqParameterSet::pic_size_in_ctbs`). -/
def sizeInCtbs (s : Sps) : Nat :=
  s.widthInCtbs * s.heightInCtbs

end Sps

end TiledVideo
