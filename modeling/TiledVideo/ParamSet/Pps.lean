import TiledVideo.ParamSet.Sps

/-!
# Picture parameter sets

The coding tools of single pictures, among them the grid of tiles that a picture is divided into. A
set is read against the sequence parameter set that it names, whose picture size bounds the grid.

When a set is written, its grid can be kept, removed or replaced. All slice segments that go with it
are independent of each other, so dependent segments are never announced.
-/

namespace TiledVideo

/-- Why a payload is no picture parameter set. -/
inductive PpsError where
  | read (cause : ReadError)
  /-- A default number of reference pictures out of range. -/
  | invalidNumRefIdx (element : String) (value : Nat)
  /-- The sequence parameter set is not known. -/
  | unknownSps (id : SpsId)
  | badPpsId (cause : IdError)
  | badSpsId (cause : IdError)
  | scalingLists (cause : ScalingListError)
  | fieldTooLarge (element : String) (value : Nat)
  | unsupportedExtension (extension : String)
  deriving DecidableEq, Repr

/-- A failure to read an element is one of this syntax itself, not of a part of it. -/
instance (priority := 2000) : MonadLift (Reader ReadError) (Reader PpsError) :=
  ⟨Reader.mapError .read⟩

instance : MonadLift (Reader ScalingListError) (Reader PpsError) :=
  ⟨Reader.mapError .scalingLists⟩

/-! ## Tiles -/

/-- The sizes of tile columns and rows. -/
inductive TileSpacing where
  /-- As equal as whole coding tree blocks allow. -/
  | uniform
  /-- Given in coding tree blocks, minus one, for all columns and rows but the last. -/
  | explicit (columnWidthsMinus1 rowHeightsMinus1 : List Nat)
  deriving DecidableEq, Repr, Inhabited

/-- The grid of tiles of a picture (`TileInfo`). -/
structure TileGrid where
  columnsMinus1 : Nat
  rowsMinus1 : Nat
  spacing : TileSpacing
  loopFilterAcross : Bool
  deriving DecidableEq, Repr, Inhabited

namespace TileSpacing

/-- Reads the sizes of tile columns and rows (in `TileInfo::read`). -/
def parse (columnsMinus1 rowsMinus1 : Nat) : Reader ReadError TileSpacing := do
  let isUniform ← Reader.flag "uniform_spacing_flag"
  if isUniform then pure uniform
  else do
    let widths ← Reader.times columnsMinus1 (Reader.ue "column_width_minus1")
    let heights ← Reader.times rowsMinus1 (Reader.ue "row_height_minus1")
    pure (explicit widths heights)

/-- The code of the sizes of tile columns and rows (in `write_pps`). -/
def encode : TileSpacing → Code
  | uniform => .flag true
  | explicit widths heights => .concat [.flag false, .each .ue widths, .each .ue heights]

end TileSpacing

namespace TileGrid

/-- Reads a grid, which cannot have more columns or rows than the picture has blocks (`TileInfo::read`).
-/
def parse (sps : Sps) : Reader PpsError TileGrid := do
  let columnsMinus1 ← Reader.ue "num_tile_columns_minus1"
  Reader.ensure (columnsMinus1 < sps.widthInCtbs)
    (PpsError.fieldTooLarge "num_tile_columns_minus1" columnsMinus1)
  let rowsMinus1 ← Reader.ue "num_tile_rows_minus1"
  Reader.ensure (rowsMinus1 < sps.heightInCtbs)
    (PpsError.fieldTooLarge "num_tile_rows_minus1" rowsMinus1)
  let spacing ← TileSpacing.parse columnsMinus1 rowsMinus1
  let loopFilterAcross ← Reader.flag "loop_filter_across_tiles_enabled_flag"
  pure { columnsMinus1, rowsMinus1, spacing, loopFilterAcross }

/-- The code of a grid (in `write_pps`). -/
def encode (g : TileGrid) : Code := .concat [
  .ue g.columnsMinus1,
  .ue g.rowsMinus1,
  g.spacing.encode,
  .flag g.loopFilterAcross]

end TileGrid

/-- What can be decoded in parallel within a picture. -/
structure Partition where
  /-- The grid of tiles, if there is one. -/
  tiles : Option TileGrid
  /-- Whether each row of coding tree blocks can be decoded on its own. -/
  entropySync : Bool
  deriving DecidableEq, Repr, Inhabited

namespace Partition

/-- Reads the partition of a picture (in `PicParameterSet::from_bits`). -/
def parse (sps : Sps) : Reader PpsError Partition := do
  let hasTiles ← Reader.flag "tiles_enabled_flag"
  let entropySync ← Reader.flag "entropy_coding_sync_enabled_flag"
  let tiles ← Reader.optional hasTiles (TileGrid.parse sps)
  pure { tiles, entropySync }

/-- The code of the partition of a picture (in `write_pps`). -/
def encode (p : Partition) : Code := .concat [
  .flag p.tiles.isSome,
  .flag p.entropySync,
  .option TileGrid.encode p.tiles]

/-- The number of tile columns (`PicParameterSet::num_tile_columns`). -/
def columns (p : Partition) : Nat :=
  match p.tiles with
  | some grid => grid.columnsMinus1 + 1
  | none => 1

/-- The number of tile rows (`PicParameterSet::num_tile_rows`). -/
def rows (p : Partition) : Nat :=
  match p.tiles with
  | some grid => grid.rowsMinus1 + 1
  | none => 1

/-- The number of tiles. -/
def tileCount (p : Partition) : Nat :=
  p.columns * p.rows

/-- Whether loop filters work across tile borders; they do where there are none
(`PicParameterSet::loop_filter_across_tiles_enabled_flag`). -/
def loopFilterAcross (p : Partition) : Bool :=
  match p.tiles with
  | some grid => grid.loopFilterAcross
  | none => true

/-- Whether slices say where parts of them begin that can be decoded in parallel. -/
def hasEntryPoints (p : Partition) : Bool :=
  p.tiles.isSome || p.entropySync

end Partition

/-- What becomes of the grid of tiles when a picture parameter set is written (`ForceTile`). -/
inductive TileOverride where
  /-- The grid stays as it is. -/
  | keep
  /-- The picture is a single tile. -/
  | remove
  /-- The picture has a uniform grid. -/
  | uniform (columns rows : Nat)
  deriving DecidableEq, Repr

namespace TileOverride

/-- The partition that is written (in `write_pps`). -/
def apply (o : TileOverride) (p : Partition) : Partition :=
  match o with
  | keep => p
  | remove => { p with tiles := none }
  | uniform columns rows =>
    { p with tiles := some {
        columnsMinus1 := columns - 1
        rowsMinus1 := rows - 1
        spacing := .uniform
        loopFilterAcross := p.loopFilterAcross } }

/-- A uniform grid has at least one column and one row (in `write_pps`). -/
def check : TileOverride → Code
  | keep | remove => .empty
  | uniform columns rows => .ensure (columns != 0 && rows != 0)
      (.invalidValue "num_tile_columns_minus1" ((min columns rows : Nat) - 1 : Int))

end TileOverride

/-! ## Other parts -/

/-- How the deblocking filter is controlled (`DeblockingFilterControl`). -/
structure DeblockingControl where
  overrideEnabled : Bool
  disabled : Bool
  betaOffsetDiv2 : Int
  tcOffsetDiv2 : Int
  deriving DecidableEq, Repr, Inhabited

namespace DeblockingControl

/-- Reads how the deblocking filter is controlled (in `PicParameterSet::from_bits`). -/
def parse : Reader ReadError DeblockingControl := do
  let overrideEnabled ← Reader.flag "deblocking_filter_override_enabled_flag"
  let disabled ← Reader.flag "pps_deblocking_filter_disabled_flag"
  let betaOffsetDiv2 ← Reader.optionalD (!disabled) (Reader.se "pps_beta_offset_div2") 0
  let tcOffsetDiv2 ← Reader.optionalD (!disabled) (Reader.se "pps_tc_offset_div2") 0
  pure { overrideEnabled, disabled, betaOffsetDiv2, tcOffsetDiv2 }

/-- The code of how the deblocking filter is controlled (in `write_pps`). -/
def encode (d : DeblockingControl) : Code := .concat [
  .flag d.overrideEnabled,
  .flag d.disabled,
  .onlyIf (!d.disabled) (.se d.betaOffsetDiv2),
  .onlyIf (!d.disabled) (.se d.tcOffsetDiv2)]

end DeblockingControl

/-- Chroma quantisation offsets that blocks can choose from (`ChromaQpOffsetList`). -/
structure ChromaQpOffsets where
  diffCuDepth : Nat
  cb : List Int
  cr : List Int
  deriving DecidableEq, Repr, Inhabited

namespace ChromaQpOffsets

/-- Reads one pair of offsets. -/
def parsePair : Reader ReadError (Int × Int) := do
  let cb ← Reader.se "cb_qp_offset_list"
  let cr ← Reader.se "cr_qp_offset_list"
  pure (cb, cr)

/-- Reads the offsets (in `PpsRangeExtension::read`). -/
def parse : Reader PpsError ChromaQpOffsets := do
  let diffCuDepth ← Reader.ue "diff_cu_chroma_qp_offset_depth"
  let lengthMinus1 ← Reader.ue "chroma_qp_offset_list_len_minus1"
  Reader.ensure (lengthMinus1 ≤ 5)
    (PpsError.fieldTooLarge "chroma_qp_offset_list_len_minus1" lengthMinus1)
  let pairs ← Reader.times (lengthMinus1 + 1) parsePair
  pure { diffCuDepth, cb := pairs.map (·.1), cr := pairs.map (·.2) }

/-- The code of one pair of offsets. -/
def encodePair (pair : Int × Int) : Code := .concat [.se pair.1, .se pair.2]

/-- The code of the offsets, of which there are as many for either chroma component (in
`PpsRangeExtension::write`). -/
def encode (c : ChromaQpOffsets) : Code := .concat [
  .ensure (!c.cb.isEmpty && c.cb.length == c.cr.length)
    (.invalidValue "chroma_qp_offset_list_len_minus1" (c.cb.length - 1 : Int)),
  .ue c.diffCuDepth,
  .ue (c.cb.length - 1),
  .each encodePair (c.cb.zip c.cr)]

end ChromaQpOffsets

/-- Coding tools of the range extension. -/
structure PpsRangeExtension where
  /-- Given if transform skip is enabled. -/
  log2MaxTransformSkipMinus2 : Option Nat
  crossComponentPrediction : Bool
  chromaQpOffsets : Option ChromaQpOffsets
  log2SaoOffsetScaleLuma : Nat
  log2SaoOffsetScaleChroma : Nat
  deriving DecidableEq, Repr, Inhabited

namespace PpsRangeExtension

/-- Reads the range extension (`PpsRangeExtension::read`). -/
def parse (transformSkip : Bool) : Reader PpsError PpsRangeExtension := do
  let log2MaxTransformSkipMinus2 ←
    Reader.optional transformSkip (Reader.ue "log2_max_transform_skip_block_size_minus2")
  let crossComponentPrediction ← Reader.flag "cross_component_prediction_enabled_flag"
  let hasOffsets ← Reader.flag "chroma_qp_offset_list_enabled_flag"
  let chromaQpOffsets ← Reader.optional hasOffsets ChromaQpOffsets.parse
  let log2SaoOffsetScaleLuma ← Reader.ue "log2_sao_offset_scale_luma"
  let log2SaoOffsetScaleChroma ← Reader.ue "log2_sao_offset_scale_chroma"
  pure {
    log2MaxTransformSkipMinus2, crossComponentPrediction, chromaQpOffsets
    log2SaoOffsetScaleLuma, log2SaoOffsetScaleChroma }

/-- The code of the range extension (`PpsRangeExtension::write`). -/
def encode (e : PpsRangeExtension) : Code := .concat [
  .option .ue e.log2MaxTransformSkipMinus2,
  .flag e.crossComponentPrediction,
  .flag e.chromaQpOffsets.isSome,
  .option ChromaQpOffsets.encode e.chromaQpOffsets,
  .ue e.log2SaoOffsetScaleLuma,
  .ue e.log2SaoOffsetScaleChroma]

end PpsRangeExtension

/-- The extensions of a picture parameter set. -/
structure PpsExtensions where
  range : Option PpsRangeExtension
  /-- Bits that announce extensions not known yet, whose data is passed over. -/
  unknown : Nat
  deriving DecidableEq, Repr, Inhabited

namespace PpsExtensions

/-- No extensions. -/
def absent : PpsExtensions := ⟨none, 0⟩

/-- Reads a flag that announces an extension which cannot be read. -/
def parseUnsupported (extension : String) : Reader PpsError Unit := do
  let present ← Reader.flag (extension ++ "_flag")
  Reader.ensure (!present) (PpsError.unsupportedExtension extension)

/-- Reads extensions that are present. -/
def parsePresent (transformSkip : Bool) : Reader PpsError PpsExtensions := do
  let hasRange ← Reader.flag "pps_range_extension_flag"
  parseUnsupported "pps_multilayer_extension"
  parseUnsupported "pps_3d_extension"
  parseUnsupported "pps_scc_extension"
  let unknown ← Reader.uint 4 "pps_extension_4bits"
  let range ← Reader.optional hasRange (PpsRangeExtension.parse transformSkip)
  pure { range, unknown }

/-- Reads the extensions to the end of the payload, where nothing else may follow known ones (in
`PicParameterSet::from_bits`). -/
def parse (transformSkip : Bool) : Reader PpsError PpsExtensions := do
  let present ← Reader.flag "pps_extension_present_flag"
  let extensions ← Reader.optionalD present (parsePresent transformSkip) absent
  Reader.optionalD (extensions.unknown == 0) Reader.finish ()
  pure extensions

/-- The code of the range extension if there is one; others are left out (in `write_pps`). -/
def encode (e : PpsExtensions) : Code :=
  match e.range with
  | none => .flag false
  | some range => .concat [.flag true, .flag true, .uint 7 0, range.encode]

end PpsExtensions

/-! ## All together -/

/-- A picture parameter set (`PicParameterSet`). -/
structure Pps where
  id : PpsId
  spsId : SpsId
  dependentSlices : Bool
  outputFlagPresent : Bool
  numExtraSliceHeaderBits : Nat
  signDataHiding : Bool
  cabacInitPresent : Bool
  numRefIdxL0DefaultMinus1 : Nat
  numRefIdxL1DefaultMinus1 : Nat
  initQpMinus26 : Int
  constrainedIntraPred : Bool
  transformSkip : Bool
  /-- Given if quantisation can change between blocks. -/
  diffCuQpDeltaDepth : Option Nat
  cbQpOffset : Int
  crQpOffset : Int
  sliceChromaQpOffsetsPresent : Bool
  weightedPred : Bool
  weightedBipred : Bool
  transquantBypass : Bool
  partition : Partition
  loopFilterAcrossSlices : Bool
  deblocking : Option DeblockingControl
  scalingLists : Option ScalingLists
  listsModificationPresent : Bool
  log2ParallelMergeLevelMinus2 : Nat
  sliceHeaderExtensionPresent : Bool
  extensions : PpsExtensions
  deriving DecidableEq, Repr, Inhabited

namespace Pps

/-- Reads a default number of reference pictures, minus one (`read_num_ref_idx`). -/
def parseNumRefIdx (element : String) : Reader PpsError Nat := do
  let value ← Reader.ue element
  Reader.ensure (value ≤ 14) (PpsError.invalidNumRefIdx element value)
  pure value

/-- Reads the size of the areas that motion is merged in (in `PicParameterSet::from_bits`). Two is added
in 32 bits. -/
def parseMergeLevel (sps : Sps) : Reader PpsError Nat := do
  let value ← Reader.ue "log2_parallel_merge_level_minus2"
  Reader.ensure ((value + 2) % 2 ^ 32 ≤ sps.log2Ctb)
    (PpsError.fieldTooLarge "log2_parallel_merge_level_minus2" value)
  pure value

/-- Reads a picture parameter set, given the sequence parameter sets that are known
(`PicParameterSet::from_bits`). -/
def parse (spsById : SpsId → Option Sps) : Reader PpsError Pps := do
  let idNumber ← Reader.ue "pps_pic_parameter_set_id"
  let id ← Reader.ofExcept ((PpsId.ofNat idNumber).mapError PpsError.badPpsId)
  let spsIdNumber ← Reader.ue "pps_seq_parameter_set_id"
  let spsId ← Reader.ofExcept ((SpsId.ofNat spsIdNumber).mapError PpsError.badSpsId)
  let sps ← Reader.require (spsById spsId) (PpsError.unknownSps spsId)
  let dependentSlices ← Reader.flag "dependent_slice_segments_enabled_flag"
  let outputFlagPresent ← Reader.flag "output_flag_present_flag"
  let numExtraSliceHeaderBits ← Reader.uint 3 "num_extra_slice_header_bits"
  let signDataHiding ← Reader.flag "sign_data_hiding_enabled_flag"
  let cabacInitPresent ← Reader.flag "cabac_init_present_flag"
  let numRefIdxL0DefaultMinus1 ← parseNumRefIdx "num_ref_idx_l0_default_active_minus1"
  let numRefIdxL1DefaultMinus1 ← parseNumRefIdx "num_ref_idx_l1_default_active_minus1"
  let initQpMinus26 ← Reader.se "init_qp_minus26"
  let constrainedIntraPred ← Reader.flag "constrained_intra_pred_flag"
  let transformSkip ← Reader.flag "transform_skip_enabled_flag"
  let hasCuQpDelta ← Reader.flag "cu_qp_delta_enabled_flag"
  let diffCuQpDeltaDepth ← Reader.optional hasCuQpDelta (Reader.ue "diff_cu_qp_delta_depth")
  let cbQpOffset ← Reader.se "pps_cb_qp_offset"
  let crQpOffset ← Reader.se "pps_cr_qp_offset"
  let sliceChromaQpOffsetsPresent ← Reader.flag "pps_slice_chroma_qp_offsets_present_flag"
  let weightedPred ← Reader.flag "weighted_pred_flag"
  let weightedBipred ← Reader.flag "weighted_bipred_flag"
  let transquantBypass ← Reader.flag "transquant_bypass_enabled_flag"
  let partition ← Partition.parse sps
  let loopFilterAcrossSlices ← Reader.flag "pps_loop_filter_across_slices_enabled_flag"
  let hasDeblocking ← Reader.flag "deblocking_filter_control_present_flag"
  let deblocking ← Reader.optional hasDeblocking DeblockingControl.parse
  let hasScalingLists ← Reader.flag "pps_scaling_list_data_present_flag"
  let scalingLists ← Reader.optional hasScalingLists ScalingLists.parse
  let listsModificationPresent ← Reader.flag "lists_modification_present_flag"
  let log2ParallelMergeLevelMinus2 ← parseMergeLevel sps
  let sliceHeaderExtensionPresent ← Reader.flag "slice_segment_header_extension_present_flag"
  let extensions ← PpsExtensions.parse transformSkip
  pure {
    id, spsId, dependentSlices, outputFlagPresent, numExtraSliceHeaderBits, signDataHiding
    cabacInitPresent, numRefIdxL0DefaultMinus1, numRefIdxL1DefaultMinus1, initQpMinus26
    constrainedIntraPred, transformSkip, diffCuQpDeltaDepth, cbQpOffset, crQpOffset
    sliceChromaQpOffsetsPresent, weightedPred, weightedBipred, transquantBypass, partition
    loopFilterAcrossSlices, deblocking, scalingLists, listsModificationPresent
    log2ParallelMergeLevelMinus2, sliceHeaderExtensionPresent, extensions }

/-- The payload of a picture parameter set (`write_pps`). -/
def encode (p : Pps) (tiles : TileOverride) : Code := .closed <| .concat [
  .ue p.id.val,
  .ue p.spsId.val,
  .flag false,
  .flag p.outputFlagPresent,
  .uint 3 p.numExtraSliceHeaderBits,
  .flag p.signDataHiding,
  .flag p.cabacInitPresent,
  .ue p.numRefIdxL0DefaultMinus1,
  .ue p.numRefIdxL1DefaultMinus1,
  .se p.initQpMinus26,
  .flag p.constrainedIntraPred,
  .flag p.transformSkip,
  .flag p.diffCuQpDeltaDepth.isSome,
  .option .ue p.diffCuQpDeltaDepth,
  .se p.cbQpOffset,
  .se p.crQpOffset,
  .flag p.sliceChromaQpOffsetsPresent,
  .flag p.weightedPred,
  .flag p.weightedBipred,
  .flag p.transquantBypass,
  tiles.check,
  (tiles.apply p.partition).encode,
  .flag p.loopFilterAcrossSlices,
  .flag p.deblocking.isSome,
  .option DeblockingControl.encode p.deblocking,
  .flag p.scalingLists.isSome,
  .option ScalingLists.encode p.scalingLists,
  .flag p.listsModificationPresent,
  .ue p.log2ParallelMergeLevelMinus2,
  .flag p.sliceHeaderExtensionPresent,
  p.extensions.encode]

/-! ## Derived values -/

/-- How the deblocking filter is controlled; it is on and cannot be overridden if nothing is said
(`PicParameterSet::deblocking_filter_override_enabled_flag` and
`PicParameterSet::pps_deblocking_filter_disabled_flag`). -/
def deblockingControl (p : Pps) : DeblockingControl :=
  p.deblocking.getD ⟨false, false, 0, 0⟩

/-- Whether blocks can choose chroma quantisation offsets
(`PicParameterSet::chroma_qp_offset_list_enabled_flag`). -/
def hasChromaQpOffsets (p : Pps) : Bool :=
  p.extensions.range.any (·.chromaQpOffsets.isSome)

end Pps

end TiledVideo
