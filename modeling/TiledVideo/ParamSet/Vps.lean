import TiledVideo.ParamSet.Hrd
import TiledVideo.ParamSet.Id
import TiledVideo.ParamSet.ProfileTierLevel
import TiledVideo.ParamSet.SubLayerOrdering

/-!
# Video parameter sets

What holds for all layers of a video. A set with an extension can be read, but not written, since
the extension itself is not kept.
-/

namespace TiledVideo

/-- Why a payload is no video parameter set. -/
inductive VpsError where
  | read (cause : ReadError)
  | fieldTooLarge (element : String) (value : Nat)
  /-- Reserved bits had another value than the one they must have. -/
  | reservedBits
  deriving DecidableEq, Repr

instance : MonadLift (Reader ReadError) (Reader VpsError) := ⟨Reader.mapError .read⟩

/-- The time base of a video, and buffer models for sets of its layers (`VpsTimingInfo`). -/
structure VpsTiming where
  numUnitsInTick : Nat
  timeScale : Nat
  numTicksPocDiffOneMinus1 : Option Nat
  /-- Buffer models, each with the number of the layer set it is for. -/
  hrds : List (Nat × Hrd)
  deriving DecidableEq, Repr, Inhabited

namespace VpsTiming

/-- Reads `n` buffer models. The first codes its common part; each later one says whether it does
or inherits that of the model before it. -/
def parseHrds (maxSubLayersMinus1 : Nat) : Nat → Option HrdCommon → Reader ReadError (List (Nat × Hrd))
  | 0, _ => pure []
  | n + 1, inherited => do
    let layerSet ← Reader.ue "hrd_layer_set_idx"
    let commonCoded ← Reader.optionalD inherited.isSome (Reader.flag "cprms_present_flag") true
    let hrd ← Hrd.parse commonCoded maxSubLayersMinus1 inherited
    let rest ← parseHrds maxSubLayersMinus1 n (some hrd.common)
    pure ((layerSet, hrd) :: rest)

/-- Reads the time base, of a video with `maxHrds` layer sets (in `VideoParamSet::from_bits`). -/
def parse (maxSubLayersMinus1 maxHrds : Nat) : Reader VpsError VpsTiming := do
  let numUnitsInTick ← Reader.uint 32 "vps_num_units_in_tick"
  let timeScale ← Reader.uint 32 "vps_time_scale"
  let proportional ← Reader.flag "vps_poc_proportional_to_timing_flag"
  let numTicksPocDiffOneMinus1 ←
    Reader.optional proportional (Reader.ue "vps_num_ticks_poc_diff_one_minus1")
  let count ← Reader.ue "vps_num_hrd_parameters"
  Reader.ensure (count ≤ maxHrds) (VpsError.fieldTooLarge "vps_num_hrd_parameters" count)
  let hrds ← parseHrds maxSubLayersMinus1 count none
  pure { numUnitsInTick, timeScale, numTicksPocDiffOneMinus1, hrds }

/-- The code of a buffer model that is not the first. -/
def encodeLaterHrd (h : Nat × Hrd) : Code := .concat [
  .ue h.1,
  .flag h.2.commonCoded,
  h.2.encode]

/-- The code of the buffer models. -/
def encodeHrds : List (Nat × Hrd) → Code
  | [] => .empty
  | h :: later => .concat [
    .ue h.1,
    h.2.encode,
    .each encodeLaterHrd later]

/-- The code of the time base (in `write_vps`). -/
def encode (t : VpsTiming) : Code := .concat [
  .uint 32 t.numUnitsInTick,
  .uint 32 t.timeScale,
  .flag t.numTicksPocDiffOneMinus1.isSome,
  .option .ue t.numTicksPocDiffOneMinus1,
  .ue t.hrds.length,
  encodeHrds t.hrds]

end VpsTiming

/-- A video parameter set (`VideoParamSet`). -/
structure Vps where
  id : VpsId
  baseLayerInternal : Bool
  baseLayerAvailable : Bool
  maxLayersMinus1 : Nat
  maxSubLayersMinus1 : Nat
  temporalIdNesting : Bool
  profileTierLevel : ProfileTierLevel
  ordering : SubLayerOrdering
  maxLayerId : Nat
  /-- For each layer set but the first, which of the layers `0` to `maxLayerId` are in it. -/
  layerSets : List (List Bool)
  timing : Option VpsTiming
  /-- Whether an extension follows, which is not kept. -/
  hasExtension : Bool
  deriving DecidableEq, Repr, Inhabited

namespace Vps

/-- Reads a video parameter set (`VideoParamSet::from_bits`). -/
def parse : Reader VpsError Vps := do
  let id ← Reader.uint 4 "vps_video_parameter_set_id"
  let baseLayerInternal ← Reader.flag "vps_base_layer_internal_flag"
  let baseLayerAvailable ← Reader.flag "vps_base_layer_available_flag"
  let maxLayersMinus1 ← Reader.uint 6 "vps_max_layers_minus1"
  let maxSubLayersMinus1 ← Reader.uint 3 "vps_max_sub_layers_minus1"
  Reader.ensure (maxSubLayersMinus1 ≤ 6)
    (VpsError.fieldTooLarge "vps_max_sub_layers_minus1" maxSubLayersMinus1)
  let temporalIdNesting ← Reader.flag "vps_temporal_id_nesting_flag"
  let reserved ← Reader.uint 16 "vps_reserved_0xffff_16bits"
  Reader.ensure (reserved == 0xffff) VpsError.reservedBits
  let profileTierLevel ← ProfileTierLevel.parse maxSubLayersMinus1
  let ordering ←
    SubLayerOrdering.parse "vps_sub_layer_ordering_info_present_flag" maxSubLayersMinus1
  let maxLayerId ← Reader.uint 6 "vps_max_layer_id"
  let numLayerSetsMinus1 ← Reader.ue "vps_num_layer_sets_minus1"
  Reader.ensure (numLayerSetsMinus1 ≤ 1023)
    (VpsError.fieldTooLarge "vps_num_layer_sets_minus1" numLayerSetsMinus1)
  let layerSets ←
    Reader.times numLayerSetsMinus1
      (Reader.times (maxLayerId + 1) (Reader.flag "layer_id_included_flag"))
  let hasTiming ← Reader.flag "vps_timing_info_present_flag"
  let timing ←
    Reader.optional hasTiming (VpsTiming.parse maxSubLayersMinus1 (numLayerSetsMinus1 + 1))
  let hasExtension ← Reader.flag "vps_extension_flag"
  Reader.optionalD (!hasExtension) Reader.finish ()
  pure {
    id := Fin.ofNat 16 id
    baseLayerInternal, baseLayerAvailable, maxLayersMinus1, maxSubLayersMinus1, temporalIdNesting
    profileTierLevel, ordering, maxLayerId, layerSets, timing, hasExtension }

/-- The payload of a video parameter set (`write_vps`). -/
def encode (v : Vps) : Code := .closed <| .concat [
  .ensure (!v.hasExtension) (.unsupported "vps_extension"),
  .uint 4 v.id.val,
  .flag v.baseLayerInternal,
  .flag v.baseLayerAvailable,
  .uint 6 v.maxLayersMinus1,
  .uint 3 v.maxSubLayersMinus1,
  .flag v.temporalIdNesting,
  .uint 16 0xffff,
  v.profileTierLevel.encode,
  v.ordering.encode,
  .uint 6 v.maxLayerId,
  .ue v.layerSets.length,
  .each (.each .flag) v.layerSets,
  .flag v.timing.isSome,
  .option VpsTiming.encode v.timing,
  .flag false]

end Vps

end TiledVideo
