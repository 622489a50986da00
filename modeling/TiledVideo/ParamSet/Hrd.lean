import TiledVideo.Bitstream.Code
import TiledVideo.Bitstream.Reader

/-!
# Hypothetical reference decoder parameters

The buffer model that a stream conforms to. Some of it is common to all sub-layers and is either
coded or inherited from an earlier structure; it decides which of the later fields are there. The
rest is given for each sub-layer.
-/

namespace TiledVideo

/-- Parameters for the decoding of parts of a picture (`SubPicHrdParams`). -/
structure SubPicHrd where
  tickDivisorMinus2 : Nat
  duCpbRemovalDelayIncrementLengthMinus1 : Nat
  cpbParamsInPicTimingSei : Bool
  dpbOutputDelayDuLengthMinus1 : Nat
  deriving DecidableEq, Repr, Inhabited

namespace SubPicHrd

/-- Reads the parameters for parts of a picture (in `HrdParameters::read_common`). -/
def parse : Reader ReadError SubPicHrd := do
  let tickDivisorMinus2 ← Reader.uint 8 "tick_divisor_minus2"
  let duCpbRemovalDelayIncrementLengthMinus1 ←
    Reader.uint 5 "du_cpb_removal_delay_increment_length_minus1"
  let cpbParamsInPicTimingSei ← Reader.flag "sub_pic_cpb_params_in_pic_timing_sei_flag"
  let dpbOutputDelayDuLengthMinus1 ← Reader.uint 5 "dpb_output_delay_du_length_minus1"
  pure {
    tickDivisorMinus2, duCpbRemovalDelayIncrementLengthMinus1, cpbParamsInPicTimingSei
    dpbOutputDelayDuLengthMinus1 }

/-- The code of the parameters for parts of a picture (in `HrdParameters::write`). -/
def encode (s : SubPicHrd) : Code := .concat [
  .uint 8 s.tickDivisorMinus2,
  .uint 5 s.duCpbRemovalDelayIncrementLengthMinus1,
  .flag s.cpbParamsInPicTimingSei,
  .uint 5 s.dpbOutputDelayDuLengthMinus1]

end SubPicHrd

/-- Scales and field lengths that all sub-layers share (`HrdCommonParams`). -/
structure HrdScales where
  subPic : Option SubPicHrd
  bitRateScale : Nat
  cpbSizeScale : Nat
  /-- Zero if there are no parameters for parts of a picture. -/
  cpbSizeDuScale : Nat
  initialCpbRemovalDelayLengthMinus1 : Nat
  auCpbRemovalDelayLengthMinus1 : Nat
  dpbOutputDelayLengthMinus1 : Nat
  deriving DecidableEq, Repr, Inhabited

namespace HrdScales

/-- Reads the shared scales and lengths (in `HrdParameters::read_common`). -/
def parse : Reader ReadError HrdScales := do
  let subPicPresent ← Reader.flag "sub_pic_hrd_params_present_flag"
  let subPic ← Reader.optional subPicPresent SubPicHrd.parse
  let bitRateScale ← Reader.uint 4 "bit_rate_scale"
  let cpbSizeScale ← Reader.uint 4 "cpb_size_scale"
  let cpbSizeDuScale ← Reader.optionalD subPicPresent (Reader.uint 4 "cpb_size_du_scale") 0
  let initialCpbRemovalDelayLengthMinus1 ←
    Reader.uint 5 "initial_cpb_removal_delay_length_minus1"
  let auCpbRemovalDelayLengthMinus1 ← Reader.uint 5 "au_cpb_removal_delay_length_minus1"
  let dpbOutputDelayLengthMinus1 ← Reader.uint 5 "dpb_output_delay_length_minus1"
  pure {
    subPic, bitRateScale, cpbSizeScale, cpbSizeDuScale, initialCpbRemovalDelayLengthMinus1
    auCpbRemovalDelayLengthMinus1, dpbOutputDelayLengthMinus1 }

/-- The code of the shared scales and lengths (in `HrdParameters::write`). -/
def encode (s : HrdScales) : Code := .concat [
  .flag s.subPic.isSome,
  .option SubPicHrd.encode s.subPic,
  .uint 4 s.bitRateScale,
  .uint 4 s.cpbSizeScale,
  .onlyIf s.subPic.isSome (.uint 4 s.cpbSizeDuScale),
  .uint 5 s.initialCpbRemovalDelayLengthMinus1,
  .uint 5 s.auCpbRemovalDelayLengthMinus1,
  .uint 5 s.dpbOutputDelayLengthMinus1]

end HrdScales

/-- What is common to all sub-layers (`HrdCommonInfo`). -/
structure HrdCommon where
  /-- Whether there are parameters for the stream of NAL units. -/
  nal : Bool
  /-- Whether there are parameters for the stream of slice units alone. -/
  vcl : Bool
  /-- Given if there are parameters of either kind. -/
  scales : Option HrdScales
  deriving DecidableEq, Repr, Inhabited

namespace HrdCommon

/-- What a structure has in common that neither codes nor inherits anything. -/
def absent : HrdCommon := ⟨false, false, none⟩

/-- Whether there are parameters for parts of a picture (`HrdCommonInfo::sub_pic_present`). -/
def hasSubPic (c : HrdCommon) : Bool :=
  c.scales.any (·.subPic.isSome)

/-- Reads what is common to all sub-layers (`HrdParameters::read_common`). -/
def parse : Reader ReadError HrdCommon := do
  let nal ← Reader.flag "nal_hrd_parameters_present_flag"
  let vcl ← Reader.flag "vcl_hrd_parameters_present_flag"
  let scales ← Reader.optional (nal || vcl) HrdScales.parse
  pure { nal, vcl, scales }

/-- The code of what is common to all sub-layers (in `HrdParameters::write`). -/
def encode (c : HrdCommon) : Code := .concat [
  .flag c.nal,
  .flag c.vcl,
  .onlyIf (c.nal || c.vcl) (c.scales.getD default).encode]

end HrdCommon

/-- One coded picture buffer. -/
structure CpbParams where
  bitRateValueMinus1 : Nat
  cpbSizeValueMinus1 : Nat
  /-- Zero if there are no parameters for parts of a picture. -/
  cpbSizeDuValueMinus1 : Nat
  /-- Zero if there are no parameters for parts of a picture. -/
  bitRateDuValueMinus1 : Nat
  constantBitRate : Bool
  deriving DecidableEq, Repr, Inhabited

namespace CpbParams

/-- Reads one coded picture buffer (in `read_sub_layer_hrd`). -/
def parse (subPic : Bool) : Reader ReadError CpbParams := do
  let bitRateValueMinus1 ← Reader.ue "bit_rate_value_minus1"
  let cpbSizeValueMinus1 ← Reader.ue "cpb_size_value_minus1"
  let cpbSizeDuValueMinus1 ← Reader.optionalD subPic (Reader.ue "cpb_size_du_value_minus1") 0
  let bitRateDuValueMinus1 ← Reader.optionalD subPic (Reader.ue "bit_rate_du_value_minus1") 0
  let constantBitRate ← Reader.flag "cbr_flag"
  pure {
    bitRateValueMinus1, cpbSizeValueMinus1, cpbSizeDuValueMinus1, bitRateDuValueMinus1
    constantBitRate }

/-- The code of one coded picture buffer (in `write_sub_layer_hrd`). -/
def encode (subPic : Bool) (c : CpbParams) : Code := .concat [
  .ue c.bitRateValueMinus1,
  .ue c.cpbSizeValueMinus1,
  .onlyIf subPic (.ue c.cpbSizeDuValueMinus1),
  .onlyIf subPic (.ue c.bitRateDuValueMinus1),
  .flag c.constantBitRate]

end CpbParams

/-- The parameters of one sub-layer. -/
structure SubLayerHrd where
  fixedPicRateGeneral : Bool
  /-- Inferred to hold if the picture rate is fixed in general. -/
  fixedPicRateWithinCvs : Bool
  elementalDurationInTcMinus1 : Nat
  lowDelay : Bool
  cpbCntMinus1 : Nat
  nal : List CpbParams
  vcl : List CpbParams
  deriving DecidableEq, Repr, Inhabited

namespace SubLayerHrd

/-- Reads the parameters of one sub-layer (`read_sub_layer_hrd`, in `HrdParameters::read`). -/
def parse (common : HrdCommon) : Reader ReadError SubLayerHrd := do
  let fixedPicRateGeneral ← Reader.flag "fixed_pic_rate_general_flag"
  let fixedPicRateWithinCvs ←
    Reader.optionalD (!fixedPicRateGeneral) (Reader.flag "fixed_pic_rate_within_cvs_flag") true
  let elementalDurationInTcMinus1 ←
    Reader.optionalD fixedPicRateWithinCvs (Reader.ue "elemental_duration_in_tc_minus1") 0
  let lowDelay ←
    Reader.optionalD (!fixedPicRateWithinCvs) (Reader.flag "low_delay_hrd_flag") false
  let cpbCntMinus1 ← Reader.optionalD (!lowDelay) (Reader.ue "cpb_cnt_minus1") 0
  Reader.ensure (cpbCntMinus1 ≤ 31) (.expGolombTooLarge "cpb_cnt_minus1")
  let buffers := Reader.times (cpbCntMinus1 + 1) (CpbParams.parse common.hasSubPic)
  let nal ← Reader.optionalD common.nal buffers []
  let vcl ← Reader.optionalD common.vcl buffers []
  pure {
    fixedPicRateGeneral, fixedPicRateWithinCvs, elementalDurationInTcMinus1, lowDelay
    cpbCntMinus1, nal, vcl }

/-- The code of the parameters of one sub-layer (`write_sub_layer_hrd`, in `HrdParameters::write`). -/
def encode (common : HrdCommon) (s : SubLayerHrd) : Code := .concat [
  .flag s.fixedPicRateGeneral,
  .onlyIf (!s.fixedPicRateGeneral) (.flag s.fixedPicRateWithinCvs),
  if s.fixedPicRateWithinCvs then .ue s.elementalDurationInTcMinus1 else .flag s.lowDelay,
  .onlyIf (!s.lowDelay) (.ue s.cpbCntMinus1),
  .onlyIf common.nal (.each (CpbParams.encode common.hasSubPic) s.nal),
  .onlyIf common.vcl (.each (CpbParams.encode common.hasSubPic) s.vcl)]

end SubLayerHrd

/-- Hypothetical reference decoder parameters (`HrdParameters`). -/
structure Hrd where
  /-- Whether the common part is coded here and not inherited. -/
  commonCoded : Bool
  common : HrdCommon
  subLayers : List SubLayerHrd
  deriving DecidableEq, Repr, Inhabited

namespace Hrd

/-- Reads the parameters of `maxSubLayersMinus1 + 1` sub-layers (`HrdParameters::read`). A common part
that is not coded is taken from `inherited`. -/
def parse (commonCoded : Bool) (maxSubLayersMinus1 : Nat) (inherited : Option HrdCommon) :
    Reader ReadError Hrd := do
  let common ← Reader.optionalD commonCoded HrdCommon.parse (inherited.getD .absent)
  let subLayers ← Reader.times (maxSubLayersMinus1 + 1) (SubLayerHrd.parse common)
  pure { commonCoded, common, subLayers }

/-- The code of the parameters (`HrdParameters::write`). -/
def encode (h : Hrd) : Code := .concat [
  .onlyIf h.commonCoded h.common.encode,
  .each (SubLayerHrd.encode h.common) h.subLayers]

end Hrd

end TiledVideo
