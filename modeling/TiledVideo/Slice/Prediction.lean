import TiledVideo.ParamSet.Pps
import TiledVideo.Slice.Basic

/-!
# Prediction from other pictures

How the blocks of a slice are predicted: the lists of reference pictures and their order, motion
prediction, and the weights of the reference pictures.
-/

namespace TiledVideo

/-! ## Order of the reference pictures -/

/-- New orders of the two lists of reference pictures (`RefPicListModification`). -/
structure ListModification where
  l0 : Option (List Nat)
  l1 : Option (List Nat)
  deriving DecidableEq, Repr, Inhabited

namespace ListModification

/-- Reads the order of a list of `countMinus1 + 1` entries out of `total` pictures. -/
def parseList (total countMinus1 : Nat) (element : String) : Reader ReadError (Option (List Nat)) := do
  let modified ← Reader.flag element
  Reader.optional modified
    (Reader.times (countMinus1 + 1) (Reader.uint (Bits.widthFor total) "list_entry"))

/-- Reads the orders of the lists (in `SliceSegmentHeader::read_independent`). -/
def parse (total l0Minus1 l1Minus1 : Nat) (hasL1 : Bool) : Reader ReadError ListModification := do
  let l0 ← parseList total l0Minus1 "ref_pic_list_modification_flag_l0"
  let l1 ← Reader.optionalD hasL1 (parseList total l1Minus1 "ref_pic_list_modification_flag_l1") none
  pure { l0, l1 }

/-- The code of the order of a list. -/
def encodeList (total countMinus1 : Nat) : Option (List Nat) → Code
  | none => .flag false
  | some entries => .concat [
    .flag true,
    .ensure (entries.length == countMinus1 + 1) (.invalidValue "list_entry" entries.length),
    .each (.uint (Bits.widthFor total)) entries]

/-- The code of the orders of the lists (in `write_independent`). -/
def encode (total l0Minus1 l1Minus1 : Nat) (hasL1 : Bool) (m : ListModification) : Code := .concat [
  encodeList total l0Minus1 m.l0,
  .onlyIf hasL1 (encodeList total l1Minus1 m.l1)]

end ListModification

/-! ## Weights -/

/-- The weight of a reference picture for luma. -/
structure LumaWeight where
  deltaWeight : Int
  offset : Int
  deriving DecidableEq, Repr, Inhabited

/-- The weight of a reference picture for a chroma component. -/
structure ChromaWeight where
  deltaWeight : Int
  deltaOffset : Int
  deriving DecidableEq, Repr, Inhabited

/-- The weights of a reference picture, where they are not the default (`PredWeight`). -/
structure PicWeight where
  luma : Option LumaWeight
  chroma : Option (ChromaWeight × ChromaWeight)
  deriving DecidableEq, Repr, Inhabited

namespace PicWeight

/-- Reads a weight for luma. -/
def parseLuma : Reader ReadError LumaWeight := do
  let deltaWeight ← Reader.se "delta_luma_weight"
  let offset ← Reader.se "luma_offset"
  pure { deltaWeight, offset }

/-- Reads a weight for a chroma component. -/
def parseChroma : Reader ReadError ChromaWeight := do
  let deltaWeight ← Reader.se "delta_chroma_weight"
  let deltaOffset ← Reader.se "delta_chroma_offset"
  pure { deltaWeight, deltaOffset }

/-- Reads the weights for both chroma components. -/
def parseChromaPair : Reader ReadError (ChromaWeight × ChromaWeight) := do
  let cb ← parseChroma
  let cr ← parseChroma
  pure (cb, cr)

/-- Reads the weights that the flags for luma and chroma announce. -/
def parse (present : Bool × Bool) : Reader ReadError PicWeight := do
  let luma ← Reader.optional present.1 parseLuma
  let chroma ← Reader.optional present.2 parseChromaPair
  pure { luma, chroma }

/-- Reads the weights of `count` pictures: all flags for luma, all flags for chroma, then the weights of
each picture (`PredWeightTable::read_list`). -/
def parseList (chroma : Bool) (count : Nat) : Reader ReadError (List PicWeight) := do
  let lumaFlags ← Reader.times count (Reader.flag "luma_weight_flag")
  let chromaFlags ←
    Reader.times count (Reader.optionalD chroma (Reader.flag "chroma_weight_flag") false)
  Reader.each parse (lumaFlags.zip chromaFlags)

/-- The code of a weight for a chroma component. -/
def encodeChroma (c : ChromaWeight) : Code := .concat [.se c.deltaWeight, .se c.deltaOffset]

/-- The code of the weights of a picture. -/
def encode (chroma : Bool) (w : PicWeight) : Code := .concat [
  .option (fun luma => .concat [.se luma.deltaWeight, .se luma.offset]) w.luma,
  .onlyIf chroma
    (.option (fun pair => .concat [encodeChroma pair.1, encodeChroma pair.2]) w.chroma)]

/-- The code of the weights of a list of pictures (`PredWeightTable::write_list`). -/
def encodeList (chroma : Bool) (ws : List PicWeight) : Code := .concat [
  .each (fun w => .flag w.luma.isSome) ws,
  .onlyIf chroma (.each (fun w => .flag w.chroma.isSome) ws),
  .each (encode chroma) ws]

end PicWeight

/-- The weights of all reference pictures (`PredWeightTable`). -/
structure WeightTable where
  lumaLog2Denom : Nat
  /-- Given if there are chroma samples. -/
  deltaChromaLog2Denom : Option Int
  l0 : List PicWeight
  l1 : List PicWeight
  deriving DecidableEq, Repr, Inhabited

namespace WeightTable

/-- Reads the weights of the pictures of one or both lists (`PredWeightTable::read`). -/
def parse (chroma : Bool) (l0Minus1 l1Minus1 : Nat) (hasL1 : Bool) :
    Reader SliceError WeightTable := do
  let lumaLog2Denom ← SliceError.ueUpTo 7 "luma_log2_weight_denom"
  let deltaChromaLog2Denom ←
    Reader.optional chroma (Reader.se "delta_chroma_log2_weight_denom")
  let l0 ← PicWeight.parseList chroma (l0Minus1 + 1)
  let l1 ← Reader.optionalD hasL1 (PicWeight.parseList chroma (l1Minus1 + 1)) []
  pure { lumaLog2Denom, deltaChromaLog2Denom, l0, l1 }

/-- The code of the weights of the pictures of one or both lists (`PredWeightTable::write`). -/
def encode (chroma hasL1 : Bool) (t : WeightTable) : Code := .concat [
  .ue t.lumaLog2Denom,
  .onlyIf chroma (.se (t.deltaChromaLog2Denom.getD 0)),
  PicWeight.encodeList chroma t.l0,
  .onlyIf hasL1 (PicWeight.encodeList chroma t.l1)]

end WeightTable

/-! ## All together -/

/-- How the blocks of a slice are predicted from other pictures. -/
structure Prediction where
  numRefIdxOverride : Bool
  numRefIdxL0Minus1 : Nat
  numRefIdxL1Minus1 : Nat
  listModification : Option ListModification
  mvdL1Zero : Bool
  cabacInit : Bool
  collocatedFromL0 : Bool
  collocatedRefIdx : Nat
  weights : Option WeightTable
  fiveMinusMaxMergeCand : Nat
  deriving DecidableEq, Repr, Inhabited

namespace Prediction

/-- What is inferred for slices that are predicted from no other picture. -/
def inferred (pps : Pps) : Prediction where
  numRefIdxOverride := false
  numRefIdxL0Minus1 := pps.numRefIdxL0DefaultMinus1
  numRefIdxL1Minus1 := pps.numRefIdxL1DefaultMinus1
  listModification := none
  mvdL1Zero := false
  cabacInit := false
  collocatedFromL0 := true
  collocatedRefIdx := 0
  weights := none
  fiveMinusMaxMergeCand := 0

/-- Whether the lists of reference pictures can be given a new order. -/
def canModifyLists (pps : Pps) (total : Nat) : Bool :=
  pps.listsModificationPresent && 1 < total

/-- Whether reference pictures have weights. -/
def isWeighted (pps : Pps) (type : SliceType) : Bool :=
  (pps.weightedPred && type == .p) || (pps.weightedBipred && type == .b)

/-- The number of entries, minus one, of the list that motion is predicted from. -/
def collocatedMax (fromL0 : Bool) (l0Minus1 l1Minus1 : Nat) : Nat :=
  if fromL0 then l0Minus1 else l1Minus1

/-- What the reader of a slice header knows of it before prediction is described. -/
structure Setting where
  type : SliceType
  /-- The number of pictures that the slice may refer to. -/
  total : Nat
  temporalMvp : Bool
  /-- Whether there are chroma samples. -/
  chroma : Bool

/-- Reads how blocks are predicted, for slices that may refer to other pictures (in
`SliceSegmentHeader::read_independent`). -/
def parse (pps : Pps) (s : Setting) : Reader SliceError Prediction := do
  let isB := s.type == .b
  let numRefIdxOverride ← Reader.flag "num_ref_idx_active_override_flag"
  let numRefIdxL0Minus1 ← Reader.optionalD numRefIdxOverride
    (SliceError.ueUpTo 14 "num_ref_idx_l0_active_minus1") pps.numRefIdxL0DefaultMinus1
  let numRefIdxL1Minus1 ← Reader.optionalD (numRefIdxOverride && isB)
    (SliceError.ueUpTo 14 "num_ref_idx_l1_active_minus1") pps.numRefIdxL1DefaultMinus1
  let listModification ← Reader.optional (canModifyLists pps s.total)
    (ListModification.parse s.total numRefIdxL0Minus1 numRefIdxL1Minus1 isB)
  let mvdL1Zero ← Reader.optionalD isB (Reader.flag "mvd_l1_zero_flag") false
  let cabacInit ← Reader.optionalD pps.cabacInitPresent (Reader.flag "cabac_init_flag") false
  let collocatedFromL0 ←
    Reader.optionalD (s.temporalMvp && isB) (Reader.flag "collocated_from_l0_flag") true
  let max := collocatedMax collocatedFromL0 numRefIdxL0Minus1 numRefIdxL1Minus1
  let collocatedRefIdx ← Reader.optionalD (s.temporalMvp && 0 < max)
    (SliceError.ueUpTo max "collocated_ref_idx") 0
  let weights ← Reader.optional (isWeighted pps s.type)
    (WeightTable.parse s.chroma numRefIdxL0Minus1 numRefIdxL1Minus1 isB)
  let fiveMinusMaxMergeCand ← SliceError.ueUpTo 4 "five_minus_max_num_merge_cand"
  pure {
    numRefIdxOverride, numRefIdxL0Minus1, numRefIdxL1Minus1, listModification, mvdL1Zero
    cabacInit, collocatedFromL0, collocatedRefIdx, weights, fiveMinusMaxMergeCand }

/-- The code of how blocks are predicted (in `write_independent`). -/
def encode (pps : Pps) (s : Setting) (p : Prediction) : Code :=
  let isB := s.type == .b
  let max := collocatedMax p.collocatedFromL0 p.numRefIdxL0Minus1 p.numRefIdxL1Minus1
  .concat [
    .flag p.numRefIdxOverride,
    .onlyIf p.numRefIdxOverride (.ue p.numRefIdxL0Minus1),
    .onlyIf (p.numRefIdxOverride && isB) (.ue p.numRefIdxL1Minus1),
    .onlyIf (canModifyLists pps s.total)
      ((p.listModification.getD default).encode s.total p.numRefIdxL0Minus1
        p.numRefIdxL1Minus1 isB),
    .onlyIf isB (.flag p.mvdL1Zero),
    .onlyIf pps.cabacInitPresent (.flag p.cabacInit),
    .onlyIf (s.temporalMvp && isB) (.flag p.collocatedFromL0),
    .onlyIf (s.temporalMvp && 0 < max) (.ue p.collocatedRefIdx),
    .onlyIf (isWeighted pps s.type)
      (match p.weights with
      | some table => table.encode s.chroma isB
      | none => .error (.unsupported "missing pred_weight_table")),
    .ue p.fiveMinusMaxMergeCand]

end Prediction

end TiledVideo
