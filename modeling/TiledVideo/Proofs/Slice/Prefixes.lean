import TiledVideo.Proofs.Bitstream.Prefixes
import TiledVideo.Slice.Header

/-!
# Slice headers and the data behind them

All parts of a slice segment header are read without a look at what comes behind them, and the last one
fills up a byte. So a header is read in the same way whatever the data of its slice are.

Results:

* `Prediction.local_parse`, `SliceFields.local_parse`: the parts of a header.
* `SliceHeader.closesByte_parse`: headers.
-/

namespace TiledVideo

open Reader

theorem SliceError.local_ueUpTo (max : Nat) (element : String) :
    (SliceError.ueUpTo max element).Local :=
  ((local_ue element).mapError _).bind fun _ => (local_ensure _ _).bind fun _ => local_pure _

theorem SliceType.local_parse : SliceType.parse.Local :=
  ((local_ue _).mapError _).bind fun _ => local_require _ _

/-! ## Reference pictures -/

namespace RefPicSet

theorem local_parseChoice : parseChoice.Local :=
  (local_flag _).bind fun _ => ((local_flag _).optionalD _ _).bind fun _ => local_pure _

theorem local_parseGap (gapElement usedElement : String) : (parseGap gapElement usedElement).Local :=
  (local_ue _).bind fun _ => (local_flag _).bind fun _ => local_pure _

theorem local_parseInter (index count : Nat) (sets : List RefPicSet) :
    (parseInter index count sets).Local := by
  refine (((local_ue _).mapError _).optionalD _ _).bind fun _ => ?_
  refine (local_require _ _).bind fun _ => ?_
  refine ((local_flag _).mapError _).bind fun _ => ?_
  refine ((local_ue _).mapError _).bind fun _ => (local_ensure _ _).bind fun _ => ?_
  exact ((local_parseChoice.mapError _).times _).bind fun _ => local_pure _

theorem local_parseExplicit : parseExplicit.Local := by
  refine ((local_ue _).mapError _).bind fun _ => ((local_ue _).mapError _).bind fun _ => ?_
  refine (local_ensure _ _).bind fun _ => (local_ensure _ _).bind fun _ => ?_
  refine (((local_parseGap _ _).mapError _).times _).bind fun _ => ?_
  exact (((local_parseGap _ _).mapError _).times _).bind fun _ => local_pure _

theorem local_parse (index count : Nat) (sets : List RefPicSet) : (parse index count sets).Local := by
  refine (((local_flag _).mapError _).optionalD _ _).bind fun inter => ?_
  cases inter with
  | true => exact local_parseInter index count sets
  | false => exact local_parseExplicit

end RefPicSet

namespace ShortTermChoice

theorem local_parseListed (sets : List RefPicSet) : (parseListed sets).Local :=
  ((local_uint _ _).mapError _).bind fun _ => (local_ensure _ _).bind fun _ => local_pure _

theorem local_parse (sets : List RefPicSet) : (parse sets).Local := by
  refine ((local_flag _).mapError _).bind fun isListed => ?_
  cases isListed with
  | true => exact local_parseListed sets
  | false => exact ((RefPicSet.local_parse _ _ sets).mapError _).map _

end ShortTermChoice

namespace LongTermPic

theorem local_parseMsbCycle : parseMsbCycle.Local :=
  (local_flag _).bind fun _ => (local_ue _).optional _

theorem local_parseListed (candidates : List LongTermCandidate) : (parseListed candidates).Local :=
  (local_uint _ _).bind fun _ => local_parseMsbCycle.bind fun _ => local_pure _

theorem local_parseExplicit (width : Nat) : (parseExplicit width).Local :=
  (local_uint _ _).bind fun _ => (local_flag _).bind fun _ =>
    local_parseMsbCycle.bind fun _ => local_pure _

end LongTermPic

theorem LongTermRefs.local_parse (width : Nat) (candidates : List LongTermCandidate) :
    (LongTermRefs.parse width candidates).Local := by
  refine ((SliceError.local_ueUpTo _ _).optionalD _ _).bind fun _ => ?_
  refine (SliceError.local_ueUpTo _ _).bind fun _ => ?_
  refine (((LongTermPic.local_parseListed _).mapError _).times _).bind fun _ => ?_
  exact (((LongTermPic.local_parseExplicit _).mapError _).times _).bind fun _ => local_pure _

theorem RefPics.local_parse (sps : Sps) : (RefPics.parse sps).Local := by
  refine ((local_uint _ _).mapError _).bind fun _ => ?_
  refine (ShortTermChoice.local_parse _).bind fun _ => ?_
  have hlast : ∀ (pocLsb : Nat) (shortTerm : ShortTermChoice) (longTerm : Option LongTermRefs),
      Local (Reader.optionalD sps.temporalMvp
        (Reader.flag "slice_temporal_mvp_enabled_flag" : Reader SliceError Bool) false >>=
        fun temporalMvp => pure (⟨pocLsb, some shortTerm, longTerm, temporalMvp⟩ : RefPics)) :=
    fun _ _ _ => (((local_flag _).mapError _).optionalD _ _).bind fun _ => local_pure _
  dsimp only
  split
  · exact ((LongTermRefs.local_parse _ _).map some).bind fun _ => hlast _ _ _
  · exact (local_pure _).bind fun _ => hlast _ _ _

/-! ## Prediction -/

namespace ListModification

theorem local_parseList (total countMinus1 : Nat) (element : String) :
    (parseList total countMinus1 element).Local :=
  (local_flag _).bind fun _ => ((local_uint _ _).times _).optional _

theorem local_parse (total l0Minus1 l1Minus1 : Nat) (hasL1 : Bool) :
    (parse total l0Minus1 l1Minus1 hasL1).Local :=
  (local_parseList _ _ _).bind fun _ => ((local_parseList _ _ _).optionalD _ _).bind fun _ =>
    local_pure _

end ListModification

namespace PicWeight

theorem local_parseLuma : parseLuma.Local :=
  (local_se _).bind fun _ => (local_se _).bind fun _ => local_pure _

theorem local_parseChroma : parseChroma.Local :=
  (local_se _).bind fun _ => (local_se _).bind fun _ => local_pure _

theorem local_parseChromaPair : parseChromaPair.Local :=
  local_parseChroma.bind fun _ => local_parseChroma.bind fun _ => local_pure _

theorem local_parse (present : Bool × Bool) : (parse present).Local :=
  (local_parseLuma.optional _).bind fun _ => (local_parseChromaPair.optional _).bind fun _ =>
    local_pure _

theorem local_parseList (chroma : Bool) (count : Nat) : (parseList chroma count).Local :=
  ((local_flag _).times _).bind fun _ => (((local_flag _).optionalD _ _).times _).bind fun _ =>
    local_each local_parse _

end PicWeight

theorem WeightTable.local_parse (chroma : Bool) (l0Minus1 l1Minus1 : Nat) (hasL1 : Bool) :
    (WeightTable.parse chroma l0Minus1 l1Minus1 hasL1).Local := by
  refine (SliceError.local_ueUpTo _ _).bind fun _ => ?_
  refine (((local_se _).mapError _).optional _).bind fun _ => ?_
  refine ((PicWeight.local_parseList _ _).mapError _).bind fun _ => ?_
  exact (((PicWeight.local_parseList _ _).mapError _).optionalD _ _).bind fun _ => local_pure _

theorem Prediction.local_parse (pps : Pps) (s : Prediction.Setting) :
    (Prediction.parse pps s).Local := by
  refine ((local_flag _).mapError _).bind fun _ => ?_
  refine ((SliceError.local_ueUpTo _ _).optionalD _ _).bind fun _ => ?_
  refine ((SliceError.local_ueUpTo _ _).optionalD _ _).bind fun _ => ?_
  refine (((ListModification.local_parse _ _ _ _).mapError _).optional _).bind fun _ => ?_
  refine (((local_flag _).mapError _).optionalD _ _).bind fun _ => ?_
  refine (((local_flag _).mapError _).optionalD _ _).bind fun _ => ?_
  refine (((local_flag _).mapError _).optionalD _ _).bind fun _ => ?_
  refine ((SliceError.local_ueUpTo _ _).optionalD _ _).bind fun _ => ?_
  refine ((WeightTable.local_parse _ _ _ _).optional _).bind fun _ => ?_
  exact (SliceError.local_ueUpTo _ _).bind fun _ => local_pure _

/-! ## Fields -/

theorem SliceQp.local_parse (pps : Pps) : (SliceQp.parse pps).Local :=
  (local_se _).bind fun _ => ((local_se _).optionalD _ _).bind fun _ =>
    ((local_se _).optionalD _ _).bind fun _ => ((local_flag _).optionalD _ _).bind fun _ =>
    local_pure _

theorem SliceDeblocking.local_parse (control : DeblockingControl) :
    (SliceDeblocking.parse control).Local :=
  ((local_flag _).optionalD _ _).bind fun _ => ((local_flag _).optionalD _ _).bind fun _ =>
    ((local_se _).optionalD _ _).bind fun _ => ((local_se _).optionalD _ _).bind fun _ =>
    local_pure _

theorem SliceFields.local_parse (unitType : UnitType) (sps : Sps) (pps : Pps) :
    (SliceFields.parse unitType sps pps).Local := by
  refine ((local_uint _ _).mapError _).bind fun _ => ?_
  refine SliceType.local_parse.bind fun _ => ?_
  refine (((local_flag _).mapError _).optionalD _ _).bind fun _ => ?_
  refine (((local_uint _ _).mapError _).optional _).bind fun _ => ?_
  refine ((RefPics.local_parse _).optionalD _ _).bind fun _ => ?_
  refine (((local_flag _).mapError _).optionalD _ _).bind fun _ => ?_
  refine (((local_flag _).mapError _).optionalD _ _).bind fun _ => ?_
  refine ((Prediction.local_parse _ _).optionalD _ _).bind fun _ => ?_
  refine ((SliceQp.local_parse _).mapError _).bind fun _ => ?_
  refine ((SliceDeblocking.local_parse _).mapError _).bind fun _ => ?_
  exact (((local_flag _).mapError _).optionalD _ _).bind fun _ => local_pure _

theorem EntryPoints.local_parse (sps : Sps) : (EntryPoints.parse sps).Local := by
  refine (SliceError.local_ueUpTo _ _).bind fun _ => ?_
  refine ((SliceError.local_ueUpTo _ _).optionalD _ _).bind fun _ => ?_
  exact (((local_uint _ _).mapError _).times _).bind fun _ => local_pure _

/-! ## Headers -/

namespace SliceHeader

theorem local_parseAddress (sps : Sps) : (parseAddress sps).Local :=
  ((local_uint _ _).mapError _).bind fun _ => (local_ensure _ _).bind fun _ => local_pure _

theorem local_parseExtension : parseExtension.Local :=
  (SliceError.local_ueUpTo _ _).bind fun _ => ((local_uint _ _).mapError _).times _

theorem local_parseAlignment : parseAlignment.Local :=
  ((local_flag _).mapError _).bind fun _ => (local_ensure _ _).bind fun _ =>
    (local_skipToByte _).mapError _

theorem closesByte_parseAlignment : parseAlignment.ClosesByte := by
  refine ⟨local_parseAlignment, fun c u c' h => ?_⟩
  obtain ⟨one, c₁, hflag, h⟩ := step_bind_eq_ok.1 h
  obtain ⟨_, c₂, hensure, h⟩ := step_bind_eq_ok.1 h
  obtain ⟨hend, skipped, hbits, hskipped⟩ := skipToByte_eq_ok (mapError_eq_ok.1 h)
  cases one with
  | false => cases hensure
  | true =>
    cases hensure
    refine ⟨hend, [], skipped, ?_, hskipped⟩
    rw [(flag_eq_ok (mapError_eq_ok.1 hflag)).1, hbits]
    rfl

variable (ctx : Context) (unitType : UnitType) (previous : Option SliceHeader)

/-- A header is read without a look at the data behind it, and its last byte has a bit that is set. -/
theorem closesByte_parse : (SliceHeader.parse ctx unitType previous).ClosesByte := by
  refine .bind ((local_flag _).mapError _) fun _ => ?_
  refine .bind (((local_flag _).mapError _).optionalD _ _) fun _ => ?_
  refine .bind ((local_ue _).mapError _) fun _ => .bind (local_ofExcept _) fun _ => ?_
  refine .bind (local_require _ _) fun pps => .bind (local_require _ _) fun sps => ?_
  refine .bind (((local_flag _).mapError _).optionalD _ _) fun _ => ?_
  refine .bind ((local_parseAddress _).optionalD _ _) fun _ => ?_
  dsimp only
  split
  on_goal 1 => refine .bind (local_require _ _) fun _ => ?_
  on_goal 2 => refine .bind (SliceFields.local_parse unitType sps pps) fun _ => ?_
  all_goals
    refine .bind ((EntryPoints.local_parse sps).optional _) fun _ => ?_
    exact .bind (local_parseExtension.optional _) fun _ => closesByte_parseAlignment.bind_pure _

end SliceHeader

end TiledVideo
