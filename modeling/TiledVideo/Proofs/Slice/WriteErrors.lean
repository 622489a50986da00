import TiledVideo.Proofs.ParamSet.WriteErrors
import TiledVideo.Slice.Header

/-!
# Why slice headers are not written

Results:

* `SliceHeader.failsByContent`: if a slice header has no code, then because of a feature that is not
  written or of a value that does not fit its element.
-/

namespace TiledVideo

open Code

/-! ## Reference pictures -/

theorem ShortTermChoice.failsByContent (sets : List RefPicSet) (choice : ShortTermChoice) :
    (choice.encode sets).FailsByContent := by
  cases choice with
  | explicit set =>
    exact failsByContent_concat (by simp [RefPicSet.failsByContent])
  | listed index =>
    exact failsByContent_concat (by simp [WriteError.IsContent, WriteError.elements])

theorem RefPics.failsByContent (sps : Sps) (r : RefPics) : (r.encode sps).FailsByContent := by
  refine failsByContent_concat ?_
  cases r.shortTerm with
  | none => simp [WriteError.IsContent]
  | some choice => simp [ShortTermChoice.failsByContent]

/-! ## Prediction -/

theorem ListModification.failsByContent_list (total countMinus1 : Nat)
    (entries : Option (List Nat)) : (encodeList total countMinus1 entries).FailsByContent := by
  cases entries with
  | none => exact failsByContent_flag false
  | some entries =>
    exact failsByContent_concat (by
      simp [WriteError.IsContent, WriteError.elements,
        failsByContent_each (failsByContent_uint (Bits.widthFor total))])

theorem ListModification.failsByContent (total l0Minus1 l1Minus1 : Nat) (hasL1 : Bool)
    (m : ListModification) : (m.encode total l0Minus1 l1Minus1 hasL1).FailsByContent :=
  failsByContent_concat (by simp [failsByContent_list])

theorem PicWeight.failsByContent_chroma (c : ChromaWeight) : (encodeChroma c).FailsByContent :=
  failsByContent_concat (by simp)

theorem PicWeight.failsByContent (chroma : Bool) (w : PicWeight) :
    (w.encode chroma).FailsByContent := by
  refine failsByContent_concat ?_
  have hluma : ∀ luma ∈ w.luma, (concat [.se luma.deltaWeight, .se luma.offset]).FailsByContent :=
    fun luma _ => failsByContent_concat (by simp)
  have hchroma : ∀ pair ∈ w.chroma,
      (concat [encodeChroma pair.1, encodeChroma pair.2]).FailsByContent :=
    fun pair _ => failsByContent_concat (by simp [failsByContent_chroma])
  rw [List.forall_mem_cons, List.forall_mem_singleton]
  exact ⟨failsByContent_option.2 hluma,
    failsByContent_onlyIf.2 fun _ => failsByContent_option.2 hchroma⟩

theorem PicWeight.failsByContent_list (chroma : Bool) (ws : List PicWeight) :
    (encodeList chroma ws).FailsByContent := by
  have hluma : (each (fun w : PicWeight => flag w.luma.isSome) ws).FailsByContent :=
    failsByContent_each (fun w => failsByContent_flag _) ws
  have hchroma : (each (fun w : PicWeight => flag w.chroma.isSome) ws).FailsByContent :=
    failsByContent_each (fun w => failsByContent_flag _) ws
  exact failsByContent_concat (by
    simp [hluma, hchroma, failsByContent_each (PicWeight.failsByContent chroma)])

theorem WeightTable.failsByContent (chroma hasL1 : Bool) (t : WeightTable) :
    (t.encode chroma hasL1).FailsByContent :=
  failsByContent_concat (by simp [PicWeight.failsByContent_list])

theorem Prediction.failsByContent (pps : Pps) (s : Setting) (p : Prediction) :
    (p.encode pps s).FailsByContent := by
  refine failsByContent_concat ?_
  cases p.weights with
  | none => simp [ListModification.failsByContent, WriteError.IsContent]
  | some table => simp [ListModification.failsByContent, WeightTable.failsByContent]

/-! ## Headers -/

theorem SliceQp.failsByContent (pps : Pps) (q : SliceQp) : (q.encode pps).FailsByContent :=
  failsByContent_concat (by simp)

theorem SliceDeblocking.failsByContent (control : DeblockingControl) (d : SliceDeblocking) :
    (d.encode control).FailsByContent :=
  failsByContent_concat (by simp)

theorem SliceFields.failsByContent (unitType : UnitType) (sps : Sps) (pps : Pps) (f : SliceFields) :
    (f.encode unitType sps pps).FailsByContent :=
  failsByContent_concat (by
    simp [RefPics.failsByContent, Prediction.failsByContent, SliceQp.failsByContent,
      SliceDeblocking.failsByContent])

theorem EntryPoints.failsByContent (e : EntryPoints) : e.encode.FailsByContent :=
  failsByContent_concat (by simp [failsByContent_each (failsByContent_uint _)])

namespace SliceHeader

theorem failsByContent_address (t : Target) (log2Ctb : Nat) :
    (t.encodeAddress log2Ctb).FailsByContent :=
  failsByContent_concat (by simp [WriteError.IsContent, WriteError.elements])

theorem failsByContent_extension (data : List Nat) : (encodeExtension data).FailsByContent :=
  failsByContent_concat (by simp [failsByContent_each (failsByContent_uint 8)])

theorem failsByContent (h : SliceHeader) (unitType : UnitType) (sps : Sps) (pps : Pps)
    (t : Target) : (h.encode unitType sps pps t).FailsByContent :=
  (failsByContent_concat (by
    simp [WriteError.IsContent, failsByContent_address, SliceFields.failsByContent,
      EntryPoints.failsByContent, failsByContent_extension])).closed

end SliceHeader

end TiledVideo
