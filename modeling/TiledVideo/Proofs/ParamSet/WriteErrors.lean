import TiledVideo.Proofs.Bitstream.WriteErrors
import TiledVideo.ParamSet.Pps
import TiledVideo.ParamSet.Vps

/-!
# Why parameter sets are not written

Results:

* `Vps.failsByContent`, `Sps.failsByContent`, `Pps.failsByContent`: if a parameter set has no code, then
  because of a feature that is not written or of a value that does not fit its element.
-/

namespace TiledVideo

open Code

/-! ## Common parts -/

theorem ProfileInfo.failsByContent (p : ProfileInfo) : p.encode.FailsByContent :=
  failsByContent_concat (by simp)

theorem SubLayerProfile.failsByContent (s : SubLayerProfile) : s.encode.FailsByContent :=
  failsByContent_concat (by simp [ProfileInfo.failsByContent])

theorem SubLayerProfile.failsByContent_presence (s : SubLayerProfile) :
    s.encodePresence.FailsByContent :=
  failsByContent_concat (by simp)

theorem ProfileTierLevel.failsByContent (p : ProfileTierLevel) : p.encode.FailsByContent :=
  failsByContent_concat (by
    simp [ProfileInfo.failsByContent, failsByContent_each SubLayerProfile.failsByContent_presence,
      failsByContent_each SubLayerProfile.failsByContent])

theorem OrderingInfo.failsByContent (o : OrderingInfo) : o.encode.FailsByContent :=
  failsByContent_concat (by simp)

theorem SubLayerOrdering.failsByContent (o : SubLayerOrdering) : o.encode.FailsByContent :=
  failsByContent_concat (by simp [failsByContent_each OrderingInfo.failsByContent])

theorem Window.failsByContent (w : Window) : w.encode.FailsByContent :=
  failsByContent_concat (by simp)

theorem Window.failsByContent_optional (w : Option Window) : (encodeOptional w).FailsByContent :=
  failsByContent_concat (by simp [Window.failsByContent])

/-! ## Reference decoder -/

theorem SubPicHrd.failsByContent (s : SubPicHrd) : s.encode.FailsByContent :=
  failsByContent_concat (by simp)

theorem HrdScales.failsByContent (s : HrdScales) : s.encode.FailsByContent :=
  failsByContent_concat (by simp [SubPicHrd.failsByContent])

theorem HrdCommon.failsByContent (c : HrdCommon) : c.encode.FailsByContent :=
  failsByContent_concat (by simp [HrdScales.failsByContent])

theorem CpbParams.failsByContent (subPic : Bool) (c : CpbParams) : (c.encode subPic).FailsByContent :=
  failsByContent_concat (by simp)

theorem SubLayerHrd.failsByContent (common : HrdCommon) (s : SubLayerHrd) :
    (s.encode common).FailsByContent := by
  refine failsByContent_concat ?_
  have hparams := failsByContent_each (CpbParams.failsByContent common.hasSubPic)
  cases s.fixedPicRateWithinCvs with
  | false => simp [hparams]
  | true => simp [hparams]

theorem Hrd.failsByContent (h : Hrd) : h.encode.FailsByContent :=
  failsByContent_concat (by
    simp [HrdCommon.failsByContent, failsByContent_each (SubLayerHrd.failsByContent h.common)])

/-! ## Video parameter sets -/

theorem VpsTiming.failsByContent_laterHrd (h : Nat × Hrd) : (encodeLaterHrd h).FailsByContent :=
  failsByContent_concat (by simp [Hrd.failsByContent])

theorem VpsTiming.failsByContent_hrds (hrds : List (Nat × Hrd)) : (encodeHrds hrds).FailsByContent := by
  cases hrds with
  | nil => exact failsByContent_empty
  | cons h later =>
    exact failsByContent_concat (by
      simp [Hrd.failsByContent, failsByContent_each failsByContent_laterHrd])

theorem VpsTiming.failsByContent (t : VpsTiming) : t.encode.FailsByContent :=
  failsByContent_concat (by simp [failsByContent_hrds])

theorem Vps.failsByContent (v : Vps) : v.encode.FailsByContent :=
  (failsByContent_concat (by
    simp [WriteError.IsContent, ProfileTierLevel.failsByContent, SubLayerOrdering.failsByContent,
      failsByContent_each (failsByContent_each failsByContent_flag),
      VpsTiming.failsByContent])).closed

/-! ## Sequence parameter sets -/

theorem ScalingListEntry.failsByContent (e : ScalingListEntry) :
    (ScalingLists.encodeEntry e).FailsByContent := by
  cases e with
  | predicted delta => exact failsByContent_concat (by simp)
  | explicit dcMinus8 deltas =>
    exact failsByContent_concat (by simp [failsByContent_each failsByContent_se])

theorem ScalingLists.failsByContent (s : ScalingLists) : s.encode.FailsByContent :=
  failsByContent_concat (by
    simp [WriteError.IsContent, WriteError.elements,
      failsByContent_each ScalingListEntry.failsByContent])

theorem RefPicSet.failsByContent_choice (c : RefPicChoice) : (encodeChoice c).FailsByContent :=
  failsByContent_concat (by simp)

theorem RefPicSet.failsByContent_gap (g : RefPicGap) : (encodeGap g).FailsByContent :=
  failsByContent_concat (by simp)

theorem RefPicSet.failsByContent (index count : Nat) (s : RefPicSet) :
    (s.encode index count).FailsByContent := by
  unfold encode
  split
  · exact failsByContent_concat (by
      simp [WriteError.IsContent, WriteError.elements, failsByContent_each failsByContent_choice])
  · exact failsByContent_concat (by simp [failsByContent_each failsByContent_gap])

theorem RefPicSet.failsByContent_all (sets : List RefPicSet) : (encodeAll sets).FailsByContent := by
  refine failsByContent_concat fun c hc => ?_
  obtain ⟨index, hindex, rfl⟩ := List.mem_mapIdx.1 hc
  exact failsByContent index sets.length sets[index]

theorem SampleAspect.failsByContent (a : SampleAspect) : a.encode.FailsByContent := by
  cases a with
  | extended width height => exact failsByContent_concat (by simp)
  | _ => exact failsByContent_uint 8 _

theorem Overscan.failsByContent (o : Overscan) : o.encode.FailsByContent := by
  cases o with
  | unspecified => exact failsByContent_flag false
  | _ => exact failsByContent_concat (by simp)

theorem ColourDescription.failsByContent (c : ColourDescription) : c.encode.FailsByContent :=
  failsByContent_concat (by simp)

theorem VideoSignal.failsByContent (v : VideoSignal) : v.encode.FailsByContent :=
  failsByContent_concat (by simp [ColourDescription.failsByContent])

theorem ChromaLocation.failsByContent (c : ChromaLocation) : c.encode.FailsByContent :=
  failsByContent_concat (by simp)

theorem VuiTiming.failsByContent (t : VuiTiming) : t.encode.FailsByContent :=
  failsByContent_concat (by simp [Hrd.failsByContent])

theorem BitstreamLimits.failsByContent (b : BitstreamLimits) : b.encode.FailsByContent :=
  failsByContent_concat (by simp)

theorem Vui.failsByContent (v : Vui) : v.encode.FailsByContent :=
  failsByContent_concat (by
    simp [SampleAspect.failsByContent, Overscan.failsByContent, VideoSignal.failsByContent,
      ChromaLocation.failsByContent, Window.failsByContent_optional, VuiTiming.failsByContent,
      BitstreamLimits.failsByContent])

theorem PictureFormat.failsByContent (f : PictureFormat) : f.encode.FailsByContent :=
  failsByContent_concat (by simp [Window.failsByContent_optional])

theorem BlockSizes.failsByContent (b : BlockSizes) : b.encode.FailsByContent :=
  failsByContent_concat (by simp)

theorem Scaling.failsByContent (s : Scaling) : s.encode.FailsByContent := by
  cases s with
  | flat => exact failsByContent_flag false
  | standard => exact failsByContent_concat (by simp)
  | coded lists => exact failsByContent_concat (by simp [ScalingLists.failsByContent])

theorem Pcm.failsByContent (p : Pcm) : p.encode.FailsByContent :=
  failsByContent_concat (by simp)

theorem SpsRangeExtension.failsByContent (e : SpsRangeExtension) : e.encode.FailsByContent :=
  failsByContent_concat (by simp)

theorem SpsExtensions.failsByContent (e : SpsExtensions) : e.encode.FailsByContent := by
  unfold encode
  split
  · exact failsByContent_flag false
  · exact failsByContent_concat (by simp [SpsRangeExtension.failsByContent])

theorem Sps.failsByContent (s : Sps) : s.encode.FailsByContent :=
  (failsByContent_concat (by
    simp [WriteError.IsContent, ProfileTierLevel.failsByContent, PictureFormat.failsByContent,
      SubLayerOrdering.failsByContent, BlockSizes.failsByContent, Scaling.failsByContent,
      Pcm.failsByContent, RefPicSet.failsByContent_all, Vui.failsByContent,
      SpsExtensions.failsByContent])).closed

/-! ## Picture parameter sets -/

theorem TileSpacing.failsByContent (s : TileSpacing) : s.encode.FailsByContent := by
  cases s with
  | uniform => exact failsByContent_flag true
  | explicit widths heights =>
    exact failsByContent_concat (by simp [failsByContent_each failsByContent_ue])

theorem TileGrid.failsByContent (g : TileGrid) : g.encode.FailsByContent :=
  failsByContent_concat (by simp [TileSpacing.failsByContent])

theorem Partition.failsByContent (p : Partition) : p.encode.FailsByContent :=
  failsByContent_concat (by simp [TileGrid.failsByContent])

theorem TileOverride.failsByContent (tiles : TileOverride) : tiles.check.FailsByContent := by
  cases tiles with
  | uniform columns rows => simp [check, WriteError.IsContent, WriteError.elements]
  | _ => exact failsByContent_empty

theorem DeblockingControl.failsByContent (d : DeblockingControl) : d.encode.FailsByContent :=
  failsByContent_concat (by simp)

theorem ChromaQpOffsets.failsByContent_pair (pair : Int × Int) : (encodePair pair).FailsByContent :=
  failsByContent_concat (by simp)

theorem ChromaQpOffsets.failsByContent (c : ChromaQpOffsets) : c.encode.FailsByContent :=
  failsByContent_concat (by
    simp [WriteError.IsContent, WriteError.elements, failsByContent_each failsByContent_pair])

theorem PpsRangeExtension.failsByContent (e : PpsRangeExtension) : e.encode.FailsByContent :=
  failsByContent_concat (by simp [ChromaQpOffsets.failsByContent])

theorem PpsExtensions.failsByContent (e : PpsExtensions) : e.encode.FailsByContent := by
  unfold encode
  split
  · exact failsByContent_flag false
  · exact failsByContent_concat (by simp [PpsRangeExtension.failsByContent])

theorem Pps.failsByContent (p : Pps) (tiles : TileOverride) : (p.encode tiles).FailsByContent :=
  (failsByContent_concat (by
    simp [TileOverride.failsByContent, Partition.failsByContent, DeblockingControl.failsByContent,
      ScalingLists.failsByContent, PpsExtensions.failsByContent])).closed

end TiledVideo
