import TiledVideo.Proofs.Bitstream.Exactness
import TiledVideo.Proofs.ParamSet.Sps

/-!
# Parts of parameter sets that are read bit for bit

Each part of a parameter set is read from its code and from nothing else. What is inferred or repeated
when it is read is left out again when it is written, and flags that are not kept can be told from what
they announce. Only the reserved bits behind the flags of sub-layers leave no trace.

Results:

* `ProfileTierLevel.exact`, `SubLayerOrdering.exact`, `Hrd.exact`: what is given for each sub-layer.
* `Vui.exact`: usability information.
* `ScalingLists.exact`, `RefPicSet.exact_all`: scaling lists and reference picture sets.
-/

namespace TiledVideo

open Reader

section Elements

variable {D : ReadError → Bool → Prop}

/-! ## Profile, tier and level -/

theorem ProfileInfo.exact : parse.Exact D encode := by
  refine .bind (exact_uint 2 _) fun space _ => ?_
  refine .bind (exact_flag _) fun tier _ => ?_
  refine .bind (exact_uint 5 _) fun idc _ => ?_
  refine .bind (exact_uint 32 _) fun compatibility _ => ?_
  refine .bind (exact_flag _) fun progressive _ => ?_
  refine .bind (exact_flag _) fun interlaced _ => ?_
  refine .bind (exact_flag _) fun nonPacked _ => ?_
  refine .bind (exact_flag _) fun frameOnly _ => ?_
  refine .bind (exact_uint 11 _) fun high _ => ?_
  refine .bind (exact_uint 32 _) fun low hlow => ?_
  refine .bind (exact_flag _) fun inbld _ => .pure fun _ => ?_
  have hlt : low < 2 ^ 32 := hlow.produces.uint.2
  have hdiv : (high * 2 ^ 32 + low) / 2 ^ 32 = high := by omega
  have hmod : (high * 2 ^ 32 + low) % 2 ^ 32 = low := by omega
  simp only [encode, hdiv, hmod]
  rfl

theorem SubLayerProfile.exact_presence :
    parsePresence.Exact D fun present => .concat [.flag present.1, .flag present.2] := by
  refine .bind (exact_flag _) fun profile _ => ?_
  exact .bind (exact_flag _) fun level _ => .pure fun _ => rfl

theorem SubLayerProfile.exact (present : Bool × Bool) : (parse present).Exact D encode := by
  refine .bind (.optional fun _ => ProfileInfo.exact) fun profile _ => ?_
  exact .bind (.optional fun _ => exact_uint 8 _) fun level _ => .pure fun _ => rfl

theorem ProfileTierLevel.exact (n : Nat)
    (hD : ∀ b, D (.endOfData "reserved_zero_2bits") b → b = false) : (parse n).Exact D encode := by
  refine .bind ProfileInfo.exact fun profile _ => ?_
  refine .bind (exact_uint 8 _) fun level _ => ?_
  refine .bind (.times SubLayerProfile.exact_presence n) fun present hpresent => ?_
  refine .bind (exact_skip (paddingBits_le n) hD) fun _ _ => ?_
  refine .bind (.each SubLayerProfile.exact present) fun subLayers hsubLayers => .pure fun _ => ?_
  -- the flags that were read are those that are written
  obtain rfl : present = subLayers.map SubLayerProfile.presence := by
    rw [← List.forall₂_eq_eq_eq, List.forall₂_map_right_iff]
    exact hsubLayers.produces.each.imp fun _ _ h => (SubLayerProfile.reads h).1
  obtain rfl : subLayers.length = n := by simpa using hpresent.produces.times.1
  have hflags : Code.each SubLayerProfile.encodePresence subLayers =
      Code.each (fun present => .concat [.flag present.1, .flag present.2])
        (subLayers.map SubLayerProfile.presence) := by
    rw [Code.each, Code.each, List.map_map]
    rfl
  rw [encode, hflags]
  rfl

/-! ## Buffering and reordering -/

theorem OrderingInfo.exact : parse.Exact D encode := by
  refine .bind (exact_ue _) fun buffering _ => ?_
  refine .bind (exact_ue _) fun reorder _ => ?_
  exact .bind (exact_ue _) fun latency _ => .pure fun _ => rfl

theorem SubLayerOrdering.exact (element : String) (n : Nat) : (parse element n).Exact D encode := by
  refine .bind (exact_flag _) fun perSubLayer _ => ?_
  cases perSubLayer with
  | true => exact .bind (.times OrderingInfo.exact _) fun infos _ => .pure fun _ => rfl
  | false =>
    -- of the equal values one was read, and only the last one is written
    have hlast : (List.replicate (n + 1) <$> OrderingInfo.parse).Exact D fun infos =>
        .each OrderingInfo.encode (infos.drop (infos.length - 1)) := by
      refine .map OrderingInfo.exact fun info _ _ => ?_
      have hdrop : (List.replicate (n + 1) info).drop ((List.replicate (n + 1) info).length - 1) =
          [info] := by
        rw [List.length_replicate, List.drop_replicate]
        simp
      rw [hdrop]
      rfl
    exact .bind hlast fun infos _ => .pure fun _ => rfl

/-! ## Reference decoder parameters -/

theorem SubPicHrd.exact : parse.Exact D encode := by
  refine .bind (exact_uint 8 _) fun divisor _ => ?_
  refine .bind (exact_uint 5 _) fun increment _ => ?_
  refine .bind (exact_flag _) fun inSei _ => ?_
  exact .bind (exact_uint 5 _) fun output _ => .pure fun _ => rfl

theorem HrdScales.exact : parse.Exact D encode := by
  refine .bind (exact_flag _) fun subPicPresent _ => ?_
  refine .bind (.optional fun _ => SubPicHrd.exact) fun subPic hsubPic => ?_
  refine .bind (exact_uint 4 _) fun bitRate _ => ?_
  refine .bind (exact_uint 4 _) fun cpbSize _ => ?_
  refine .bind (.optionalD fun _ => exact_uint 4 _) fun cpbSizeDu _ => ?_
  refine .bind (exact_uint 5 _) fun initial _ => ?_
  refine .bind (exact_uint 5 _) fun removal _ => ?_
  refine .bind (exact_uint 5 _) fun output _ => .pure fun _ => ?_
  obtain rfl := hsubPic.produces.optional.1
  rfl

theorem HrdCommon.exact : parse.Exact D encode := by
  refine .bind (exact_flag _) fun nal _ => ?_
  refine .bind (exact_flag _) fun vcl _ => ?_
  refine .bind (.optional fun _ => HrdScales.exact) fun scales hscales => .pure fun _ => ?_
  rw [encode, hscales.produces.optional.1]
  cases scales <;> rfl

theorem CpbParams.exact (subPic : Bool) : (parse subPic).Exact D (encode subPic) := by
  refine .bind (exact_ue _) fun bitRate _ => ?_
  refine .bind (exact_ue _) fun cpbSize _ => ?_
  refine .bind (.optionalD fun _ => exact_ue _) fun cpbSizeDu _ => ?_
  refine .bind (.optionalD fun _ => exact_ue _) fun bitRateDu _ => ?_
  exact .bind (exact_flag _) fun constant _ => .pure fun _ => rfl

theorem SubLayerHrd.exact (common : HrdCommon) : (parse common).Exact D (encode common) := by
  refine .bind (exact_flag _) fun general _ => ?_
  refine .bind (.optionalD fun _ => exact_flag _) fun within _ => ?_
  refine .bind (.optionalD fun _ => exact_ue _) fun elemental _ => ?_
  refine .bind (.optionalD fun _ => exact_flag _) fun lowDelay _ => ?_
  refine .bind (.optionalD fun _ => exact_ue _) fun count _ => ?_
  refine .ensure_bind fun _ => ?_
  refine .bind (.optionalD fun _ => .times (CpbParams.exact _) _) fun nal _ => ?_
  refine .bind (.optionalD fun _ => .times (CpbParams.exact _) _) fun vcl _ => .pure fun _ => ?_
  -- one of the duration and the delay has a code
  cases within with
  | true =>
    show _ = Code.concat [.flag general, .onlyIf (!general) (.flag true), .ue elemental, .empty,
      .onlyIf (!lowDelay) (.ue count), _, _]
    simp only [Code.concat, Code.empty_append]
    rfl
  | false =>
    show _ = Code.concat [.flag general, .onlyIf (!general) (.flag false), .empty, .flag lowDelay,
      .onlyIf (!lowDelay) (.ue count), _, _]
    simp only [Code.concat, Code.empty_append]
    rfl

theorem Hrd.exact (commonCoded : Bool) (n : Nat) (inherited : Option HrdCommon) :
    (parse commonCoded n inherited).Exact D encode := by
  refine .bind (.optionalD fun _ => HrdCommon.exact) fun common _ => ?_
  exact .bind (.times (SubLayerHrd.exact common) _) fun subLayers _ => .pure fun _ => rfl

/-! ## Usability information -/

theorem Window.exact : parse.Exact D encode := by
  refine .bind (exact_ue _) fun left _ => ?_
  refine .bind (exact_ue _) fun right _ => ?_
  refine .bind (exact_ue _) fun top _ => ?_
  exact .bind (exact_ue _) fun bottom _ => .pure fun _ => rfl

theorem Window.exact_optional (element : String) : (parseOptional element).Exact D encodeOptional := by
  refine .bind (exact_flag _) fun present _ => ?_
  refine .last (.optional fun _ => Window.exact) fun window hwindow _ => ?_
  obtain rfl := hwindow.produces.optional.1
  rfl

theorem SampleAspect.exact : parse.Exact D encode := by
  refine .bind (exact_uint 8 _) fun idc _ => ?_
  -- the four cases in which the number of the ratio is understood
  split_ifs with hzero hlisted hextended
  · refine .pure fun _ => ?_
    subst hzero
    exact (Code.concat_single _).symm
  · refine .pure fun _ => ?_
    obtain ⟨index, rfl⟩ := Nat.exists_eq_add_one_of_ne_zero hzero
    exact (Code.concat_single _).symm
  · subst hextended
    refine .bind (exact_uint 16 _) fun width _ => ?_
    exact .bind (exact_uint 16 _) fun height _ => .pure fun _ => rfl
  · exact .pure fun _ => (Code.concat_single _).symm

theorem Overscan.exact : parse.Exact D encode := by
  refine .bind (exact_flag _) fun specified _ => ?_
  refine .bind (.optional fun _ => exact_flag _) fun suited hsuited => .pure fun _ => ?_
  obtain rfl := hsuited.produces.optional.1
  match suited with
  | none => rfl
  | some true => rfl
  | some false => rfl

theorem ColourDescription.exact : parse.Exact D encode := by
  refine .bind (exact_uint 8 _) fun primaries _ => ?_
  refine .bind (exact_uint 8 _) fun transfer _ => ?_
  exact .bind (exact_uint 8 _) fun matrix _ => .pure fun _ => rfl

theorem VideoSignal.exact : parse.Exact D encode := by
  refine .bind (exact_uint 3 _) fun code _ => ?_
  refine .bind (exact_flag _) fun fullRange _ => ?_
  refine .bind (exact_flag _) fun hasColour _ => ?_
  refine .bind (.optional fun _ => ColourDescription.exact) fun colour hcolour => .pure fun _ => ?_
  obtain rfl := hcolour.produces.optional.1
  rw [encode, VideoFormat.code_ofCode]
  rfl

theorem ChromaLocation.exact : parse.Exact D encode := by
  refine .bind (exact_ue _) fun topField _ => ?_
  exact .bind (exact_ue _) fun bottomField _ => .pure fun _ => rfl

theorem VuiTiming.exact (n : Nat) : (parse n).Exact D encode := by
  refine .bind (exact_uint 32 _) fun numUnits _ => ?_
  refine .bind (exact_uint 32 _) fun timeScale _ => ?_
  refine .bind (exact_flag _) fun proportional _ => ?_
  refine .bind (.optional fun _ => exact_ue _) fun ticks hticks => ?_
  refine .bind (exact_flag _) fun hasHrd _ => ?_
  refine .bind (.optional fun _ => Hrd.exact _ _ _) fun hrd hhrd => .pure fun _ => ?_
  obtain rfl := hticks.produces.optional.1
  obtain rfl := hhrd.produces.optional.1
  rfl

theorem BitstreamLimits.exact : parse.Exact D encode := by
  refine .bind (exact_flag _) fun tilesFixed _ => ?_
  refine .bind (exact_flag _) fun overBoundaries _ => ?_
  refine .bind (exact_flag _) fun restricted _ => ?_
  refine .bind (exact_ue _) fun segmentation _ => ?_
  refine .bind (exact_ue _) fun bytesDenom _ => ?_
  refine .bind (exact_ue _) fun bitsDenom _ => ?_
  refine .bind (exact_ue _) fun horizontal _ => ?_
  exact .bind (exact_ue _) fun vertical _ => .pure fun _ => rfl

end Elements

theorem Vui.exact {D : VuiError → Bool → Prop} (n : Nat) : (parse n).Exact D encode := by
  refine .bind (exact_flag _).mapError fun hasAspect _ => ?_
  refine .bind (.optional fun _ => SampleAspect.exact.mapError) fun aspect haspect => ?_
  refine .bind Overscan.exact.mapError fun overscan _ => ?_
  refine .bind (exact_flag _).mapError fun hasSignal _ => ?_
  refine .bind (.optional fun _ => VideoSignal.exact.mapError) fun signal hsignal => ?_
  refine .bind (exact_flag _).mapError fun hasLocation _ => ?_
  refine .bind (.optional fun _ => ChromaLocation.exact.mapError) fun location hlocation => ?_
  refine .bind (exact_flag _).mapError fun neutral _ => ?_
  refine .bind (exact_flag _).mapError fun fieldSeq _ => ?_
  refine .bind (exact_flag _).mapError fun frameField _ => ?_
  refine .bind (Window.exact_optional _).mapError fun window _ => ?_
  refine .bind (exact_flag _).mapError fun hasTiming _ => ?_
  refine .bind (.optional fun _ => (VuiTiming.exact n).mapError) fun timing htiming => ?_
  refine .bind (exact_flag _).mapError fun hasLimits _ => ?_
  refine .bind (.optional fun _ => BitstreamLimits.exact.mapError) fun limits hlimits => ?_
  split
  · exact exact_throw _
  · refine .pure fun _ => ?_
    obtain rfl := haspect.produces.optional.1
    obtain rfl := hsignal.produces.optional.1
    obtain rfl := hlocation.produces.optional.1
    obtain rfl := htiming.produces.optional.1
    obtain rfl := hlimits.produces.optional.1
    simp only [List.nil_append, List.cons_append]
    rfl

/-! ## Scaling lists -/

namespace ScalingLists

variable {D : ScalingListError → Bool → Prop}

theorem exact_dc : parseDc.Exact D .se :=
  (exact_se _).mapError.checked

theorem exact_entry (position : Nat × Nat) : (parseEntry position).Exact D encodeEntry := by
  refine .bind (exact_flag _).mapError fun explicit _ => ?_
  cases explicit with
  | true =>
    refine .bind (.optional fun _ => exact_dc) fun dc _ => ?_
    exact .bind (.times (exact_se _).mapError _) fun deltas _ => .pure fun _ => rfl
  | false =>
    refine .bind (exact_ue _).mapError fun delta _ => ?_
    exact .ensure_bind fun _ => .pure fun _ => rfl

theorem exact : parse.Exact D encode := by
  refine .bind (.each exact_entry _) fun entries hentries => .pure fun _ => ?_
  have hlength : (entries.length == positions.length) = true := by
    rw [beq_iff_eq, hentries.produces.each.length_eq]
  exact Code.concat_ensure_cons hlength _ _

end ScalingLists

/-! ## Reference picture sets -/

namespace RefPicSet

variable {D : RefPicSetError → Bool → Prop}

theorem exact_choice {D : ReadError → Bool → Prop} : parseChoice.Exact D encodeChoice := by
  refine .bind (exact_flag _) fun used _ => ?_
  exact .bind (.optionalD fun _ => exact_flag _) fun kept _ => .pure fun _ => rfl

theorem exact_gap {D : ReadError → Bool → Prop} (gapElement usedElement : String) :
    (parseGap gapElement usedElement).Exact D encodeGap := by
  refine .bind (exact_ue _) fun delta _ => ?_
  exact .bind (exact_flag _) fun used _ => .pure fun _ => rfl

theorem exact (index count : Nat) (sets : List RefPicSet) :
    (parse index count sets).Exact D (encode index count) := by
  refine .bind (.optionalD fun _ => (exact_flag _).mapError) fun inter hinter => ?_
  cases inter with
  | true =>
    refine .bind (.optionalD fun _ => (exact_ue _).mapError) fun deltaIdx _ => ?_
    refine .require_bind fun reference _ => ?_
    refine .bind (exact_flag _).mapError fun negative _ => ?_
    refine .bind (exact_ue _).mapError fun absDelta _ => ?_
    refine .ensure_bind fun _ => ?_
    refine .bind (.times exact_choice.mapError _) fun choices _ => .pure fun _ => ?_
    -- the first set is never predicted
    have hindex : (index != 0) = true := by
      cases hfirst : index != 0 with
      | true => rfl
      | false => cases hinter.produces.optionalD.2 hfirst
    rw [hindex, encode, ofInter, hindex]
    exact Code.concat_ensure_cons rfl _ _
  | false =>
    refine .bind (exact_ue _).mapError fun numBefore _ => ?_
    refine .bind (exact_ue _).mapError fun numAfter _ => ?_
    refine .ensure_bind fun _ => .ensure_bind fun _ => ?_
    refine .bind (.times (exact_gap _ _).mapError _) fun before hbefore => ?_
    refine .bind (.times (exact_gap _ _).mapError _) fun after hafter => .pure fun _ => ?_
    obtain ⟨rfl, -⟩ := hbefore.produces.times
    obtain ⟨rfl, -⟩ := hafter.produces.times
    rfl

/-- The sets behind `sets` are read one after the other. -/
theorem exact_from (count n : Nat) (sets : List RefPicSet) :
    (parseFrom count n sets).Exact D fun all =>
      .concat ((all.drop sets.length).mapIdx fun i s => s.encode (sets.length + i) count) := by
  induction n generalizing sets with
  | zero =>
    refine .pure fun _ => ?_
    rw [List.drop_length]
    rfl
  | succ n ih =>
    refine .bind (exact _ _ _) fun set _ => .last (ih _) fun all hall _ => ?_
    obtain ⟨later, rfl, -⟩ := reads_from hall.produces
    rw [List.drop_left, List.append_assoc, List.drop_left, List.singleton_append, List.mapIdx_cons,
      List.length_append, List.length_singleton]
    simp only [Nat.add_assoc, Nat.add_comm 1]
    exact congrArg (set.encode sets.length count ++ ·) (Code.concat_single _).symm

theorem exact_all (count : Nat) : (parseAll count).Exact D encodeAll := by
  refine .last (exact_from count count []) fun all hall _ => ?_
  obtain ⟨rfl, -⟩ := reads_all hall.produces
  rw [List.nil_append, Code.concat_single]
  simp only [encodeAll, List.length_nil, Nat.zero_add, List.drop_zero]

end RefPicSet

end TiledVideo
