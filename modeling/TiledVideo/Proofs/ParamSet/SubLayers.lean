import TiledVideo.ParamSet.Hrd
import TiledVideo.ParamSet.ProfileTierLevel
import TiledVideo.ParamSet.SubLayerOrdering
import TiledVideo.Proofs.Bitstream.Elements

/-!
# Reading back what is given for each sub-layer

Profile, tier and level, buffering and reordering, and reference decoder parameters. What a reader
gives has a code, and is read back from it.

Results:

* `ProfileTierLevel.reads`: profile, tier and level.
* `SubLayerOrdering.reads`: buffering and reordering, also where only the values of the highest
  sub-layer are coded.
* `Hrd.reads`: reference decoder parameters, also where the common part is inherited.
-/

namespace TiledVideo

open Reader

/-! ## Profile, tier and level -/

theorem ProfileInfo.reads {p : ProfileInfo} (h : parse.Produces p) : parse.Reads p.encode p := by
  obtain ⟨space, hspace, h⟩ := h.bind
  obtain ⟨tier, -, h⟩ := h.bind
  obtain ⟨idc, hidc, h⟩ := h.bind
  obtain ⟨compatibility, hcompatibility, h⟩ := h.bind
  obtain ⟨progressive, -, h⟩ := h.bind
  obtain ⟨interlaced, -, h⟩ := h.bind
  obtain ⟨nonPacked, -, h⟩ := h.bind
  obtain ⟨frameOnly, -, h⟩ := h.bind
  obtain ⟨high, hhigh, h⟩ := h.bind
  obtain ⟨low, hlow, h⟩ := h.bind
  obtain ⟨inbld, -, h⟩ := h.bind
  obtain rfl := h.pure
  have hlt : low < 2 ^ 32 := hlow.uint.2
  have hdiv : (high * 2 ^ 32 + low) / 2 ^ 32 = high := by omega
  have hmod : (high * 2 ^ 32 + low) % 2 ^ 32 = low := by omega
  simp only [encode, hdiv, hmod]
  exact hspace.reads_uint.cons <|
    (reads_flag _ _).cons <|
    hidc.reads_uint.cons <|
    hcompatibility.reads_uint.cons <|
    (reads_flag _ _).cons <|
    (reads_flag _ _).cons <|
    (reads_flag _ _).cons <|
    (reads_flag _ _).cons <|
    hhigh.reads_uint.cons <|
    hlow.reads_uint.cons <|
    (reads_flag _ _).cons <|
    reads_nil _

/-- The flags that announce what is stated of a sub-layer. -/
def SubLayerProfile.presence (s : SubLayerProfile) : Bool × Bool :=
  (s.profile.isSome, s.level.isSome)

theorem SubLayerProfile.reads_presence (s : SubLayerProfile) :
    parsePresence.Reads s.encodePresence s.presence :=
  (reads_flag _ _).cons <| (reads_flag _ _).cons <| reads_nil _

theorem SubLayerProfile.reads {present : Bool × Bool} {s : SubLayerProfile}
    (h : (parse present).Produces s) :
    present = s.presence ∧ (parse present).Reads s.encode s := by
  obtain ⟨profile, hprofile, h⟩ := h.bind
  obtain ⟨level, hlevel, h⟩ := h.bind
  obtain rfl := h.pure
  obtain ⟨hp, hprofiles⟩ := hprofile.optional
  obtain ⟨hl, hlevels⟩ := hlevel.optional
  obtain rfl : present = (profile.isSome, level.isSome) := Prod.ext hp hl
  exact ⟨rfl,
    (Reads.optional fun a ha => ProfileInfo.reads (hprofiles a ha)).cons <|
    (Reads.optional fun a ha => (hlevels a ha).reads_uint).cons <|
    reads_nil _⟩

theorem ProfileTierLevel.paddingBits_le (n : Nat) : paddingBits n ≤ 32 := by
  unfold paddingBits
  split <;> omega

theorem ProfileTierLevel.reads {n : Nat} {p : ProfileTierLevel} (h : (parse n).Produces p) :
    (parse n).Reads p.encode p := by
  obtain ⟨profile, hprofile, h⟩ := h.bind
  obtain ⟨level, hlevel, h⟩ := h.bind
  obtain ⟨present, hpresent, h⟩ := h.bind
  obtain ⟨_, -, h⟩ := h.bind
  obtain ⟨subLayers, hsubLayers, h⟩ := h.bind
  obtain rfl := h.pure
  have hsub := hsubLayers.each.imp fun _ _ => SubLayerProfile.reads
  -- the flags that were read are those that are written
  obtain rfl : present = subLayers.map SubLayerProfile.presence := by
    rw [← List.forall₂_eq_eq_eq, List.forall₂_map_right_iff]
    exact hsub.imp fun _ _ => And.left
  obtain rfl : subLayers.length = n := by simpa using hpresent.times.1
  exact (ProfileInfo.reads hprofile).cons <|
    hlevel.reads_uint.cons <|
    (Reads.times_map rfl fun s _ => SubLayerProfile.reads_presence s).cons <|
    (reads_skip _ (paddingBits_le _)).cons <|
    (Reads.each <| hsub.imp fun _ _ => And.right).cons <|
    reads_nil _

/-! ## Buffering and reordering -/

theorem OrderingInfo.reads {o : OrderingInfo} (h : parse.Produces o) : parse.Reads o.encode o := by
  obtain ⟨buffering, hbuffering, h⟩ := h.bind
  obtain ⟨reorder, hreorder, h⟩ := h.bind
  obtain ⟨latency, hlatency, h⟩ := h.bind
  obtain rfl := h.pure
  exact hbuffering.reads_ue.cons <| hreorder.reads_ue.cons <| hlatency.reads_ue.cons <| reads_nil _

theorem SubLayerOrdering.reads {element : String} {n : Nat} {o : SubLayerOrdering}
    (h : (parse element n).Produces o) : (parse element n).Reads o.encode o := by
  obtain ⟨perSubLayer, -, h⟩ := h.bind
  cases perSubLayer with
  | true =>
    obtain ⟨infos, hinfos, h⟩ := h.bind
    obtain rfl := h.pure
    refine (reads_flag _ true).cons ?_
    obtain ⟨hlen, hmem⟩ := hinfos.times
    exact (Reads.times hlen fun a ha => OrderingInfo.reads (hmem a ha)).cons <| reads_nil _
  | false =>
    obtain ⟨infos, hinfos, h⟩ := h.bind
    obtain rfl := h.pure
    refine (reads_flag _ false).cons ?_
    -- only the last of the equal values is written
    obtain ⟨info, hinfo, rfl⟩ := Produces.map hinfos
    have hdrop : (List.replicate (n + 1) info).drop ((List.replicate (n + 1) info).length - 1) =
        [info] := by
      rw [List.length_replicate, List.drop_replicate]
      simp
    simp only [Bool.false_eq_true, if_false, hdrop]
    exact ((OrderingInfo.reads hinfo).concat_single.map (List.replicate (n + 1))).cons <|
      reads_nil _

/-! ## Reference decoder parameters -/

theorem SubPicHrd.reads {s : SubPicHrd} (h : parse.Produces s) : parse.Reads s.encode s := by
  obtain ⟨divisor, hdivisor, h⟩ := h.bind
  obtain ⟨increment, hincrement, h⟩ := h.bind
  obtain ⟨inSei, -, h⟩ := h.bind
  obtain ⟨output, houtput, h⟩ := h.bind
  obtain rfl := h.pure
  exact hdivisor.reads_uint.cons <|
    hincrement.reads_uint.cons <|
    (reads_flag _ _).cons <|
    houtput.reads_uint.cons <|
    reads_nil _

theorem HrdScales.reads {s : HrdScales} (h : parse.Produces s) : parse.Reads s.encode s := by
  obtain ⟨present, -, h⟩ := h.bind
  obtain ⟨subPic, hsubPic, h⟩ := h.bind
  obtain ⟨bitRate, hbitRate, h⟩ := h.bind
  obtain ⟨cpbSize, hcpbSize, h⟩ := h.bind
  obtain ⟨cpbSizeDu, hcpbSizeDu, h⟩ := h.bind
  obtain ⟨initial, hinitial, h⟩ := h.bind
  obtain ⟨removal, hremoval, h⟩ := h.bind
  obtain ⟨output, houtput, h⟩ := h.bind
  obtain rfl := h.pure
  obtain ⟨rfl, hsubPics⟩ := hsubPic.optional
  obtain ⟨hdu, hduAbsent⟩ := hcpbSizeDu.optionalD
  exact (reads_flag _ _).cons <|
    (Reads.optional fun a ha => SubPicHrd.reads (hsubPics a ha)).cons <|
    hbitRate.reads_uint.cons <|
    hcpbSize.reads_uint.cons <|
    (Reads.optionalD (fun hp => (hdu hp).reads_uint) hduAbsent).cons <|
    hinitial.reads_uint.cons <|
    hremoval.reads_uint.cons <|
    houtput.reads_uint.cons <|
    reads_nil _

theorem HrdCommon.reads {c : HrdCommon} (h : parse.Produces c) : parse.Reads c.encode c := by
  obtain ⟨nal, -, h⟩ := h.bind
  obtain ⟨vcl, -, h⟩ := h.bind
  obtain ⟨scales, hscales, h⟩ := h.bind
  obtain rfl := h.pure
  obtain ⟨hpresent, hscalesRead⟩ := hscales.optional
  exact (reads_flag _ _).cons <|
    (reads_flag _ _).cons <|
    (Reads.onlyIf hpresent fun a ha => by subst ha; exact HrdScales.reads (hscalesRead a rfl)).cons <|
    reads_nil _

theorem CpbParams.reads {subPic : Bool} {c : CpbParams} (h : (parse subPic).Produces c) :
    (parse subPic).Reads (c.encode subPic) c := by
  obtain ⟨bitRate, hbitRate, h⟩ := h.bind
  obtain ⟨cpbSize, hcpbSize, h⟩ := h.bind
  obtain ⟨cpbSizeDu, hcpbSizeDu, h⟩ := h.bind
  obtain ⟨bitRateDu, hbitRateDu, h⟩ := h.bind
  obtain ⟨constant, -, h⟩ := h.bind
  obtain rfl := h.pure
  obtain ⟨hcpb, hcpbAbsent⟩ := hcpbSizeDu.optionalD
  obtain ⟨hrate, hrateAbsent⟩ := hbitRateDu.optionalD
  exact hbitRate.reads_ue.cons <|
    hcpbSize.reads_ue.cons <|
    (Reads.optionalD (fun hp => (hcpb hp).reads_ue) hcpbAbsent).cons <|
    (Reads.optionalD (fun hp => (hrate hp).reads_ue) hrateAbsent).cons <|
    (reads_flag _ _).cons <|
    reads_nil _

theorem SubLayerHrd.reads {common : HrdCommon} {s : SubLayerHrd}
    (h : (parse common).Produces s) : (parse common).Reads (s.encode common) s := by
  obtain ⟨general, -, h⟩ := h.bind
  obtain ⟨within, hwithin, h⟩ := h.bind
  obtain ⟨elemental, helemental, h⟩ := h.bind
  obtain ⟨lowDelay, hlowDelay, h⟩ := h.bind
  obtain ⟨count, hcount, h⟩ := h.bind
  obtain ⟨_, hle, h⟩ := h.bind
  obtain ⟨nal, hnal, h⟩ := h.bind
  obtain ⟨vcl, hvcl, h⟩ := h.bind
  obtain rfl := h.pure
  obtain ⟨-, hwithin⟩ := hwithin.optionalD
  obtain ⟨helemental, helementalAbsent⟩ := helemental.optionalD
  obtain ⟨-, hlowDelay⟩ := hlowDelay.optionalD
  obtain ⟨hcount, hcountAbsent⟩ := hcount.optionalD
  obtain ⟨hnal, hnalAbsent⟩ := hnal.optionalD
  obtain ⟨hvcl, hvclAbsent⟩ := hvcl.optionalD
  have hbuffers : ∀ {cs : List CpbParams},
      (times (count + 1) (CpbParams.parse common.hasSubPic)).Produces cs →
      (times (count + 1) (CpbParams.parse common.hasSubPic)).Reads
        (.each (CpbParams.encode common.hasSubPic) cs) cs := fun hcs =>
    Reads.times hcs.times.1 fun a ha => CpbParams.reads (hcs.times.2 a ha)
  exact (reads_flag _ _).cons <|
    (Reads.optionalD (fun _ => reads_flag _ _) hwithin).cons <|
    Reads.either_cons (fun hp => (helemental hp).reads_ue) helementalAbsent
      (fun _ => reads_flag _ _) (fun hp => hlowDelay (by rw [hp]; rfl)) <|
    (Reads.optionalD (fun hp => (hcount hp).reads_ue) hcountAbsent).cons <|
    Reads.ensure_bind hle.ensure <|
    (Reads.optionalD (fun hp => hbuffers (hnal hp)) hnalAbsent).cons <|
    (Reads.optionalD (fun hp => hbuffers (hvcl hp)) hvclAbsent).cons <|
    reads_nil _

theorem Hrd.reads {commonCoded : Bool} {n : Nat} {inherited : Option HrdCommon} {hrd : Hrd}
    (h : (parse commonCoded n inherited).Produces hrd) :
    hrd.commonCoded = commonCoded ∧ (parse commonCoded n inherited).Reads hrd.encode hrd := by
  obtain ⟨common, hcommon, h⟩ := h.bind
  obtain ⟨subLayers, hsubLayers, h⟩ := h.bind
  obtain rfl := h.pure
  obtain ⟨hcommon, hcommonAbsent⟩ := hcommon.optionalD
  obtain ⟨hlen, hmem⟩ := hsubLayers.times
  exact ⟨rfl,
    (Reads.optionalD (fun hp => HrdCommon.reads (hcommon hp)) hcommonAbsent).cons <|
    (Reads.times hlen fun a ha => SubLayerHrd.reads (hmem a ha)).cons <|
    reads_nil _⟩

end TiledVideo
