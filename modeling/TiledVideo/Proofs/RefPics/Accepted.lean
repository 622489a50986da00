import TiledVideo.Proofs.ParamSet.Sps
import TiledVideo.Proofs.RefPics.Descent
import TiledVideo.Proofs.Slice.Header

/-!
# Accepted reference picture sets

A set is accepted in a sequence parameter set, or in a slice, which can predict its own set from any of
those. In both cases a prediction may go back over all sets of the sequence parameter set.

Results:

* `ordered_pictures`: a predicted set has the pictures that it stands for, in order, and with small gaps
  this holds of all sets that a set goes back to.
* `distances_kept`: when a set has the distances that it stands for.
* `picture_counts`: how many pictures a set has.

The coding standard has no gaps above `2 ^ 15` and at most 16 pictures in each direction. Readers look at
the number of coded gaps, but not at their sizes, and not at the number of pictures of a predicted set. So
there are sets with other distances (`wrapped_distance`) and with more pictures (`seventeen_pictures`).
-/

namespace TiledVideo

/-! ## Slices -/

/-- A header was read against a sequence parameter set, or has taken over the fields of one that was. -/
inductive SliceHeader.ReadAgainst (sps : Sps) : SliceHeader → Prop where
  | independent {ctx : Context} {unitType : UnitType} {previous : Option SliceHeader}
      {payload : Bytes} {h : SliceHeader} {n : Nat} {pps : Pps}
      (hread : (SliceHeader.parse ctx unitType previous).decodeFront payload = .ok (h, n))
      (hindependent : h.dependent = false) (hpps : ctx.ppsById h.ppsId = some pps)
      (hsps : ctx.spsOf pps = some sps) : ReadAgainst sps h
  | dependent {ctx : Context} {unitType : UnitType} {previous : SliceHeader} {payload : Bytes}
      {h : SliceHeader} {n : Nat} (hprevious : ReadAgainst sps previous)
      (hread : (SliceHeader.parse ctx unitType (some previous)).decodeFront payload = .ok (h, n))
      (hdependent : h.dependent = true) : ReadAgainst sps h

theorem SliceHeader.ReadAgainst.produces {sps : Sps} {h : SliceHeader} (hread : h.ReadAgainst sps) :
    ∃ unitType pps, (SliceFields.parse unitType sps pps).Produces h.fields := by
  induction hread with
  | @independent ctx unitType previous payload h n pps hread hindependent hpps hsps =>
    obtain ⟨pps', sps', hpps', hsps', -, -, hfields, -⟩ :=
      legible_of_produces (Reader.produces_of_decodeFront hread)
    obtain rfl := Option.some.inj (hpps.symm.trans hpps')
    obtain rfl := Option.some.inj (hsps.symm.trans hsps')
    exact ⟨unitType, pps, hfields hindependent⟩
  | dependent hprevious hread hdependent ih =>
    obtain ⟨-, -, -, -, -, htaken, -⟩ :=
      legible_of_produces (Reader.produces_of_decodeFront hread)
    obtain ⟨_, ⟨⟩, hfields⟩ := htaken hdependent
    rw [hfields]
    exact ih

theorem ShortTermChoice.produces_set {sets : List RefPicSet} {s : RefPicSet}
    (h : (parse sets).Produces (.explicit s)) :
    (RefPicSet.parse sets.length sets.length sets).Produces s := by
  obtain ⟨isListed, -, h⟩ := h.bind
  cases isListed with
  | true =>
    obtain ⟨_, -, h⟩ := h.bind
    obtain ⟨_, -, h⟩ := h.bind
    cases h.pure
  | false =>
    obtain ⟨set, hset, heq⟩ := h.map
    obtain rfl := explicit.inj heq
    exact hset.mapError

theorem RefPics.produces_shortTerm {sps : Sps} {r : RefPics} (h : (parse sps).Produces r) :
    ∃ choice, r.shortTerm = some choice ∧
      (ShortTermChoice.parse sps.refPicSets).Produces choice := by
  obtain ⟨_, -, h⟩ := h.bind
  obtain ⟨choice, hchoice, h⟩ := h.bind
  refine ⟨choice, ?_, hchoice⟩
  split at h
  all_goals
    obtain ⟨_, -, h⟩ := h.bind
    obtain ⟨_, -, h⟩ := h.bind
    obtain rfl := h.pure
    rfl

/-- The set of a slice's own is read behind all sets of the sequence parameter set. -/
theorem SliceFields.produces_set {unitType : UnitType} {sps : Sps} {pps : Pps} {f : SliceFields}
    {s : RefPicSet} (h : (parse unitType sps pps).Produces f)
    (hset : f.refs.shortTerm = some (.explicit s)) :
    (RefPicSet.parse sps.refPicSets.length sps.refPicSets.length sps.refPicSets).Produces s := by
  iterate 4 obtain ⟨_, -, h⟩ := h.bind
  obtain ⟨refs, hrefs, h⟩ := h.bind
  iterate 6 obtain ⟨_, -, h⟩ := h.bind
  obtain rfl := h.pure
  obtain ⟨hrefsRead, hrefsAbsent⟩ := hrefs.optionalD
  cases hidr : !unitType.isIdr with
  | false =>
    rw [hrefsAbsent hidr] at hset
    cases hset
  | true =>
    obtain ⟨choice, hshortTerm, hchoice⟩ := RefPics.produces_shortTerm (hrefsRead hidr)
    obtain rfl := Option.some.inj (hset.symm.trans hshortTerm)
    exact ShortTermChoice.produces_set hchoice

namespace RefPicSet

open Reader

/-- The set was accepted in a sequence parameter set or in a slice, and goes back to `older`. -/
inductive Accepted : RefPicSet → List RefPicSet → Prop where
  | ofSps {payload : Bytes} {sps : Sps} {front later : List RefPicSet} {s : RefPicSet}
      (hsps : Context.decodeSps payload = .ok sps) (hset : sps.refPicSets = front ++ s :: later) :
      Accepted s (s.origins front.reverse)
  | ofSlice {payload : Bytes} {sps : Sps} {h : SliceHeader} {s : RefPicSet}
      (hsps : Context.decodeSps payload = .ok sps) (hread : h.ReadAgainst sps)
      (hset : h.fields.refs.shortTerm = some (.explicit s)) :
      Accepted s (s.origins sps.refPicSets.reverse)

/-- The sets of a sequence parameter set are at most 64, and each goes back to earlier ones. -/
theorem traced_of_decodeSps {payload : Bytes} {sps : Sps}
    (h : Context.decodeSps payload = .ok sps) :
    Traced sps.refPicSets.reverse ∧ sps.refPicSets.length ≤ 64 := by
  obtain ⟨-, -, hsets⟩ := Sps.produces_parts (produces_of_decode h)
  obtain ⟨count, hcount, hsets⟩ := hsets.bind
  refine ⟨traced_of_parseAll hsets.mapError, ?_⟩
  rw [(reads_all hsets.mapError).1]
  exact Sps.le_of_produces hcount

section Accepted

variable {s : RefPicSet} {older : List RefPicSet}

/-- An accepted set goes back to one that is coded by gaps, over at most 64 predictions. -/
theorem Accepted.descends (h : Accepted s older) : Descends s older ∧ older.length ≤ 64 := by
  cases h with
  | @ofSps payload sps front later s hsps hset =>
    obtain ⟨htraced, hlength⟩ := traced_of_decodeSps hsps
    rw [hset, List.reverse_append, List.reverse_cons, List.append_assoc] at htraced
    rw [hset, List.length_append, List.length_cons] at hlength
    have hle := length_origins_le s front.reverse
    rw [List.length_reverse] at hle
    exact ⟨htraced.of_append.1, by omega⟩
  | ofSlice hsps hread hset =>
    obtain ⟨htraced, hlength⟩ := traced_of_decodeSps hsps
    obtain ⟨unitType, pps, hfields⟩ := hread.produces
    refine ⟨htraced.descends (SliceFields.produces_set hfields hset), ?_⟩
    refine Nat.le_trans (length_origins_le _ _) ?_
    rwa [List.length_reverse]

end Accepted

/-! ## A slice -/

/-- The payload of a sequence parameter set with a set of four pictures, and one predicted from it. -/
def sampleSpsPayload : Bytes := [
  1, 1, 96, 0, 0, 0, 144, 0, 0, 0, 0, 0, 123, 160, 3, 192, 128, 17, 5, 150, 87, 146, 76, 27, 122,
  196, 234, 200, 32]

/-- A sequence parameter set with two sets. -/
def sampleSps : Sps :=
  match Context.decodeSps sampleSpsPayload with
  | .ok s => s
  | .error _ => default

/-- A picture parameter set for it. -/
def samplePps : Pps :=
  match (Context.empty.putSps sampleSps).decodePps [192, 113, 128, 18] with
  | .ok p => p
  | .error _ => default

/-- Both parameter sets. -/
def sampleCtx : Context :=
  (Context.empty.putSps sampleSps).putPps samplePps

/-- The header of a slice with a set of its own. -/
def sampleHeader : SliceHeader :=
  match (SliceHeader.parse sampleCtx ⟨1⟩ none).decodeFront [216, 67, 61, 240] with
  | .ok (h, _) => h
  | .error _ => default

/-- What becomes of the pictures of the second set, and of its own. -/
def sampleChoices : List RefPicChoice := [
  ⟨true, true⟩, ⟨true, true⟩, ⟨false, true⟩, ⟨true, true⟩, ⟨true, true⟩]

/-- The set of the slice, predicted from the second set of the sequence parameter set. -/
def sampleSet : RefPicSet where
  coding := .inter 0 false 2 sampleChoices
  before := [⟨-2, true⟩]
  after := [⟨1, true⟩, ⟨2, true⟩, ⟨3, true⟩]

theorem accepted_sample : Accepted sampleSet sampleSps.refPicSets.reverse := by
  have hsps : Context.decodeSps sampleSpsPayload = .ok sampleSps := by decide +kernel
  have hread : (SliceHeader.parse sampleCtx ⟨1⟩ none).decodeFront [216, 67, 61, 240] =
      .ok (sampleHeader, 32) := by decide +kernel
  have hpps : sampleCtx.ppsById sampleHeader.ppsId = some samplePps := by decide +kernel
  have hspsOf : sampleCtx.spsOf samplePps = some sampleSps := by decide +kernel
  have hset : sampleHeader.fields.refs.shortTerm = some (.explicit sampleSet) := by
    decide +kernel
  have horigins : sampleSet.origins sampleSps.refPicSets.reverse =
      sampleSps.refPicSets.reverse := by decide +kernel
  rw [← horigins]
  exact .ofSlice hsps (.independent hread (by decide +kernel) hpps hspsOf) hset

section Accepted

variable {s : RefPicSet} {older : List RefPicSet}

/-! ## Order -/

/-- A prediction from a set in order that loses no distances has all pictures that are kept, each moved by
the offset and with its own flag, apart from the one that becomes the current picture, and is in order.
With small gaps, all sets that an accepted set goes back to are in order, and have the pictures that they
stand for. -/
theorem ordered_pictures :
    (∀ (reference : RefPicSet) (deltaIdxMinus1 : Nat) (negative : Bool) (absDeltaRpsMinus1 : Nat)
        (choices : List RefPicChoice), reference.Ordered → choices.length = reference.size + 1 →
      reference.Movable (offset negative absDeltaRpsMinus1) →
      (ofInter reference deltaIdxMinus1 negative absDeltaRpsMinus1 choices).Ordered ∧
        (candidates reference choices).map Prod.fst = reference.sources ∧
        ((ofInter reference deltaIdxMinus1 negative absDeltaRpsMinus1 choices).before ++
            (ofInter reference deltaIdxMinus1 negative absDeltaRpsMinus1 choices).after).Perm
          ((placed (offset negative absDeltaRpsMinus1) (candidates reference choices)).filter
            (·.deltaPoc ≠ 0))) ∧
    ∀ (s : RefPicSet) (older : List RefPicSet), Accepted s older → (∀ t ∈ s :: older, t.SmallGaps) →
      ∀ t later, (t :: later) <:+ (s :: older) → t.Ordered ∧ t.StandsFor later := by
  constructor
  · intro reference deltaIdx negative absDelta choices hreference hchoices hmovable
    rw [ofInter_eq hmovable]
    exact ⟨hreference.exactInter hchoices, map_fst_candidates hchoices, perm_exactInter⟩
  · intro s older haccepted hsmall t later hsuffix
    obtain ⟨hdescends, hlength⟩ := haccepted.descends
    have hexact := (hdescends.exact hsmall hlength).1.of_suffix hsuffix
    exact ⟨hexact.ordered, hexact.standsFor⟩

/-- A set of pictures at −1, −3, 1 and 5 is moved by −2 without the last one. -/
theorem ordered_pictures_sample :
    (ofInter (ofExplicit [⟨0, true⟩, ⟨1, true⟩] [⟨0, false⟩, ⟨3, true⟩]) 0 true 1
        [⟨true, true⟩, ⟨false, true⟩, ⟨true, true⟩, ⟨false, false⟩, ⟨true, true⟩]).Ordered ∧
      (ofInter (ofExplicit [⟨0, true⟩, ⟨1, true⟩] [⟨0, false⟩, ⟨3, true⟩]) 0 true 1
        [⟨true, true⟩, ⟨false, true⟩, ⟨true, true⟩, ⟨false, false⟩, ⟨true, true⟩]).before =
          [⟨-1, true⟩, ⟨-2, true⟩, ⟨-3, true⟩, ⟨-5, false⟩] ∧
      sampleSet.Ordered ∧ sampleSet.StandsFor sampleSps.refPicSets.reverse := by
  obtain ⟨hstep, hline⟩ := ordered_pictures
  have hreference : (ofExplicit [⟨0, true⟩, ⟨1, true⟩] [⟨0, false⟩, ⟨3, true⟩]).Ordered := by
    rw [ofExplicit_eq_iff.2 (by decide)]
    exact ordered_exactExplicit _ _
  have hsmall : ∀ t ∈ sampleSet :: sampleSps.refPicSets.reverse, t.SmallGaps := by decide +kernel
  exact ⟨(hstep _ 0 true 1 _ hreference rfl (by decide)).1, by decide,
    hline _ _ accepted_sample hsmall _ _ (List.suffix_refl _)⟩

/-! ## Distances -/

/-- An accepted set and all that it goes back to have the distances that they stand for exactly if those
are numbers of 32 bits. With small gaps they are, and nothing is lost in any sum on the way. -/
theorem distances_kept (h : Accepted s older) :
    (s :: older = exactLine ((s :: older).map (·.coding)) ↔
      ∀ e ∈ exactLine ((s :: older).map (·.coding)), e.Fits) ∧
    ((∀ t ∈ s :: older, t.SmallGaps) →
      Exact s older ∧ s :: older = exactLine ((s :: older).map (·.coding))) := by
  obtain ⟨hdescends, hlength⟩ := h.descends
  refine ⟨hdescends.eq_exactLine_iff, fun hsmall => ?_⟩
  have hexact := (hdescends.exact hsmall hlength).1
  exact ⟨hexact, hexact.eq_exactLine⟩

theorem distances_kept_sample :
    Exact sampleSet sampleSps.refPicSets.reverse ∧
      sampleSet :: sampleSps.refPicSets.reverse =
        exactLine ((sampleSet :: sampleSps.refPicSets.reverse).map (·.coding)) :=
  (distances_kept accepted_sample).2 (by decide +kernel)

/-- The payload of a sequence parameter set with one set, of a picture that is `2 ^ 31 + 1` away. -/
def wrappingSpsPayload : Bytes := [
  1, 1, 96, 0, 0, 0, 144, 0, 0, 0, 0, 0, 123, 160, 3, 192, 128, 17, 5, 150, 87, 146, 76, 18, 128, 0,
  0, 0, 128, 0, 0, 1, 130]

/-- A sequence parameter set with a distance that 32 bits do not hold. -/
def wrappingSps : Sps :=
  match Context.decodeSps wrappingSpsPayload with
  | .ok s => s
  | .error _ => default

/-- A picture that is far before the current one is taken for one that is far after it. -/
theorem wrapped_distance :
    Context.decodeSps wrappingSpsPayload = .ok wrappingSps ∧
      wrappingSps.refPicSets = [ofExplicit [⟨2 ^ 31, true⟩] []] ∧
      Accepted (ofExplicit [⟨2 ^ 31, true⟩] []) [] ∧
      (ofExplicit [⟨2 ^ 31, true⟩] []).before = [⟨2147483647, true⟩] ∧
      (exactExplicit [⟨2 ^ 31, true⟩] []).before = [⟨-2147483649, true⟩] := by
  have hsps : Context.decodeSps wrappingSpsPayload = .ok wrappingSps := by decide +kernel
  have hsets : wrappingSps.refPicSets = [ofExplicit [⟨2 ^ 31, true⟩] []] := by decide +kernel
  have haccepted : Accepted (ofExplicit [⟨2 ^ 31, true⟩] []) (origins _ (List.reverse [])) :=
    .ofSps hsps hsets
  exact ⟨hsps, hsets, haccepted, by decide, by decide⟩

/-! ## Counts -/

/-- A set that is coded by gaps has at most 16 pictures in each direction. Each of at most 64 predictions
adds at most one. A predicted set has those pictures in a direction that are moved there. -/
theorem picture_counts (h : Accepted s older) :
    (∀ before after, s.coding = .explicit before after →
      s.before.length ≤ 16 ∧ s.after.length ≤ 16) ∧
    (∃ root, (s :: older).getLast? = some root ∧ root.before.length ≤ 16 ∧ root.after.length ≤ 16 ∧
      s.size ≤ root.size + older.length ∧ older.length ≤ 64) ∧
    ∀ deltaIdxMinus1 negative absDeltaRpsMinus1 choices,
      s.coding = .inter deltaIdxMinus1 negative absDeltaRpsMinus1 choices →
      ∃ reference, older.head? = some reference ∧
        s.before.length = (candidates reference choices).countP (fun x =>
          decide (wrap32 (x.1.deltaPoc + offset negative absDeltaRpsMinus1) < 0) && x.2.kept) ∧
        s.after.length = (candidates reference choices).countP (fun x =>
          decide (0 < wrap32 (x.1.deltaPoc + offset negative absDeltaRpsMinus1)) && x.2.kept) := by
  obtain ⟨hdescends, hlength⟩ := h.descends
  obtain ⟨root, hroot, hbefore, hafter, hsize⟩ := hdescends.size_le
  refine ⟨?_, ⟨root, hroot, hbefore, hafter, hsize, hlength⟩, ?_⟩
  · intro before after hcoding
    cases hdescends with
    | explicit _ _ =>
      obtain rfl := Option.some.inj hroot
      exact ⟨hbefore, hafter⟩
    | inter _ _ _ => cases hcoding
  · intro deltaIdx negative absDelta choices hcoding
    cases hdescends with
    | explicit _ _ => cases hcoding
    | inter _ _ _ =>
      cases hcoding
      exact ⟨_, rfl, length_before_ofInter, length_after_ofInter⟩

/-- A set of four pictures is predicted from one of four, and this from another one of four. -/
theorem picture_counts_sample :
    sampleSet.size ≤ 4 + 2 ∧ ∃ reference, sampleSps.refPicSets.reverse.head? = some reference ∧
      (candidates reference sampleChoices).countP
        (fun x => decide (wrap32 (x.1.deltaPoc + offset false 2) < 0) && x.2.kept) = 1 ∧
      (candidates reference sampleChoices).countP
        (fun x => decide (0 < wrap32 (x.1.deltaPoc + offset false 2)) && x.2.kept) = 3 := by
  obtain ⟨-, ⟨root, hroot, -, -, hsize, -⟩, hpredicted⟩ := picture_counts accepted_sample
  obtain ⟨reference, hreference, hbefore, hafter⟩ := hpredicted 0 false 2 sampleChoices rfl
  have hrootSize : (sampleSet :: sampleSps.refPicSets.reverse).getLast?.map size = some 4 := by
    decide +kernel
  have hlength : sampleSps.refPicSets.reverse.length = 2 := by decide +kernel
  rw [hroot] at hrootSize
  rw [Option.some.inj hrootSize, hlength] at hsize
  exact ⟨hsize, reference, hreference, hbefore.symm, hafter.symm⟩

/-- The payload of a sequence parameter set with two sets, one of 16 pictures and one predicted from it. -/
def crowdedSpsPayload : Bytes := [
  1, 1, 96, 0, 0, 0, 144, 0, 0, 0, 0, 0, 123, 160, 3, 192, 128, 17, 5, 150, 87, 146, 76, 24, 71, 255,
  255, 255, 255, 255, 255, 224, 128]

/-- A sequence parameter set with a set of 17 pictures before the current one. -/
def crowdedSps : Sps :=
  match Context.decodeSps crowdedSpsPayload with
  | .ok s => s
  | .error _ => default

/-- A set of 16 pictures is moved away from the current one, and the picture that it belongs to is added. -/
theorem seventeen_pictures :
    Context.decodeSps crowdedSpsPayload = .ok crowdedSps ∧
      crowdedSps.refPicSets.map (·.before.length) = [16, 17] := by
  constructor <;> decide +kernel

end Accepted

end RefPicSet

end TiledVideo
