import TiledVideo.Proofs.ParamSet.Pps
import TiledVideo.Proofs.Slice.Prediction
import TiledVideo.Slice.Header

/-!
# Reading back the fields of slices

What a slice says about itself apart from its place. The reader and the code look at the same parts
of the parameter sets, none of which changes when the sets are written for pictures of another size
or with another grid of tiles.

Results:

* `SliceFields.reads`: the fields are read back with cleared reserved flags.
* `SliceFields.parse_asWritten`: the fields are read alike with parameter sets that were written.
-/

namespace TiledVideo

open Reader

/-! ## Reference pictures -/

theorem ShortTermChoice.reads {sets : List RefPicSet} {choice : ShortTermChoice}
    (h : (parse sets).Produces choice) : (parse sets).Reads (choice.encode sets) choice := by
  obtain ⟨isListed, -, h⟩ := h.bind
  cases isListed with
  | true =>
    obtain ⟨index, hindex, h⟩ := h.bind
    obtain ⟨_, hlt, h⟩ := h.bind
    obtain rfl := h.pure
    exact Reads.ensure_cons hlt.ensure <|
      ((reads_flag _ true).mapError _).cons <|
      (hindex.mapError.reads_uint.mapError _).cons <|
      Reads.ensure_bind hlt.ensure <|
      reads_nil _
  | false =>
    obtain ⟨set, hset, rfl⟩ := h.map
    exact ((reads_flag _ false).mapError _).cons <|
      (((RefPicSet.reads hset.mapError).mapError _).map explicit).concat_single

/-- Reference pictures are read back if none of them can be a long-term one. -/
theorem RefPics.reads {sps : Sps} {r : RefPics} (h : (parse sps).Produces r)
    (hlong : sps.longTerm = none) :
    r.longTerm = none ∧ (parse sps).Reads (r.encode sps) r := by
  obtain ⟨pocLsb, hpocLsb, h⟩ := h.bind
  obtain ⟨shortTerm, hshortTerm, h⟩ := h.bind
  rw [hlong] at h
  obtain ⟨longTerm, hlongTerm, h⟩ := h.bind
  obtain rfl := hlongTerm.pure
  obtain ⟨temporalMvp, htemporalMvp, h⟩ := h.bind
  obtain rfl := h.pure
  refine ⟨rfl, (hpocLsb.mapError.reads_uint.mapError _).cons <|
    (ShortTermChoice.reads hshortTerm).cons ?_⟩
  rw [hlong]
  exact (reads_pure none).empty_bind <|
    (Reads.optionalD (fun _ => (reads_flag _ _).mapError _) htemporalMvp.optionalD.2).cons <|
    reads_nil _

/-- A picture that refers to no other has no long-term reference pictures either. -/
theorem RefPics.longTerm_of_produces {present : Bool} {sps : Sps} {r : RefPics}
    (h : (optionalD present (parse sps) absent).Produces r) (hlong : sps.longTerm = none) :
    r.longTerm = none := by
  cases present with
  | true => exact (RefPics.reads (h.optionalD.1 rfl) hlong).1
  | false =>
    rw [h.optionalD.2 rfl]
    rfl

theorem RefPics.totalCount_eq {sps : Sps} {r : RefPics} (h : r.longTerm = none) :
    r.totalCount sps = r.shortTermCount sps := by
  rw [totalCount, h, Nat.add_zero]

/-! ## Quantisation and deblocking -/

/-- A flag that is absent is not set. -/
theorem Reader.Produces.and_eq {ε : Type} {present b : Bool} {p : Reader ε Bool}
    (h : (Reader.optionalD present p false).Produces b) : (present && b) = b := by
  cases present with
  | true => rfl
  | false => rw [h.optionalD.2 rfl, Bool.and_false]

theorem SliceType.reads (t : SliceType) : parse.Reads (.ue t.id) t := by
  have hlt : t.id < 2 ^ 32 - 1 := by cases t <;> decide
  have hread : (require (ofId? t.id) (SliceError.invalidSliceType t.id)).Reads .empty t := by
    rw [ofId?_eq_some_iff.2 rfl]
    exact reads_pure t
  exact ((reads_ue _ hlt).mapError _).bind_empty hread

theorem SliceQp.reads {pps : Pps} {q : SliceQp} (h : (parse pps).Produces q) :
    (parse pps).Reads (q.encode pps) q := by
  obtain ⟨delta, hdelta, h⟩ := h.bind
  obtain ⟨cb, hcb, h⟩ := h.bind
  obtain ⟨cr, hcr, h⟩ := h.bind
  obtain ⟨cu, hcu, h⟩ := h.bind
  obtain rfl := h.pure
  obtain ⟨hcbRead, hcbAbsent⟩ := hcb.optionalD
  obtain ⟨hcrRead, hcrAbsent⟩ := hcr.optionalD
  exact hdelta.reads_se.cons <|
    (Reads.optionalD (fun hp => (hcbRead hp).reads_se) hcbAbsent).cons <|
    (Reads.optionalD (fun hp => (hcrRead hp).reads_se) hcrAbsent).cons <|
    (Reads.optionalD (fun _ => reads_flag _ _) hcu.optionalD.2).cons <|
    reads_nil _

namespace SliceDeblocking

/-- A slice has settings of its own only where the picture allows it, and else those of the
picture. -/
theorem inherits_of_produces {control : DeblockingControl} {d : SliceDeblocking}
    (h : (parse control).Produces d) :
    d.overridesIn control = d.overrides ∧ d.disabledIn control = d.disabled := by
  obtain ⟨overrides, hoverrides, h⟩ := h.bind
  obtain ⟨disabled, hdisabled, h⟩ := h.bind
  obtain ⟨_, -, h⟩ := h.bind
  obtain ⟨_, -, h⟩ := h.bind
  obtain rfl := h.pure
  refine ⟨hoverrides.and_eq, ?_⟩
  rw [disabledIn, overridesIn, hoverrides.and_eq]
  cases overrides with
  | true => rfl
  | false => exact (hdisabled.optionalD.2 rfl).symm

theorem reads {control : DeblockingControl} {d : SliceDeblocking}
    (h : (parse control).Produces d) : (parse control).Reads (d.encode control) d := by
  have hin := (inherits_of_produces h).1
  obtain ⟨overrides, hoverrides, h⟩ := h.bind
  obtain ⟨disabled, hdisabled, h⟩ := h.bind
  obtain ⟨beta, hbeta, h⟩ := h.bind
  obtain ⟨tc, htc, h⟩ := h.bind
  obtain rfl := h.pure
  obtain ⟨hbetaRead, hbetaAbsent⟩ := hbeta.optionalD
  obtain ⟨htcRead, htcAbsent⟩ := htc.optionalD
  rw [encode, hin]
  exact (Reads.optionalD (fun _ => reads_flag _ _) hoverrides.optionalD.2).cons <|
    (Reads.optionalD (fun _ => reads_flag _ _) hdisabled.optionalD.2).cons <|
    (Reads.optionalD (fun hp => (hbetaRead hp).reads_se) hbetaAbsent).cons <|
    (Reads.optionalD (fun hp => (htcRead hp).reads_se) htcAbsent).cons <|
    reads_nil _

end SliceDeblocking

/-! ## All fields -/

namespace SliceFields

/-- The fields of a slice are read back, with cleared reserved flags. -/
theorem reads {unitType : UnitType} {sps : Sps} {pps : Pps} {f : SliceFields}
    (h : (parse unitType sps pps).Produces f) (houtput : pps.outputFlagPresent = false)
    (hplanes : sps.format.separatePlanes = false) (hlong : sps.longTerm = none) :
    (parse unitType sps pps).Reads (f.encode unitType sps pps) { f with reservedFlags := 0 } := by
  obtain ⟨reserved, hreserved, h⟩ := h.bind
  obtain ⟨type, -, h⟩ := h.bind
  obtain ⟨output, houtputRead, h⟩ := h.bind
  obtain ⟨colourPlane, hcolourPlane, h⟩ := h.bind
  obtain ⟨refs, hrefs, h⟩ := h.bind
  obtain ⟨saoLuma, hsaoLuma, h⟩ := h.bind
  obtain ⟨saoChroma, hsaoChroma, h⟩ := h.bind
  obtain ⟨prediction, hprediction, h⟩ := h.bind
  obtain ⟨qp, hqp, h⟩ := h.bind
  obtain ⟨deblocking, hdeblocking, h⟩ := h.bind
  obtain ⟨across, hacross, h⟩ := h.bind
  obtain rfl := h.pure
  obtain ⟨hrefsRead, hrefsAbsent⟩ := hrefs.optionalD
  obtain ⟨hpredictionRead, hpredictionAbsent⟩ := hprediction.optionalD
  have hrefsLong := RefPics.longTerm_of_produces hrefs hlong
  rw [houtput] at houtputRead
  obtain rfl := houtputRead.optionalD.2 rfl
  rw [hplanes] at hcolourPlane
  obtain rfl := hcolourPlane.pure
  rw [RefPics.totalCount_eq hrefsLong] at hpredictionRead
  rw [encode, (SliceDeblocking.inherits_of_produces hdeblocking.mapError).2]
  refine ((reads_uint _ hreserved.mapError.uint.1 (Nat.two_pow_pos _)).mapError _).cons <|
    (SliceType.reads type).cons ?_
  rw [houtput, hplanes]
  refine (reads_pure true).empty_bind <| (reads_pure none).empty_bind <|
    (Reads.optionalD (fun hp => (RefPics.reads (hrefsRead hp) hlong).2) hrefsAbsent).cons <|
    (Reads.optionalD (fun _ => (reads_flag _ _).mapError _) hsaoLuma.optionalD.2).cons <|
    (Reads.optionalD (fun _ => (reads_flag _ _).mapError _) hsaoChroma.optionalD.2).cons ?_
  rw [RefPics.totalCount_eq hrefsLong]
  exact (Reads.optionalD (fun hp => Prediction.reads (hpredictionRead hp)) hpredictionAbsent).cons <|
    ((SliceQp.reads hqp.mapError).mapError _).cons <|
    ((SliceDeblocking.reads hdeblocking.mapError).mapError _).cons <|
    (Reads.optionalD (fun _ => (reads_flag _ _).mapError _) hacross.optionalD.2).cons <|
    reads_nil _

/-- Parameter sets that were written for another size and grid say the same about the fields. -/
theorem parse_asWritten (unitType : UnitType) (sps : Sps) (pps : Pps) (width height : Nat)
    (tiles : TileOverride) :
    parse unitType (sps.resized width height).asWritten (pps.asWritten tiles) =
      parse unitType sps pps := rfl

end SliceFields

end TiledVideo
