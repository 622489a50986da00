import TiledVideo.Proofs.ParamSet.RoundTrip
import TiledVideo.Proofs.Tiling.Sizes

/-!
# Tiles of given sizes

The sizes of columns and rows can be given in blocks. In samples they are numbers of 32 bits, of
which higher bits are lost without notice. So a layout is made whenever what is kept of the sizes leaves
a rest of the picture. The sizes themselves do so exactly if, besides, no bits of them are lost.

Results:

* `ParsedPair`: parameter sets that were read, one against the other.
* `given_sizes_accepted`: for which sizes there is a layout, and what sizes it has.
* `lost_size_accepted`: a column of four billion samples in a picture of 1920.
-/

namespace TiledVideo

open Reader

/-! ## Parameter sets that go together -/

/-- A sequence parameter set that was read, and a picture parameter set that was read against it. -/
structure ParsedPair (sps : Sps) (pps : Pps) : Prop where
  spsRead : ∃ payload, Context.decodeSps payload = .ok sps
  ppsRead : ∃ (c : Context) (payload : Bytes), c.decodePps payload = .ok pps ∧ c.spsOf pps = some sps

namespace ParsedPair

variable {sps : Sps} {pps : Pps}

theorem produces (h : ParsedPair sps pps) : Sps.parse.Produces sps := by
  obtain ⟨payload, hdecode⟩ := h.spsRead
  exact produces_of_decode hdecode

theorem width_bounds (h : ParsedPair sps pps) :
    0 < sps.format.width ∧ sps.format.width ≤ 16888 :=
  (PictureFormat.bounds (Sps.produces_parts h.produces).1).1

theorem height_bounds (h : ParsedPair sps pps) :
    0 < sps.format.height ∧ sps.format.height ≤ 16888 :=
  (PictureFormat.bounds (Sps.produces_parts h.produces).1).2

theorem log2Ctb_le (h : ParsedPair sps pps) : sps.log2Ctb ≤ 6 :=
  (BlockSizes.log2Ctb_bounds (Sps.produces_parts h.produces).2.1).2

/-- The grid has no more columns and rows than the picture has blocks, and sizes are given for all
columns and rows but the last ones, or for none. -/
theorem grid (h : ParsedPair sps pps) {g : TileGrid} (hg : pps.partition.tiles = some g) :
    g.Fits sps ∧ g.Counted := by
  obtain ⟨c, payload, hdecode, hsps⟩ := h.ppsRead
  obtain ⟨sps', hsps', hpartition⟩ := Pps.known_of_produces (produces_of_decode hdecode)
  obtain rfl : sps = sps' := Option.some.inj (hsps.symm.trans hsps')
  have hgrid := Partition.produces_tiles hpartition hg
  exact ⟨(TileGrid.fits_codable_of_produces hgrid).1, TileGrid.counted_of_produces hgrid⟩

end ParsedPair

namespace Sample

/-- The payload of the sequence parameter set of the picture of two tiles. -/
def spsPayload : Bytes := [
  1, 1, 96, 0, 0, 0, 144, 0, 0, 0, 0, 0, 123, 160, 3, 192, 128, 17, 7, 203, 150, 86, 105, 36, 72,
  172, 128]

theorem sps_read : Context.decodeSps spsPayload = .ok sps := by
  decide +kernel

theorem parsedPair_given : ParsedPair sps Context.samplePps :=
  ⟨⟨spsPayload, sps_read⟩, ctx, Context.samplePpsPayload, by decide +kernel, by decide +kernel⟩

/-- The payload of a picture parameter set with a column of 2 ^ 26 blocks. -/
def lossyPpsPayload : Bytes := [192, 113, 132, 160, 0, 0, 2, 0, 0, 0, 34, 64]

/-- A picture parameter set with a column that is much wider than the picture. -/
def lossyPps : Pps :=
  match ctx.decodePps lossyPpsPayload with
  | .ok p => p
  | .error _ => default

end Sample

namespace TileLayout

/-! ## Layouts -/

section Given

variable {sps : Sps} {pps : Pps} {l : TileLayout} {grid : TileGrid} {widths heights : List Nat}

theorem sizes_of_ofParamSets (hgrid : pps.partition.tiles = some grid)
    (hl : ofParamSets sps pps = .ok l) : tileSizes sps grid = .ok (l.columnWidths, l.rowHeights) := by
  obtain ⟨grid', ws, hs, hgrid', hsizes, rfl⟩ := ofParamSets_eq_ok_iff.1 hl
  obtain rfl : grid = grid' := Option.some.inj (hgrid.symm.trans hgrid')
  exact hsizes

theorem exists_layout_iff (hgrid : pps.partition.tiles = some grid) :
    (∃ l, ofParamSets sps pps = .ok l) ↔ ∃ sizes, tileSizes sps grid = .ok sizes := by
  constructor
  · rintro ⟨l, hl⟩
    exact ⟨_, sizes_of_ofParamSets hgrid hl⟩
  · rintro ⟨⟨ws, hs⟩, hsizes⟩
    exact ⟨_, ofParamSets_eq_ok_iff.2 ⟨grid, ws, hs, hgrid, hsizes, rfl⟩⟩

/-- There is a layout for given sizes exactly if what 32 bits hold of them leaves a rest of the picture
in both directions, and it has what they hold and the rest. The given sizes themselves leave a rest
exactly if there is a layout and no bits of them are lost. Then the layout has the sizes that were
given, and none of its tiles is empty. -/
theorem given_sizes_accepted (hpair : ParsedPair sps pps) (hgrid : pps.partition.tiles = some grid)
    (hspacing : grid.spacing = .explicit widths heights) :
    ((∃ l, ofParamSets sps pps = .ok l) ↔
      (keptSizes widths sps.log2Ctb).sum < sps.format.width ∧
        (keptSizes heights sps.log2Ctb).sum < sps.format.height) ∧
    ((givenSizes widths sps.log2Ctb).sum < sps.format.width ∧
        (givenSizes heights sps.log2Ctb).sum < sps.format.height ↔
      (∃ l, ofParamSets sps pps = .ok l) ∧ Lossless widths sps.log2Ctb ∧
        Lossless heights sps.log2Ctb) ∧
    ∀ l, ofParamSets sps pps = .ok l →
      (l.columnWidths = withRest (keptSizes widths sps.log2Ctb) sps.format.width ∧
        l.rowHeights = withRest (keptSizes heights sps.log2Ctb) sps.format.height) ∧
      (Lossless widths sps.log2Ctb ∧ Lossless heights sps.log2Ctb →
        (l.columnWidths = withRest (givenSizes widths sps.log2Ctb) sps.format.width ∧
          l.rowHeights = withRest (givenSizes heights sps.log2Ctb) sps.format.height) ∧
        (∀ width ∈ l.columnWidths, 0 < width) ∧ ∀ height ∈ l.rowHeights, 0 < height) := by
  have hwidth : sps.format.width < 2 ^ 32 := by
    have := hpair.width_bounds
    omega
  have hheight : sps.format.height < 2 ^ 32 := by
    have := hpair.height_bounds
    omega
  have hexists : (∃ l, ofParamSets sps pps = .ok l) ↔
      (keptSizes widths sps.log2Ctb).sum < sps.format.width ∧
        (keptSizes heights sps.log2Ctb).sum < sps.format.height := by
    rw [exists_layout_iff hgrid]
    constructor
    · rintro ⟨⟨ws, hs⟩, hsizes⟩
      obtain ⟨hws, hhs⟩ := (tileSizes_eq_ok_iff hspacing).1 hsizes
      exact ⟨(explicitSizes_eq_some_iff.1 hws).1, (explicitSizes_eq_some_iff.1 hhs).1⟩
    · rintro ⟨hws, hhs⟩
      exact ⟨_, (tileSizes_eq_ok_iff hspacing).2
        ⟨explicitSizes_eq_some_iff.2 ⟨hws, rfl⟩, explicitSizes_eq_some_iff.2 ⟨hhs, rfl⟩⟩⟩
  have hgivenWidths : (givenSizes widths sps.log2Ctb).sum < sps.format.width ↔ _ :=
    leavesRest_iff hwidth
  have hgivenHeights : (givenSizes heights sps.log2Ctb).sum < sps.format.height ↔ _ :=
    leavesRest_iff hheight
  refine ⟨hexists, ?_, ?_⟩
  · rw [hexists, hgivenWidths, hgivenHeights, and_and_and_comm]
  · intro l hl
    obtain ⟨hws, hhs⟩ := (tileSizes_eq_ok_iff hspacing).1 (sizes_of_ofParamSets hgrid hl)
    obtain ⟨hwsRest, hws⟩ := explicitSizes_eq_some_iff.1 hws
    obtain ⟨hhsRest, hhs⟩ := explicitSizes_eq_some_iff.1 hhs
    refine ⟨⟨hws, hhs⟩, fun ⟨hlossless, hlossless'⟩ => ?_⟩
    have hrest : LeavesRest widths sps.log2Ctb sps.format.width :=
      hgivenWidths.2 ⟨hwsRest, hlossless⟩
    have hrest' : LeavesRest heights sps.log2Ctb sps.format.height :=
      hgivenHeights.2 ⟨hhsRest, hlossless'⟩
    rw [hws, hhs, keptSizes_eq hlossless, keptSizes_eq hlossless']
    exact ⟨⟨rfl, rfl⟩, withRest_pos hrest, withRest_pos hrest'⟩

end Given

/-- A grid of four columns and three rows, all of which hold blocks. -/
theorem given_sizes_accepted_sample :
    givenSizes [9, 4, 3] Sample.sps.log2Ctb = [640, 320, 256] ∧
      givenSizes [7, 1] Sample.sps.log2Ctb = [512, 128] ∧
      ∃ l, ofParamSets Sample.sps Context.samplePps = .ok l ∧
        l.columnWidths = [640, 320, 256, 704] ∧ l.rowHeights = [512, 128, 448] := by
  have hgrid : Context.samplePps.partition.tiles =
      some ⟨3, 2, .explicit [9, 4, 3] [7, 1], false⟩ := by decide +kernel
  obtain ⟨-, hexact, hsizes⟩ := given_sizes_accepted Sample.parsedPair_given hgrid rfl
  obtain ⟨⟨l, hl⟩, hlossless⟩ := hexact.1 (by decide +kernel)
  obtain ⟨⟨hwidths, hheights⟩, -⟩ := (hsizes l hl).2 hlossless
  refine ⟨by decide +kernel, by decide +kernel, l, hl, ?_⟩
  rw [hwidths, hheights]
  decide +kernel

/-- A width of 2 ^ 26 blocks of 64 samples is a number of 33 bits. What is kept of it is zero, so there
is a layout, with a column that is empty. -/
theorem lost_size_accepted :
    ParsedPair Sample.sps Sample.lossyPps ∧
      Sample.lossyPps.partition.tiles = some ⟨1, 0, .explicit [2 ^ 26 - 1] [], false⟩ ∧
      ¬ (givenSizes [2 ^ 26 - 1] Sample.sps.log2Ctb).sum < Sample.sps.format.width ∧
      ∃ l, ofParamSets Sample.sps Sample.lossyPps = .ok l ∧ l.columnWidths = [0, 1920] := by
  have htiles : Sample.lossyPps.partition.tiles =
      some ⟨1, 0, .explicit [2 ^ 26 - 1] [], false⟩ := by decide +kernel
  have hsizes : tileSizes Sample.sps ⟨1, 0, .explicit [2 ^ 26 - 1] [], false⟩ =
      .ok ([0, 1920], [1088]) := by decide +kernel
  exact ⟨⟨⟨Sample.spsPayload, Sample.sps_read⟩, Sample.ctx, Sample.lossyPpsPayload, by decide +kernel,
    by decide +kernel⟩, htiles, by decide +kernel, _,
    ofParamSets_eq_ok_iff.2 ⟨_, _, _, htiles, hsizes, rfl⟩, rfl⟩

end TileLayout

end TiledVideo
