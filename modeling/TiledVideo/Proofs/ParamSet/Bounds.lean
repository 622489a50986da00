import TiledVideo.Proofs.ParamSet.RoundTrip
import TiledVideo.Proofs.Tiling.Sizes

/-!
# Bounds on picture parameter sets

What a reader of picture parameter sets checks, and what follows from it for the sets that it gives.

Results:

* `Pps.Bounded`: the bounds that hold for every set.
* `Pps.mergeLevel_le_iff`: the size of merge areas is checked in 32 bits, so one number passes that is
  far too large.
* `Context.bounds_of_decodePps`: every set that is read is bounded, and its merge areas are no larger than
  blocks unless they have that size.
-/

namespace TiledVideo

open Reader

/-! ## Parts -/

/-- A partition has at least one column and row, at most as many as the picture has blocks, and the
sizes that are given are those of all columns and rows but the last. -/
structure Partition.Bounded (sps : Sps) (p : Partition) : Prop where
  columns : 1 ≤ p.columns ∧ p.columns ≤ sps.widthInCtbs
  rows : 1 ≤ p.rows ∧ p.rows ≤ sps.heightInCtbs
  given : ∀ g widths heights, p.tiles = some g → g.spacing = .explicit widths heights →
    widths.length + 1 = p.columns ∧ heights.length + 1 = p.rows

theorem Partition.bounded {sps : Sps} {p : Partition} (hsps : Sps.parse.Produces sps)
    (h : (parse sps).Produces p) : p.Bounded sps := by
  have hsize := PictureFormat.bounds (Sps.produces_parts hsps).1
  cases htiles : p.tiles with
  | none =>
    refine ⟨?_, ?_, ?_⟩
    · rw [columns, htiles]
      exact ⟨Nat.le_refl 1, ctbsFor_pos hsize.1.1 sps.log2Ctb⟩
    · rw [rows, htiles]
      exact ⟨Nat.le_refl 1, ctbsFor_pos hsize.2.1 sps.log2Ctb⟩
    · intro g widths heights hg
      rw [htiles] at hg
      cases hg
  | some grid =>
    have hgrid := produces_tiles h htiles
    obtain ⟨hcolumns, hrows⟩ := (TileGrid.fits_codable_of_produces hgrid).1
    refine ⟨?_, ?_, ?_⟩
    · rw [columns, htiles]
      exact ⟨Nat.succ_pos _, hcolumns⟩
    · rw [rows, htiles]
      exact ⟨Nat.succ_pos _, hrows⟩
    · intro g widths heights hg hspacing
      obtain rfl : grid = g := Option.some.inj (htiles.symm.trans hg)
      obtain ⟨hwidths, hheights⟩ := TileGrid.counted_of_produces hgrid widths heights hspacing
      rw [columns, rows, htiles, hwidths, hheights]
      exact ⟨rfl, rfl⟩

/-- Blocks choose from one to six pairs of chroma offsets. -/
theorem ChromaQpOffsets.lengths_of_produces {c : ChromaQpOffsets} (h : parse.Produces c) :
    c.cb.length = c.cr.length ∧ 1 ≤ c.cb.length ∧ c.cb.length ≤ 6 := by
  obtain ⟨_, -, h⟩ := h.bind
  obtain ⟨lengthMinus1, -, h⟩ := h.bind
  obtain ⟨_, hle, h⟩ := h.bind
  obtain ⟨pairs, hpairs, h⟩ := h.bind
  obtain rfl := h.pure
  have hle : lengthMinus1 ≤ 5 := of_decide_eq_true hle.ensure
  have hlength := hpairs.times.1
  refine ⟨by rw [List.length_map, List.length_map], ?_, ?_⟩
  · rw [List.length_map]
    omega
  · rw [List.length_map]
    omega

/-- A range extension gives the largest blocks without transform exactly if there are such blocks, and
as many chroma offsets for one component as for the other. -/
structure PpsRangeExtension.Bounded (transformSkip : Bool) (e : PpsRangeExtension) : Prop where
  log2MaxTransformSkip : e.log2MaxTransformSkipMinus2.isSome = transformSkip
  chromaQpOffsets : ∀ c, e.chromaQpOffsets = some c →
    c.cb.length = c.cr.length ∧ 1 ≤ c.cb.length ∧ c.cb.length ≤ 6

theorem PpsRangeExtension.bounded {transformSkip : Bool} {e : PpsRangeExtension}
    (h : (parse transformSkip).Produces e) : e.Bounded transformSkip := by
  obtain ⟨log2Max, hlog2Max, h⟩ := h.bind
  obtain ⟨_, -, h⟩ := h.bind
  obtain ⟨_, -, h⟩ := h.bind
  obtain ⟨offsets, hoffsets, h⟩ := h.bind
  obtain ⟨_, -, h⟩ := h.bind
  obtain ⟨_, -, h⟩ := h.bind
  obtain rfl := h.pure
  exact ⟨hlog2Max.optional.1.symm,
    fun c hc => ChromaQpOffsets.lengths_of_produces (hoffsets.optional.2 c hc)⟩

/-! ## All together -/

namespace Pps

theorem numRefIdx_le {element : String} {v : Nat} (h : (parseNumRefIdx element).Produces v) :
    v ≤ 14 := by
  obtain ⟨v, -, h⟩ := h.bind
  obtain ⟨_, hle, h⟩ := h.bind
  obtain rfl := h.pure
  exact of_decide_eq_true hle.ensure

/-- The check of the size of merge areas is that of exact numbers but for the largest number that has a
code: two more than that is zero in 32 bits. -/
theorem mergeLevel_le_iff {sps : Sps} {v : Nat} (hctb : sps.log2Ctb ≤ 6)
    (h : (parseMergeLevel sps).Produces v) : v + 2 ≤ sps.log2Ctb ↔ v ≠ 2 ^ 32 - 2 := by
  obtain ⟨v, hv, h⟩ := h.bind
  obtain ⟨_, hle, h⟩ := h.bind
  obtain rfl := h.pure
  have hcode : v < 2 ^ 32 - 1 := hv.mapError.ue
  have hle : (v + 2) % 2 ^ 32 ≤ sps.log2Ctb := of_decide_eq_true hle.ensure
  omega

/-- The bounds on the values of a picture parameter set that goes with a sequence parameter set. -/
structure Bounded (sps : Sps) (p : Pps) : Prop where
  partition : p.partition.Bounded sps
  numRefIdxL0 : p.numRefIdxL0DefaultMinus1 ≤ 14
  numRefIdxL1 : p.numRefIdxL1DefaultMinus1 ≤ 14
  range : ∀ e, p.extensions.range = some e → e.Bounded p.transformSkip

end Pps

namespace Context

variable {c : Context} {payload : Bytes} {p : Pps}

/-- Every picture parameter set that is read is bounded. Its merge areas are no larger than blocks,
unless their size is given by the largest number that has a code. -/
theorem bounds_of_decodePps (hc : ∀ id s, c.spsById id = some s → Sps.parse.Produces s)
    (h : c.decodePps payload = .ok p) :
    ∃ sps, c.spsOf p = some sps ∧ p.Bounded sps ∧
      (p.log2ParallelMergeLevelMinus2 + 2 ≤ sps.log2Ctb ↔
        p.log2ParallelMergeLevelMinus2 ≠ 2 ^ 32 - 2) := by
  obtain ⟨sps, hsps, hpartition, ⟨_, hrefIdxL0⟩, ⟨_, hrefIdxL1⟩, hmergeLevel, hextensions⟩ :=
    Pps.produces_parts (produces_of_decode h)
  have hproduced : Sps.parse.Produces sps := hc _ _ hsps
  have hctb : sps.log2Ctb ≤ 6 := (BlockSizes.log2Ctb_bounds (Sps.produces_parts hproduced).2.1).2
  have hbounded : p.Bounded sps := by
    refine ⟨Partition.bounded hproduced hpartition, Pps.numRefIdx_le hrefIdxL0,
      Pps.numRefIdx_le hrefIdxL1, ?_⟩
    intro e he
    exact PpsRangeExtension.bounded (PpsExtensions.produces_range hextensions he)
  exact ⟨sps, hsps, hbounded, Pps.mergeLevel_le_iff hctb hmergeLevel⟩

/-- A set with a grid of sizes that are given, and with a range extension. -/
theorem bounds_of_decodePps_sample :
    samplePps.Bounded Sample.sps ∧ samplePps.log2ParallelMergeLevelMinus2 + 2 ≤ Sample.sps.log2Ctb := by
  have hdecode : Sample.ctx.decodePps samplePpsPayload = .ok samplePps := by decide +kernel
  have hknown : Sample.ctx.spsOf samplePps = some Sample.sps := by decide +kernel
  have hlevel : samplePps.log2ParallelMergeLevelMinus2 ≠ 2 ^ 32 - 2 := by decide +kernel
  obtain ⟨sps, hsps, hbounded, hmerge⟩ := bounds_of_decodePps
    (fun id s hs => (Sample.ctx_parsed.sps id s hs).2) hdecode
  obtain rfl : Sample.sps = sps := Option.some.inj (hknown.symm.trans hsps)
  exact ⟨hbounded, hmerge.2 hlevel⟩

/-- The payload of a picture parameter set whose size of merge areas is the largest number that has a
code. -/
def wrappedPpsPayload : Bytes := [192, 113, 129, 0, 0, 0, 0, 63, 255, 255, 255, 200]

/-- A picture parameter set with merge areas of a size that is zero in 32 bits. -/
def wrappedPps : Pps :=
  match Sample.ctx.decodePps wrappedPpsPayload with
  | .ok p => p
  | .error _ => default

/-- The set is accepted, though its merge areas are larger than any block. -/
theorem merge_level_wraps :
    Sample.ctx.decodePps wrappedPpsPayload = .ok wrappedPps ∧
      Sample.ctx.spsOf wrappedPps = some Sample.sps ∧
      wrappedPps.log2ParallelMergeLevelMinus2 = 2 ^ 32 - 2 ∧
      ¬ wrappedPps.log2ParallelMergeLevelMinus2 + 2 ≤ Sample.sps.log2Ctb := by
  refine ⟨?_, ?_, ?_, ?_⟩ <;> decide +kernel

end Context

end TiledVideo
