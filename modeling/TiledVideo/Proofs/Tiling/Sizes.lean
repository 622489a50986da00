import TiledVideo.Proofs.ParamSet.Pps
import TiledVideo.Proofs.ParamSet.Sps
import TiledVideo.Proofs.Tiling.Layout

/-!
# Sizes of tiles

Each tile of a picture is at least one sample wide and high and lies within the picture.

Results:

* `sum_uniformSteps`: where the columns of a uniform grid begin.
* `explicitSizes_eq_some_iff`, `leavesRest_iff`: what is kept of given sizes, and when they leave a rest.
* `mem_uniformSizes`, `mem_explicitSizes`: sizes are positive and at most that of the picture.
* `tileSize_bounds`: so are the sizes of the tiles of a grid that fits.
* `Sized.tileSize`: each tile has a size if the picture parameter set was read.
-/

namespace TiledVideo

namespace TileLayout

/-! ## Equal sizes -/

theorem length_uniformSizes {count log2Ctb total : Nat} (hcount : 0 < count) (ctbs : Nat) :
    (uniformSizes count ctbs log2Ctb total).length = count := by
  simp only [uniformSizes, List.length_append, List.length_map, List.length_range,
    List.length_singleton]
  omega

/-- The first columns of a uniform grid end where the next one begins. -/
theorem sum_uniformSteps (count ctbs size n : Nat) :
    ((List.range n).map fun i => ((i + 1) * ctbs / count - i * ctbs / count) * size).sum =
      n * ctbs / count * size := by
  induction n with
  | zero => simp
  | succ n ih =>
    have hmono : n * ctbs / count ≤ (n + 1) * ctbs / count :=
      Nat.div_le_div_right (Nat.mul_le_mul_right _ (Nat.le_succ n))
    rw [List.range_succ, List.map_append, List.sum_append, ih, List.map_singleton,
      List.sum_singleton, ← Nat.add_mul, Nat.add_sub_cancel' hmono]

/-- There is a block between any two borders of a grid with no more columns than blocks. -/
theorem uniformStep_pos {count ctbs : Nat} (hcount : 0 < count) (hle : count ≤ ctbs) (i : Nat) :
    i * ctbs / count < (i + 1) * ctbs / count := by
  calc i * ctbs / count
      < (i * ctbs + count) / count := by rw [Nat.add_div_right _ hcount]; exact Nat.lt_succ_self _
    _ ≤ (i + 1) * ctbs / count := Nat.div_le_div_right (by rw [Nat.add_mul, Nat.one_mul]; omega)

/-- The last column of a uniform grid begins inside the picture. -/
theorem lastUniform_lt (log2Ctb : Nat) {count total : Nat} (hcount : 0 < count)
    (htotal : 0 < total) :
    (count - 1) * ctbsFor total log2Ctb / count * 2 ^ log2Ctb < total := by
  have hctbs := ctbsFor_pos htotal log2Ctb
  have hlt : (count - 1) * ctbsFor total log2Ctb / count < ctbsFor total log2Ctb :=
    (Nat.div_lt_iff_lt_mul hcount).2 <| by
      rw [Nat.mul_comm]
      exact Nat.mul_lt_mul_of_pos_left (by omega) hctbs
  exact Nat.lt_of_not_le fun h => Nat.not_lt.2 (ctbsFor_le_iff.2 h) hlt

/-- None of some sizes is larger than all of them together. -/
theorem le_sum_of_mem {sizes : List Nat} {size : Nat} (h : size ∈ sizes) : size ≤ sizes.sum := by
  obtain ⟨before, behind, rfl⟩ := List.append_of_mem h
  rw [List.sum_append, List.sum_cons]
  omega

theorem mem_uniformSizes {count log2Ctb total size : Nat} (hcount : 0 < count)
    (hle : count ≤ ctbsFor total log2Ctb) (htotal : 0 < total)
    (h : size ∈ uniformSizes count (ctbsFor total log2Ctb) log2Ctb total) :
    0 < size ∧ size ≤ total := by
  have hlast := lastUniform_lt log2Ctb hcount htotal
  rw [uniformSizes, List.mem_append, List.mem_singleton] at h
  obtain h | rfl := h
  · have hsum := le_sum_of_mem h
    rw [sum_uniformSteps] at hsum
    obtain ⟨i, -, rfl⟩ := List.mem_map.1 h
    exact ⟨Nat.mul_pos (Nat.sub_pos_of_lt (uniformStep_pos hcount hle i)) (Nat.two_pow_pos _),
      by omega⟩
  · rw [sum_uniformSteps]
    omega

/-! ## Given sizes -/

section Given

variable {minus1 sizes : List Nat} {log2Ctb total size : Nat}

/-- Some sizes, and behind them the rest of `total` samples. -/
def withRest (sizes : List Nat) (total : Nat) : List Nat :=
  sizes ++ [total - sizes.sum]

theorem length_withRest (sizes : List Nat) (total : Nat) :
    (withRest sizes total).length = sizes.length + 1 := by
  simp [withRest]

theorem sum_withRest (h : sizes.sum ≤ total) : (withRest sizes total).sum = total := by
  simp only [withRest, List.sum_append, List.sum_singleton]
  omega

/-- The sizes that are given, in samples. -/
def givenSizes (minus1 : List Nat) (log2Ctb : Nat) : List Nat :=
  minus1.map fun m => (m + 1) * 2 ^ log2Ctb

/-- What 32 bits hold of the sizes that are given. -/
def keptSizes (minus1 : List Nat) (log2Ctb : Nat) : List Nat :=
  (givenSizes minus1 log2Ctb).map (· % 2 ^ 32)

theorem explicitSizes_eq_some_iff : explicitSizes minus1 log2Ctb total = some sizes ↔
    (keptSizes minus1 log2Ctb).sum < total ∧ sizes = withRest (keptSizes minus1 log2Ctb) total := by
  have hkept : keptSizes minus1 log2Ctb =
      minus1.map fun m => (m + 1) * 2 ^ log2Ctb % 2 ^ 32 := by
    simp [keptSizes, givenSizes]
  rw [explicitSizes, ← hkept]
  by_cases hlt : (keptSizes minus1 log2Ctb).sum < total
  · rw [if_pos hlt, Option.some.injEq, eq_comm]
    exact ⟨fun h => ⟨hlt, h⟩, And.right⟩
  · rw [if_neg hlt]
    constructor
    · intro h
      cases h
    · rintro ⟨hkept, -⟩
      exact absurd hkept hlt

theorem length_explicitSizes (h : explicitSizes minus1 log2Ctb total = some sizes) :
    sizes.length = minus1.length + 1 := by
  obtain ⟨-, rfl⟩ := explicitSizes_eq_some_iff.1 h
  rw [length_withRest, keptSizes, givenSizes, List.length_map, List.length_map]

/-- No bits of the sizes are lost. -/
def Lossless (minus1 : List Nat) (log2Ctb : Nat) : Prop :=
  ∀ size ∈ givenSizes minus1 log2Ctb, size < 2 ^ 32

theorem keptSizes_eq (h : Lossless minus1 log2Ctb) :
    keptSizes minus1 log2Ctb = givenSizes minus1 log2Ctb := by
  unfold keptSizes
  conv_rhs => rw [← List.map_id (givenSizes minus1 log2Ctb)]
  exact List.map_congr_left fun size hsize => Nat.mod_eq_of_lt (h size hsize)

/-- Sizes that leave a rest of the picture, even if no bits of them are lost. -/
def LeavesRest (minus1 : List Nat) (log2Ctb total : Nat) : Prop :=
  (minus1.map fun m => (m + 1) * 2 ^ log2Ctb).sum < total

/-- Sizes leave a rest of the picture exactly if what is kept of them does and nothing is lost. -/
theorem leavesRest_iff (htotal : total < 2 ^ 32) : LeavesRest minus1 log2Ctb total ↔
    (keptSizes minus1 log2Ctb).sum < total ∧ Lossless minus1 log2Ctb := by
  constructor
  · intro h
    have hlossless : Lossless minus1 log2Ctb := by
      intro size hsize
      exact Nat.lt_of_le_of_lt (le_sum_of_mem hsize) (Nat.lt_trans h htotal)
    rw [keptSizes_eq hlossless]
    exact ⟨h, hlossless⟩
  · rintro ⟨hkept, hlossless⟩
    rw [keptSizes_eq hlossless] at hkept
    exact hkept

/-- Sizes that leave a rest are positive, and so is the rest. -/
theorem withRest_pos (h : LeavesRest minus1 log2Ctb total) :
    ∀ size ∈ withRest (givenSizes minus1 log2Ctb) total, 0 < size := by
  intro size hsize
  unfold withRest at hsize
  obtain hsize | hsize := List.mem_append.1 hsize
  · obtain ⟨m, -, rfl⟩ := List.mem_map.1 hsize
    exact Nat.mul_pos (Nat.succ_pos m) (Nat.two_pow_pos log2Ctb)
  · obtain rfl := List.mem_singleton.1 hsize
    exact Nat.sub_pos_of_lt h

theorem mem_explicitSizes (hrest : LeavesRest minus1 log2Ctb total) (htotal : total < 2 ^ 32)
    (hsizes : explicitSizes minus1 log2Ctb total = some sizes) (h : size ∈ sizes) :
    0 < size ∧ size ≤ total := by
  obtain ⟨hlt, rfl⟩ := explicitSizes_eq_some_iff.1 hsizes
  have hle := le_sum_of_mem h
  rw [sum_withRest (Nat.le_of_lt hlt)] at hle
  rw [keptSizes_eq ((leavesRest_iff htotal).1 hrest).2] at h
  exact ⟨withRest_pos hrest size h, hle⟩

end Given

end TileLayout

/-! ## Tiles of a grid -/

/-- The sizes that are given for a grid leave a rest of the picture in both directions. -/
def TileGrid.LeavesRest (sps : Sps) (g : TileGrid) : Prop :=
  match g.spacing with
  | .uniform => True
  | .explicit widths heights =>
    TileLayout.LeavesRest widths sps.log2Ctb sps.format.width ∧
      TileLayout.LeavesRest heights sps.log2Ctb sps.format.height

instance (minus1 : List Nat) (log2Ctb total : Nat) :
    Decidable (TileLayout.LeavesRest minus1 log2Ctb total) :=
  inferInstanceAs (Decidable (_ < _))

instance (sps : Sps) (g : TileGrid) : Decidable (g.LeavesRest sps) :=
  match h : g.spacing with
  | .uniform => .isTrue (by rw [TileGrid.LeavesRest, h]; trivial)
  | .explicit widths heights =>
    decidable_of_iff (TileLayout.LeavesRest widths sps.log2Ctb sps.format.width ∧
      TileLayout.LeavesRest heights sps.log2Ctb sps.format.height)
      (by rw [TileGrid.LeavesRest, h])

namespace TileLayout

variable {sps : Sps} {pps : Pps} {l : TileLayout}

/-- Sizes are worked out for columns first, and then for rows. -/
theorem tileSizes_eq_ok_iff {grid : TileGrid} {widths heights columnWidths rowHeights : List Nat}
    (hspacing : grid.spacing = .explicit widths heights) :
    tileSizes sps grid = .ok (columnWidths, rowHeights) ↔
      explicitSizes widths sps.log2Ctb sps.format.width = some columnWidths ∧
        explicitSizes heights sps.log2Ctb sps.format.height = some rowHeights := by
  simp only [tileSizes, hspacing]
  cases explicitSizes widths sps.log2Ctb sps.format.width with
  | none => simp
  | some ws =>
    cases explicitSizes heights sps.log2Ctb sps.format.height with
    | none => simp
    | some hs => simp

theorem mem_tileSizes {grid : TileGrid} {widths heights : List Nat} (hsps : Sps.parse.Produces sps)
    (hfits : grid.Fits sps) (hrest : grid.LeavesRest sps)
    (h : tileSizes sps grid = .ok (widths, heights)) :
    (∀ w ∈ widths, 0 < w ∧ w ≤ sps.format.width) ∧
      ∀ h ∈ heights, 0 < h ∧ h ≤ sps.format.height := by
  obtain ⟨⟨hwidth, hwidthLe⟩, hheight, hheightLe⟩ :=
    PictureFormat.bounds (Sps.produces_parts hsps).1
  have hmax : PictureFormat.maxDimension < 2 ^ 32 := by decide
  cases hspacing : grid.spacing with
  | uniform =>
    rw [tileSizes, hspacing] at h
    cases h
    exact ⟨fun w hw => mem_uniformSizes (Nat.succ_pos _) hfits.1 hwidth hw,
      fun h hh => mem_uniformSizes (Nat.succ_pos _) hfits.2 hheight hh⟩
  | explicit widthsMinus1 heightsMinus1 =>
    rw [TileGrid.LeavesRest, hspacing] at hrest
    obtain ⟨hw, hh⟩ := (tileSizes_eq_ok_iff hspacing).1 h
    exact ⟨fun w => mem_explicitSizes hrest.1 (by omega) hw,
      fun h => mem_explicitSizes hrest.2 (by omega) hh⟩

/-- Tiles of a grid that fits are not empty and no larger than the picture. -/
theorem tileSize_bounds (hsps : Sps.parse.Produces sps) {grid : TileGrid}
    (hgrid : pps.partition.tiles = some grid) (hfits : grid.Fits sps)
    (hrest : grid.LeavesRest sps) (hl : ofParamSets sps pps = .ok l) {tile width height : Nat}
    (h : l.tileSize tile = some (width, height)) :
    (0 < width ∧ width ≤ sps.format.width) ∧ 0 < height ∧ height ≤ sps.format.height := by
  obtain ⟨grid', widths, heights, hgrid', hsizes, rfl⟩ := ofParamSets_eq_ok_iff.1 hl
  obtain rfl : grid = grid' := Option.some.inj (hgrid.symm.trans hgrid')
  obtain ⟨hwidths, hheights⟩ := mem_tileSizes hsps hfits hrest hsizes
  simp only [tileSize, Option.bind_eq_bind, Option.bind_eq_some_iff, Option.pure_def,
    Option.some.injEq, Prod.mk.injEq] at h
  obtain ⟨w, hw, h, hh, rfl, rfl⟩ := h
  exact ⟨hwidths w (List.mem_of_getElem? hw), hheights h (List.mem_of_getElem? hh)⟩

end TileLayout

/-! ## Sizes for all tiles -/

/-- Sizes are given for all columns and rows but the last ones, or for none. -/
def TileGrid.Counted (g : TileGrid) : Prop :=
  ∀ widths heights, g.spacing = .explicit widths heights →
    widths.length = g.columnsMinus1 ∧ heights.length = g.rowsMinus1

/-- So it is for the grid of a picture parameter set. -/
def Pps.Counted (p : Pps) : Prop :=
  ∀ g, p.partition.tiles = some g → g.Counted

theorem TileSpacing.counted_of_produces {columnsMinus1 rowsMinus1 : Nat} {widths heights : List Nat}
    (h : (parse columnsMinus1 rowsMinus1).Produces (.explicit widths heights)) :
    widths.length = columnsMinus1 ∧ heights.length = rowsMinus1 := by
  obtain ⟨isUniform, -, h⟩ := h.bind
  cases isUniform with
  | true => cases h.pure
  | false =>
    obtain ⟨widths', hwidths, h⟩ := h.bind
    obtain ⟨heights', hheights, h⟩ := h.bind
    cases h.pure
    exact ⟨hwidths.times.1, hheights.times.1⟩

theorem TileGrid.counted_of_produces {sps : Sps} {g : TileGrid} (h : (parse sps).Produces g) :
    g.Counted := by
  obtain ⟨columns, -, h⟩ := h.bind
  obtain ⟨_, -, h⟩ := h.bind
  obtain ⟨rows, -, h⟩ := h.bind
  obtain ⟨_, -, h⟩ := h.bind
  obtain ⟨spacing, hspacing, h⟩ := h.bind
  obtain ⟨loopFilter, -, h⟩ := h.bind
  obtain rfl := h.pure
  rintro widths heights rfl
  exact TileSpacing.counted_of_produces hspacing.mapError

theorem Pps.counted_of_produces {known : SpsId → Option Sps} {p : Pps}
    (h : (parse known).Produces p) : p.Counted := by
  obtain ⟨sps, -, hpartition⟩ := known_of_produces h
  exact fun g hg => TileGrid.counted_of_produces (Partition.produces_tiles hpartition hg)

namespace TileLayout

variable {sps : Sps} {pps : Pps} {l : TileLayout}

/-- There is a width for each column and a height for each row. -/
structure Sized (l : TileLayout) : Prop where
  widths : l.columnWidths.length = l.columns
  heights : l.rowHeights.length = l.rows

theorem sized_of_ofParamSets (hcounted : pps.Counted) (h : ofParamSets sps pps = .ok l) :
    l.Sized := by
  obtain ⟨grid, widths, heights, hgrid, hsizes, rfl⟩ := ofParamSets_eq_ok_iff.1 h
  cases hspacing : grid.spacing with
  | uniform =>
    rw [tileSizes, hspacing] at hsizes
    cases hsizes
    exact ⟨length_uniformSizes (Nat.succ_pos _) _, length_uniformSizes (Nat.succ_pos _) _⟩
  | explicit widthsMinus1 heightsMinus1 =>
    obtain ⟨hcolumns, hrows⟩ := hcounted grid hgrid _ _ hspacing
    obtain ⟨hwidths, hheights⟩ := (tileSizes_eq_ok_iff hspacing).1 hsizes
    exact ⟨by rw [length_explicitSizes hwidths, hcolumns],
      by rw [length_explicitSizes hheights, hrows]⟩

theorem Sized.tileSize (h : l.Sized) {tile : Nat} (hlt : tile < l.tileCount) :
    ∃ width height, l.tileSize tile = some (width, height) := by
  have hcolumns : 0 < l.columns := by
    refine Nat.pos_of_ne_zero fun hzero => ?_
    rw [tileCount, hzero, Nat.zero_mul] at hlt
    omega
  have hwidth : tile % l.columns < l.columnWidths.length := by
    rw [h.widths]
    exact Nat.mod_lt _ hcolumns
  have hheight : tile / l.columns < l.rowHeights.length := by
    rw [h.heights]
    exact Nat.div_lt_of_lt_mul hlt
  refine ⟨l.columnWidths[tile % l.columns], l.rowHeights[tile / l.columns], ?_⟩
  simp only [TileLayout.tileSize, List.getElem?_eq_getElem hwidth, List.getElem?_eq_getElem hheight]
  rfl

end TileLayout

namespace LayoutTable

variable {t t' : LayoutTable} {sps : Sps} {pps : Pps} {l : TileLayout}

/-- Each layout in a table has sizes for all its tiles. -/
def Sized (t : LayoutTable) : Prop :=
  ∀ id l, t.get? id = some l → l.Sized

theorem sized_empty : empty.Sized := by
  intro id l h
  simp [get?, empty] at h

/-- A layout that a table gives has sizes for all its tiles. -/
theorem Sized.resolve (ht : t.Sized) (hcounted : pps.Counted) (h : t.resolve sps pps = .ok (l, t')) :
    t'.Sized ∧ l.Sized := by
  have ht' : t'.Sized := by
    obtain ⟨-, -, rfl⟩ | ⟨-, hl, rfl⟩ := resolve_eq_ok_iff_held_or_new.1 h
    · exact ht
    · intro id held hheld
      rw [get?_insert] at hheld
      split at hheld
      · cases hheld
        exact TileLayout.sized_of_ofParamSets hcounted hl
      · exact ht id held hheld
  exact ⟨ht', ht' pps.id l (resolve_eq_ok h)⟩

end LayoutTable

end TiledVideo
