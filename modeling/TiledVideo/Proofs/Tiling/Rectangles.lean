import Mathlib.Algebra.BigOperators.Ring.List
import Mathlib.Algebra.Ring.Nat
import Mathlib.Data.List.Sort
import TiledVideo.Proofs.Tiling.Borders
import TiledVideo.Proofs.Tiling.GivenSizes

/-!
# Tiles are rectangles

Whichever way its sizes are given, a layout divides the blocks of the picture into rectangles. Each tile
has one, of as many blocks as cover its samples.

Results:

* `divides_of_ofParamSets`: all columns and rows but the last ones are whole blocks.
* `LaidOut.tileIndex_eq_some_iff`: the blocks of a tile.
* `LaidOut.blocksOf_eq`: in order, they are those of a rectangle.
* `partitioned`: what the layout of any parameter sets is like.
-/

namespace TiledVideo

/-! ## Rectangles of blocks -/

/-- A rectangle of blocks in a picture. -/
structure CtbRect where
  left : Nat
  top : Nat
  width : Nat
  height : Nat
  deriving DecidableEq, Repr

namespace CtbRect

variable {r : CtbRect} {across down address : Nat}

/-- It is inside a picture of `across` by `down` blocks. -/
structure Inside (r : CtbRect) (across down : Nat) : Prop where
  right : r.left + r.width ≤ across
  bottom : r.top + r.height ≤ down

/-- The addresses of its blocks, row by row. -/
def addresses (r : CtbRect) (across : Nat) : List Nat :=
  (List.range r.height).flatMap fun row =>
    (List.range r.width).map fun column => (r.top + row) * across + (r.left + column)

theorem length_addresses (r : CtbRect) (across : Nat) :
    (r.addresses across).length = r.width * r.height := by
  simp only [addresses, List.length_flatMap, List.length_map, List.length_range, List.map_const',
    List.sum_replicate_nat, Nat.mul_comm]

theorem mem_addresses (h : r.Inside across down) : address ∈ r.addresses across ↔
    (r.left ≤ address % across ∧ address % across < r.left + r.width) ∧
      r.top ≤ address / across ∧ address / across < r.top + r.height := by
  have hright := h.right
  simp only [addresses, List.mem_flatMap, List.mem_map, List.mem_range]
  constructor
  · rintro ⟨row, hrow, column, hcolumn, rfl⟩
    have hlt : r.left + column < across := by omega
    rw [Nat.mul_add_mod_of_lt hlt, Nat.mul_comm, Nat.mul_add_div (by omega), Nat.div_eq_of_lt hlt]
    omega
  · rintro ⟨⟨hleft, hcolumn⟩, htop, hrow⟩
    refine ⟨address / across - r.top, by omega, address % across - r.left, by omega, ?_⟩
    rw [Nat.add_sub_cancel' hleft, Nat.add_sub_cancel' htop, Nat.div_add_mod']

theorem pairwise_addresses (h : r.Inside across down) : (r.addresses across).Pairwise (· < ·) := by
  have hright := h.right
  refine List.pairwise_flatMap.2 ⟨fun row _ => ?_, ?_⟩
  · exact List.pairwise_map.2 (List.pairwise_lt_range.imp fun hlt => by omega)
  · refine List.pairwise_lt_range.imp fun {row row'} hlt => ?_
    simp only [List.mem_map, List.mem_range]
    rintro _ ⟨column, hcolumn, rfl⟩ _ ⟨column', hcolumn', rfl⟩
    have hnext : (r.top + row) * across + across ≤ (r.top + row') * across := by
      rw [← Nat.succ_mul]
      exact Nat.mul_le_mul_right _ (by omega)
    omega

end CtbRect

namespace TileLayout

/-! ## Whole blocks and a rest -/

variable {log2Ctb total i x : Nat} {sizes minus1 tileOf : List Nat}

/-- All sizes but the last one are of whole blocks, and they leave it a rest of `total` samples. -/
def Divides (sizes : List Nat) (log2Ctb total : Nat) : Prop :=
  ∃ blocks : List Nat, (blocks.map (· * 2 ^ log2Ctb)).sum < total ∧
    sizes = withRest (blocks.map (· * 2 ^ log2Ctb)) total

namespace Divides

theorem sum (h : Divides sizes log2Ctb total) : sizes.sum = total := by
  obtain ⟨blocks, hrest, rfl⟩ := h
  exact sum_withRest (Nat.le_of_lt hrest)

/-- The tiles have as many blocks as the picture. -/
theorem sum_ctbs (h : Divides sizes log2Ctb total) :
    (sizes.map (ctbsFor · log2Ctb)).sum = ctbsFor total log2Ctb := by
  obtain ⟨blocks, hrest, rfl⟩ := h
  have hwhole : (blocks.map (· * 2 ^ log2Ctb)).sum = blocks.sum * 2 ^ log2Ctb := by
    rw [List.sum_map_mul_right blocks (fun n => n), List.map_id']
  have htotal : total = blocks.sum * 2 ^ log2Ctb + (total - blocks.sum * 2 ^ log2Ctb) := by omega
  rw [hwhole] at hrest
  rw [withRest, List.map_append, List.sum_append, hwhole, List.map_map]
  simp only [Function.comp_def, ctbsFor_mul_two_pow, List.map_id', List.map_cons, List.map_nil,
    List.sum_singleton]
  conv_rhs => rw [htotal, ctbsFor_add]

theorem length_pos (h : Divides sizes log2Ctb total) : 0 < sizes.length := by
  obtain ⟨blocks, -, rfl⟩ := h
  rw [length_withRest]
  exact Nat.succ_pos _

/-- There are blocks left for the last tile. -/
theorem tileStart_last_lt (h : Divides sizes log2Ctb total) :
    tileStart log2Ctb sizes (sizes.length - 1) < ctbsFor total log2Ctb := by
  have hsum := h.sum_ctbs
  obtain ⟨blocks, hrest, rfl⟩ := h
  have hlast : (withRest (blocks.map (· * 2 ^ log2Ctb)) total)[blocks.length]? =
      some (total - (blocks.map (· * 2 ^ log2Ctb)).sum) := by
    simp [withRest]
  have hstop : tileStart log2Ctb (withRest (blocks.map (· * 2 ^ log2Ctb)) total)
      (blocks.length + 1) = _ := tileStart_succ hlast
  rw [length_withRest, List.length_map, Nat.add_sub_cancel, ← hsum,
    ← tileStart_of_length_le (Nat.le_refl _), length_withRest, List.length_map, hstop]
  exact Nat.lt_add_of_pos_right (ctbsFor_pos (Nat.sub_pos_of_lt hrest) log2Ctb)

end Divides

theorem divides_uniformSizes {count : Nat} (hcount : 0 < count) (htotal : 0 < total) :
    Divides (uniformSizes count (ctbsFor total log2Ctb) log2Ctb total) log2Ctb total := by
  refine ⟨(List.range (count - 1)).map fun i =>
    (i + 1) * ctbsFor total log2Ctb / count - i * ctbsFor total log2Ctb / count, ?_, ?_⟩
  · rw [List.map_map]
    simp only [Function.comp_def, sum_uniformSteps]
    exact lastUniform_lt log2Ctb hcount htotal
  · rw [List.map_map]
    rfl

/-- What 32 bits hold of a number of whole blocks is a number of whole blocks. -/
theorem divides_explicitSizes (hlog2 : log2Ctb ≤ 32)
    (h : explicitSizes minus1 log2Ctb total = some sizes) : Divides sizes log2Ctb total := by
  obtain ⟨hrest, rfl⟩ := explicitSizes_eq_some_iff.1 h
  have hblocks : keptSizes minus1 log2Ctb =
      (minus1.map fun m => (m + 1) % 2 ^ (32 - log2Ctb)).map (· * 2 ^ log2Ctb) := by
    have hpow : 2 ^ 32 = 2 ^ (32 - log2Ctb) * 2 ^ log2Ctb := by
      rw [← Nat.pow_add, Nat.sub_add_cancel hlog2]
    rw [keptSizes, givenSizes, List.map_map, List.map_map]
    simp only [Function.comp_def, hpow, Nat.mul_mod_mul_right]
  rw [hblocks] at hrest ⊢
  exact ⟨_, hrest, rfl⟩

variable {sps : Sps} {pps : Pps} {l : TileLayout} {tile address : Nat}

theorem divides_of_ofParamSets (hpair : ParsedPair sps pps) (hl : ofParamSets sps pps = .ok l) :
    Divides l.columnWidths sps.log2Ctb sps.format.width ∧
      Divides l.rowHeights sps.log2Ctb sps.format.height := by
  obtain ⟨grid, widths, heights, -, hsizes, rfl⟩ := ofParamSets_eq_ok_iff.1 hl
  have hlog2 := hpair.log2Ctb_le
  cases hspacing : grid.spacing with
  | uniform =>
    rw [tileSizes, hspacing] at hsizes
    cases hsizes
    exact ⟨divides_uniformSizes (Nat.succ_pos _) hpair.width_bounds.1,
      divides_uniformSizes (Nat.succ_pos _) hpair.height_bounds.1⟩
  | explicit widthsMinus1 heightsMinus1 =>
    obtain ⟨hwidths, hheights⟩ := (tileSizes_eq_ok_iff hspacing).1 hsizes
    exact ⟨divides_explicitSizes (by omega) hwidths, divides_explicitSizes (by omega) hheights⟩

/-! ## Columns and rows -/

/-- The sizes of columns or rows, and the one that each block across or down the picture is in. -/
structure Along (sizes tileOf : List Nat) (log2Ctb count total : Nat) : Prop where
  length : sizes.length = count
  divides : Divides sizes log2Ctb total
  tileOf_eq : tileOf = tileOfCtb sizes (ctbsFor total log2Ctb) log2Ctb

namespace Along

variable {count : Nat}

theorem tileOf_eq_some_iff (h : Along sizes tileOf log2Ctb count total) : tileOf[x]? = some i ↔
    tileStart log2Ctb sizes i ≤ x ∧ x < tileStart log2Ctb sizes (i + 1) := by
  rw [h.tileOf_eq]
  exact tileOfCtb_eq_some_iff h.divides.sum_ctbs

theorem length_tileOf (h : Along sizes tileOf log2Ctb count total) :
    tileOf.length = ctbsFor total log2Ctb := by
  rw [h.tileOf_eq, length_tileOfCtb]

theorem tileStart_count (h : Along sizes tileOf log2Ctb count total) :
    tileStart log2Ctb sizes count = ctbsFor total log2Ctb := by
  rw [tileStart_of_length_le (Nat.le_of_eq h.length), h.divides.sum_ctbs]

theorem tileStart_le (h : Along sizes tileOf log2Ctb count total) (hi : i ≤ count) :
    tileStart log2Ctb sizes i ≤ ctbsFor total log2Ctb := by
  rw [← h.tileStart_count]
  exact tileStart_mono log2Ctb sizes hi

theorem lt_count (h : Along sizes tileOf log2Ctb count total) (hx : tileOf[x]? = some i) :
    i < count := by
  obtain ⟨hstart, hstop⟩ := h.tileOf_eq_some_iff.1 hx
  by_contra hi
  rw [tileStart_of_length_le (by rw [h.length]; omega)] at hstart hstop
  omega

/-- Each block is in a tile. -/
theorem exists_tile (h : Along sizes tileOf log2Ctb count total) (hx : x < ctbsFor total log2Ctb) :
    ∃ i, tileOf[x]? = some i := by
  rw [← h.length_tileOf] at hx
  exact ⟨_, List.getElem?_eq_getElem hx⟩

theorem size_eq_some (h : Along sizes tileOf log2Ctb count total) (hi : i < count) :
    ∃ size, sizes[i]? = some size := by
  rw [← h.length] at hi
  exact ⟨_, List.getElem?_eq_getElem hi⟩

end Along

/-- The sizes add up to those of the picture, and the blocks are in the tiles in order, up to the last
one. -/
structure Covers (sizes tileOf : List Nat) (count ctbs total : Nat) : Prop where
  sum : sizes.sum = total
  length : tileOf.length = ctbs
  ordered : tileOf.Pairwise (· ≤ ·)
  last : tileOf.getLast? = some (count - 1)

theorem Along.covers {count : Nat} (h : Along sizes tileOf log2Ctb count total) :
    Covers sizes tileOf count (ctbsFor total log2Ctb) total where
  sum := h.divides.sum
  length := h.length_tileOf
  ordered := by
    rw [h.tileOf_eq]
    exact pairwise_tileOfCtb _ _ _
  last := by
    have hstart := h.divides.tileStart_last_lt
    have hpos := h.divides.length_pos
    rw [h.length] at hstart hpos
    rw [List.getLast?_eq_getElem?, h.length_tileOf, h.tileOf_eq_some_iff, Nat.sub_add_cancel hpos,
      h.tileStart_count]
    omega

/-! ## Tiles -/

/-- A layout of columns and rows of whole blocks, but for the last ones. -/
structure LaidOut (l : TileLayout) : Prop where
  columns : Along l.columnWidths l.columnOf l.log2Ctb l.columns l.width
  rows : Along l.rowHeights l.rowOf l.log2Ctb l.rows l.height
  across : l.widthInCtbs = ctbsFor l.width l.log2Ctb
  down : l.heightInCtbs = ctbsFor l.height l.log2Ctb

theorem laidOut_of_ofParamSets (hpair : ParsedPair sps pps) (hl : ofParamSets sps pps = .ok l) :
    l.LaidOut := by
  have hcounted : pps.Counted := fun _ hg => (hpair.grid hg).2
  have hsized := sized_of_ofParamSets hcounted hl
  have hdivides := divides_of_ofParamSets hpair hl
  obtain ⟨grid, widths, heights, -, -, rfl⟩ := ofParamSets_eq_ok_iff.1 hl
  exact ⟨⟨hsized.widths, hdivides.1, rfl⟩, ⟨hsized.heights, hdivides.2, rfl⟩, rfl, rfl⟩

/-- The addresses of the blocks of a tile. -/
def blocksOf (l : TileLayout) (tile : Nat) : List Nat :=
  (List.range (l.widthInCtbs * l.heightInCtbs)).filter fun address => l.tileIndex address = some tile

/-- The rectangle of blocks behind the begin of a tile and before the next ones. -/
def rectOf (l : TileLayout) (tile : Nat) : CtbRect where
  left := tileStart l.log2Ctb l.columnWidths (tile % l.columns)
  top := tileStart l.log2Ctb l.rowHeights (tile / l.columns)
  width := tileStart l.log2Ctb l.columnWidths (tile % l.columns + 1) -
    tileStart l.log2Ctb l.columnWidths (tile % l.columns)
  height := tileStart l.log2Ctb l.rowHeights (tile / l.columns + 1) -
    tileStart l.log2Ctb l.rowHeights (tile / l.columns)

namespace LaidOut

theorem tileIndex_eq_some_iff (h : l.LaidOut) : l.tileIndex address = some tile ↔
    tile < l.tileCount ∧ l.columnOf[address % l.widthInCtbs]? = some (tile % l.columns) ∧
      l.rowOf[address / l.widthInCtbs]? = some (tile / l.columns) := by
  rw [TileLayout.tileIndex_eq_some_iff]
  constructor
  · rintro ⟨-, column, row, hcolumn, hrow, rfl, hlt⟩
    have hlt' := h.columns.lt_count hcolumn
    have hmod : (column + l.columns * row) % l.columns = column := by
      rw [Nat.add_mul_mod_self_left, Nat.mod_eq_of_lt hlt']
    have hdiv : (column + l.columns * row) / l.columns = row := by
      rw [Nat.add_mul_div_left _ _ (by omega), Nat.div_eq_of_lt hlt', Nat.zero_add]
    rw [hmod, hdiv]
    exact ⟨hlt, hcolumn, hrow⟩
  · rintro ⟨hlt, hcolumn, hrow⟩
    refine ⟨fun hzero => ?_, _, _, hcolumn, hrow, (Nat.mod_add_div tile l.columns).symm, hlt⟩
    have hlength := (List.getElem?_eq_some_iff.1 hcolumn).1
    rw [h.columns.length_tileOf, ← h.across, hzero] at hlength
    omega

theorem across_pos (h : l.LaidOut) : 0 < l.widthInCtbs := by
  rw [h.across]
  exact Nat.lt_of_le_of_lt (Nat.zero_le _) h.columns.divides.tileStart_last_lt

/-- Each block of the picture is in a tile. -/
theorem exists_tile (h : l.LaidOut) (hlt : address < l.widthInCtbs * l.heightInCtbs) :
    ∃ tile, tile < l.tileCount ∧ l.tileIndex address = some tile := by
  have hcolumn := Nat.mod_lt address h.across_pos
  have hrow := Nat.div_lt_of_lt_mul hlt
  rw [h.across] at hcolumn
  rw [h.down] at hrow
  obtain ⟨column, hcolumn⟩ := h.columns.exists_tile hcolumn
  obtain ⟨row, hrow⟩ := h.rows.exists_tile hrow
  rw [← h.across] at hcolumn
  have hlt : column + l.columns * row < l.tileCount :=
    Nat.add_mul_lt_mul_of_lt_of_lt (h.columns.lt_count hcolumn) (h.rows.lt_count hrow)
  exact ⟨_, hlt, TileLayout.tileIndex_eq_some_iff.2
    ⟨Nat.ne_of_gt h.across_pos, column, row, hcolumn, hrow, rfl, hlt⟩⟩

/-- Blocks behind the picture are in no tile. -/
theorem tileIndex_eq_none (h : l.LaidOut) (hle : l.widthInCtbs * l.heightInCtbs ≤ address) :
    l.tileIndex address = none := by
  refine Option.eq_none_iff_forall_ne_some.2 fun tile hsome => ?_
  obtain ⟨-, -, hrow⟩ := h.tileIndex_eq_some_iff.1 hsome
  have hrow := (List.getElem?_eq_some_iff.1 hrow).1
  rw [h.rows.length_tileOf, ← h.down, Nat.div_lt_iff_lt_mul h.across_pos, Nat.mul_comm] at hrow
  omega

/-- The rectangle of a tile is inside the picture and has as many blocks as cover the tile. -/
theorem rectOf_spec (h : l.LaidOut) (htile : tile < l.tileCount) :
    (l.rectOf tile).Inside l.widthInCtbs l.heightInCtbs ∧
      ∃ width height, l.tileSize tile = some (width, height) ∧
        (l.rectOf tile).width = ctbsFor width l.log2Ctb ∧
        (l.rectOf tile).height = ctbsFor height l.log2Ctb := by
  have hcolumn : tile % l.columns < l.columns :=
    Nat.mod_lt _ (Nat.pos_of_ne_zero fun hzero => by simp [tileCount, hzero] at htile)
  have hrow : tile / l.columns < l.rows := Nat.div_lt_of_lt_mul htile
  obtain ⟨width, hwidth⟩ := h.columns.size_eq_some hcolumn
  obtain ⟨height, hheight⟩ := h.rows.size_eq_some hrow
  have hright := h.columns.tileStart_le hcolumn
  have hbottom := h.rows.tileStart_le hrow
  rw [Nat.succ_eq_add_one, tileStart_succ hwidth, ← h.across] at hright
  rw [Nat.succ_eq_add_one, tileStart_succ hheight, ← h.down] at hbottom
  have hrectWidth : (l.rectOf tile).width = ctbsFor width l.log2Ctb := by
    rw [rectOf, tileStart_succ hwidth, Nat.add_sub_cancel_left]
  have hrectHeight : (l.rectOf tile).height = ctbsFor height l.log2Ctb := by
    rw [rectOf, tileStart_succ hheight, Nat.add_sub_cancel_left]
  refine ⟨⟨?_, ?_⟩, width, height, ?_, hrectWidth, hrectHeight⟩
  · rw [hrectWidth]
    exact hright
  · rw [hrectHeight]
    exact hbottom
  · simp only [tileSize, hwidth, hheight]
    rfl

/-- The blocks of a tile are those of its rectangle, in the same order. -/
theorem blocksOf_eq (h : l.LaidOut) (htile : tile < l.tileCount) :
    l.blocksOf tile = (l.rectOf tile).addresses l.widthInCtbs := by
  obtain ⟨hinside, -⟩ := h.rectOf_spec htile
  have hright : (l.rectOf tile).left + (l.rectOf tile).width =
      tileStart l.log2Ctb l.columnWidths (tile % l.columns + 1) :=
    Nat.add_sub_cancel' (tileStart_mono _ _ (Nat.le_succ _))
  have hbottom : (l.rectOf tile).top + (l.rectOf tile).height =
      tileStart l.log2Ctb l.rowHeights (tile / l.columns + 1) :=
    Nat.add_sub_cancel' (tileStart_mono _ _ (Nat.le_succ _))
  refine List.Pairwise.eq_of_mem_iff (r := (· < ·)) (List.pairwise_lt_range.filter _)
    (CtbRect.pairwise_addresses hinside) fun address => ?_
  rw [CtbRect.mem_addresses hinside, hright, hbottom, blocksOf, List.mem_filter, decide_eq_true_eq,
    List.mem_range, h.tileIndex_eq_some_iff, h.columns.tileOf_eq_some_iff, h.rows.tileOf_eq_some_iff]
  constructor
  · rintro ⟨-, -, hplace⟩
    exact hplace
  · intro hplace
    refine ⟨?_, htile, hplace⟩
    have hdown := hinside.bottom
    have hlt : address / l.widthInCtbs < l.heightInCtbs := by omega
    rwa [Nat.div_lt_iff_lt_mul h.across_pos, Nat.mul_comm] at hlt

end LaidOut

/-- A layout divides a picture into rectangles. The sizes of the columns and rows add up to those of the
picture, and the blocks across and down the picture are in them in order. A block is in a tile exactly if
it is in the picture, and the blocks of a tile are those of a rectangle, row by row, of as many blocks
as cover the width and the height of the tile. So a picture of the size of the tile has the same number
of blocks. -/
theorem partitioned (hpair : ParsedPair sps pps) (hl : ofParamSets sps pps = .ok l) :
    Covers l.columnWidths l.columnOf l.columns sps.widthInCtbs sps.format.width ∧
      Covers l.rowHeights l.rowOf l.rows sps.heightInCtbs sps.format.height ∧
      (∀ address < sps.sizeInCtbs, ∃ tile, tile < l.tileCount ∧ l.tileIndex address = some tile) ∧
      (∀ address, sps.sizeInCtbs ≤ address → l.tileIndex address = none) ∧
      ∀ tile < l.tileCount, ∃ width height, ∃ rect : CtbRect,
        l.tileSize tile = some (width, height) ∧
        rect.width = ctbsFor width sps.log2Ctb ∧ rect.height = ctbsFor height sps.log2Ctb ∧
        rect.Inside sps.widthInCtbs sps.heightInCtbs ∧
        l.blocksOf tile = rect.addresses sps.widthInCtbs ∧
        (sps.resized width height).sizeInCtbs = (l.blocksOf tile).length := by
  have h := laidOut_of_ofParamSets hpair hl
  obtain ⟨grid, widths, heights, -, -, rfl⟩ := ofParamSets_eq_ok_iff.1 hl
  refine ⟨h.columns.covers, h.rows.covers, fun address => h.exists_tile,
    fun address => h.tileIndex_eq_none, fun tile htile => ?_⟩
  obtain ⟨hinside, width, height, hsize, hwidth, hheight⟩ := h.rectOf_spec htile
  have hblocks := h.blocksOf_eq htile
  refine ⟨width, height, _, hsize, hwidth, hheight, hinside, hblocks, ?_⟩
  rw [hblocks, CtbRect.length_addresses, hwidth, hheight]
  rfl

/-- A grid of four columns and three rows in a picture of 30 by 17 blocks. The sixth tile has two rows
of five blocks. -/
theorem partitioned_sample :
    ∃ l, ofParamSets Sample.sps Context.samplePps = .ok l ∧ l.tileSize 5 = some (320, 128) ∧
      (l.blocksOf 5).length = 10 ∧ Covers l.columnWidths l.columnOf 4 30 1920 ∧
      Covers l.rowHeights l.rowOf 3 17 1088 ∧ l.tileIndex 510 = none := by
  have hgrid : Context.samplePps.partition.tiles =
      some ⟨3, 2, .explicit [9, 4, 3] [7, 1], false⟩ := by decide +kernel
  have hsizes : tileSizes Sample.sps ⟨3, 2, .explicit [9, 4, 3] [7, 1], false⟩ =
      .ok ([640, 320, 256, 704], [512, 128, 448]) := by decide +kernel
  obtain ⟨l, hl, hcolumnCount, hrowCount, hsize⟩ : ∃ l,
      ofParamSets Sample.sps Context.samplePps = .ok l ∧ l.columns = 4 ∧ l.rows = 3 ∧
        l.tileSize 5 = some (320, 128) :=
    ⟨_, ofParamSets_eq_ok_iff.2 ⟨_, _, _, hgrid, hsizes, rfl⟩, rfl, rfl, rfl⟩
  have hacross : Sample.sps.widthInCtbs = 30 := by decide +kernel
  have hdown : Sample.sps.heightInCtbs = 17 := by decide +kernel
  have hwidth : Sample.sps.format.width = 1920 := by decide +kernel
  have hheight : Sample.sps.format.height = 1088 := by decide +kernel
  have hblocks : (Sample.sps.resized 320 128).sizeInCtbs = 10 := by decide +kernel
  obtain ⟨hcolumns, hrows, -, hnone, htiles⟩ := partitioned Sample.parsedPair_given hl
  rw [hcolumnCount, hacross, hwidth] at hcolumns
  rw [hrowCount, hdown, hheight] at hrows
  obtain ⟨width, height, rect, hsize', -, -, -, -, hcount⟩ := htiles 5 (by
    rw [tileCount, hcolumnCount, hrowCount]
    decide)
  obtain ⟨rfl, rfl⟩ := Prod.mk.inj (Option.some.inj (hsize.symm.trans hsize'))
  refine ⟨l, hl, hsize, hcount.symm.trans hblocks, hcolumns, hrows, hnone 510 ?_⟩
  rw [Sps.sizeInCtbs, hacross, hdown]

end TileLayout

end TiledVideo
