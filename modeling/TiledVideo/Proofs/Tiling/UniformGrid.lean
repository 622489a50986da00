import TiledVideo.Proofs.Tiling.Borders

/-!
# Uniform grids

The tiles of a uniform grid begin where the standard says, and the first block of a tile is in that
tile.

Results:

* `sum_take_uniformSizes`, `tileStart_uniformSizes`: where columns and rows begin.
* `tileIndex_firstCtb`: the tile of the first block of a tile.
* `uniformOrigin_lt`: tiles begin inside the picture.
-/

namespace TiledVideo

namespace TileLayout

/-! ## One direction -/

variable {count log2Ctb total : Nat}

theorem take_uniformSizes {i : Nat} (hi : i < count) (ctbs : Nat) :
    (uniformSizes count ctbs log2Ctb total).take i =
      (List.range i).map fun i => ((i + 1) * ctbs / count - i * ctbs / count) * 2 ^ log2Ctb := by
  rw [uniformSizes, List.take_append_of_le_length (by simp; omega), ← List.map_take, List.take_range,
    Nat.min_eq_left (by omega)]

/-- A column of a uniform grid begins behind the columns before it. -/
theorem sum_take_uniformSizes {i : Nat} (hi : i < count) (ctbs : Nat) :
    ((uniformSizes count ctbs log2Ctb total).take i).sum = i * ctbs / count * 2 ^ log2Ctb := by
  rw [take_uniformSizes hi, sum_uniformSteps]

/-- It has as many blocks before it as the standard says. -/
theorem tileStart_uniformSizes {i : Nat} (hi : i < count) (ctbs : Nat) :
    tileStart log2Ctb (uniformSizes count ctbs log2Ctb total) i = i * ctbs / count := by
  have hsum := sum_uniformSteps count ctbs 1 i
  simp only [Nat.mul_one] at hsum
  rw [tileStart, take_uniformSizes hi, List.map_map]
  simp only [Function.comp_def, ctbsFor_mul_two_pow, hsum]

theorem uniformStart_strictMono (hcount : 0 < count) {ctbs : Nat} (hle : count ≤ ctbs) :
    StrictMono fun i => i * ctbs / count :=
  strictMono_nat_of_lt_succ fun i => uniformStep_pos hcount hle i

theorem start_lt_ctbs {ctbs i : Nat} (hle : count ≤ ctbs) (hi : i < count) :
    i * ctbs / count < ctbs := by
  have hcount : 0 < count := Nat.lt_of_le_of_lt (Nat.zero_le _) hi
  rw [Nat.div_lt_iff_lt_mul hcount, Nat.mul_comm]
  exact Nat.mul_lt_mul_of_pos_left hi (Nat.lt_of_lt_of_le hcount hle)

/-- The first column of blocks of a column of tiles is in it. -/
theorem tileOfCtb_start {ctbs i : Nat} (hle : count ≤ ctbs) (hi : i < count) :
    (tileOfCtb (uniformSizes count ctbs log2Ctb total) ctbs log2Ctb)[i * ctbs / count]? = some i := by
  have hcount : 0 < count := Nat.lt_of_le_of_lt (Nat.zero_le _) hi
  refine tileOfCtb_eq_some (by rwa [length_uniformSizes hcount]) (start_lt_ctbs hle hi)
    (tileStart_uniformSizes hi ctbs).le fun hnext => ?_
  rw [length_uniformSizes hcount] at hnext
  rw [tileStart_uniformSizes hnext]
  exact uniformStep_pos hcount hle i

/-- A column of a uniform grid begins inside the picture. -/
theorem uniformStart_lt {i : Nat} (hi : i < count) (htotal : 0 < total) :
    i * ctbsFor total log2Ctb / count * 2 ^ log2Ctb < total := by
  have hcount : 0 < count := Nat.lt_of_le_of_lt (Nat.zero_le _) hi
  calc i * ctbsFor total log2Ctb / count * 2 ^ log2Ctb
      ≤ (count - 1) * ctbsFor total log2Ctb / count * 2 ^ log2Ctb :=
        Nat.mul_le_mul_right _ (Nat.div_le_div_right (Nat.mul_le_mul_right _ (by omega)))
    _ < total := lastUniform_lt log2Ctb hcount htotal

/-! ## Tiles -/

/-- Where a tile of a uniform grid begins in luma samples: behind the columns and below the rows
before it. -/
def uniformOrigin (sps : Sps) (columns rows tile : Nat) : Nat × Nat :=
  (((uniformSizes columns sps.widthInCtbs sps.log2Ctb sps.format.width).take
      (tile % columns)).sum,
    ((uniformSizes rows sps.heightInCtbs sps.log2Ctb sps.format.height).take
      (tile / columns)).sum)

/-- The first block of a tile of a uniform grid. -/
def uniformFirstCtb (sps : Sps) (columns rows tile : Nat) : Nat :=
  (uniformOrigin sps columns rows tile).2 / 2 ^ sps.log2Ctb * sps.widthInCtbs +
    (uniformOrigin sps columns rows tile).1 / 2 ^ sps.log2Ctb

variable {sps : Sps} {pps : Pps} {columns rows tile : Nat}

theorem column_row_lt (h : tile < columns * rows) : tile % columns < columns ∧ tile / columns < rows :=
  ⟨Nat.mod_lt _ (Nat.pos_of_ne_zero fun h0 => by simp [h0] at h), Nat.div_lt_of_lt_mul h⟩

theorem uniformOrigin_eq (h : tile < columns * rows) : uniformOrigin sps columns rows tile =
    (tile % columns * sps.widthInCtbs / columns * 2 ^ sps.log2Ctb,
      tile / columns * sps.heightInCtbs / rows * 2 ^ sps.log2Ctb) := by
  obtain ⟨hcolumn, hrow⟩ := column_row_lt h
  rw [uniformOrigin, sum_take_uniformSizes hcolumn, sum_take_uniformSizes hrow]

theorem uniformFirstCtb_eq (h : tile < columns * rows) : uniformFirstCtb sps columns rows tile =
    tile / columns * sps.heightInCtbs / rows * sps.widthInCtbs +
      tile % columns * sps.widthInCtbs / columns := by
  rw [uniformFirstCtb, uniformOrigin_eq h]
  simp only [Nat.mul_div_cancel _ (Nat.two_pow_pos _)]

theorem uniformOrigin_lt (hsps : Sps.parse.Produces sps) (h : tile < columns * rows) :
    (uniformOrigin sps columns rows tile).1 < sps.format.width ∧
      (uniformOrigin sps columns rows tile).2 < sps.format.height := by
  obtain ⟨hcolumn, hrow⟩ := column_row_lt h
  obtain ⟨⟨hwidth, -⟩, hheight, -⟩ := PictureFormat.bounds (Sps.produces_parts hsps).1
  rw [uniformOrigin_eq h]
  exact ⟨uniformStart_lt hcolumn hwidth, uniformStart_lt hrow hheight⟩

/-- Only the first tile begins in the corner of the picture. -/
theorem uniformOrigin_eq_zero_iff (hcolumns : columns ≤ sps.widthInCtbs)
    (hrows : rows ≤ sps.heightInCtbs) (h : tile < columns * rows) :
    ((uniformOrigin sps columns rows tile).1 = 0 ∧ (uniformOrigin sps columns rows tile).2 = 0) ↔
      tile = 0 := by
  obtain ⟨hcolumn, hrow⟩ := column_row_lt h
  have hstart : ∀ {count ctbs i : Nat}, count ≤ ctbs → i < count →
      i * ctbs / count * 2 ^ sps.log2Ctb = 0 → i = 0 := fun {count ctbs i} hle hi h0 => by
    have hcount : 0 < count := Nat.lt_of_le_of_lt (Nat.zero_le _) hi
    have h0 : i * ctbs / count = 0 * ctbs / count := by
      simpa using (Nat.mul_eq_zero.1 h0).resolve_right (Nat.ne_of_gt (Nat.two_pow_pos _))
    exact (uniformStart_strictMono hcount hle).injective h0
  rw [uniformOrigin_eq h]
  constructor
  · rintro ⟨hx, hy⟩
    have hmod := hstart hcolumns hcolumn hx
    have hdiv := hstart hrows hrow hy
    rw [← Nat.div_add_mod tile columns, hmod, hdiv]
    rfl
  · rintro rfl
    simp

/-- The layout of a uniform grid. -/
def uniformLayout (sps : Sps) (columns rows : Nat) : TileLayout where
  columns
  rows
  log2Ctb := sps.log2Ctb
  widthInCtbs := sps.widthInCtbs
  heightInCtbs := sps.heightInCtbs
  width := sps.format.width
  height := sps.format.height
  columnWidths := uniformSizes columns sps.widthInCtbs sps.log2Ctb sps.format.width
  rowHeights := uniformSizes rows sps.heightInCtbs sps.log2Ctb sps.format.height
  columnOf := tileOfCtb (uniformSizes columns sps.widthInCtbs sps.log2Ctb sps.format.width)
    sps.widthInCtbs sps.log2Ctb
  rowOf := tileOfCtb (uniformSizes rows sps.heightInCtbs sps.log2Ctb sps.format.height)
    sps.heightInCtbs sps.log2Ctb

theorem ofParamSets_uniform {across : Bool} (hcolumns : 0 < columns) (hrows : 0 < rows)
    (hgrid : pps.partition.tiles = some ⟨columns - 1, rows - 1, .uniform, across⟩) :
    ofParamSets sps pps = .ok (uniformLayout sps columns rows) := by
  refine ofParamSets_eq_ok_iff.2 ⟨_, _, _, hgrid, rfl, ?_⟩
  simp only [uniformLayout, Nat.sub_add_cancel hcolumns, Nat.sub_add_cancel hrows]

/-- The first block of a tile is in the tile. -/
theorem tileIndex_firstCtb (hcolumns : columns ≤ sps.widthInCtbs)
    (hrows : rows ≤ sps.heightInCtbs) (h : tile < columns * rows) :
    (uniformLayout sps columns rows).tileIndex (uniformFirstCtb sps columns rows tile) =
      some tile := by
  obtain ⟨hcolumn, hrow⟩ := column_row_lt h
  have hpos : 0 < columns := Nat.lt_of_le_of_lt (Nat.zero_le _) hcolumn
  have hlt : tile % columns * sps.widthInCtbs / columns < sps.widthInCtbs :=
    start_lt_ctbs hcolumns hcolumn
  have hmod : uniformFirstCtb sps columns rows tile % sps.widthInCtbs =
      tile % columns * sps.widthInCtbs / columns := by
    rw [uniformFirstCtb_eq h, Nat.mul_add_mod_of_lt hlt]
  have hdiv : uniformFirstCtb sps columns rows tile / sps.widthInCtbs =
      tile / columns * sps.heightInCtbs / rows := by
    rw [uniformFirstCtb_eq h, Nat.mul_comm, Nat.mul_add_div (Nat.lt_of_lt_of_le hpos hcolumns),
      Nat.div_eq_of_lt hlt, Nat.add_zero]
  refine tileIndex_eq_some_iff.2 ⟨Nat.ne_of_gt (Nat.lt_of_lt_of_le hpos hcolumns), tile % columns,
    tile / columns, ?_, ?_, (Nat.mod_add_div tile columns).symm, h⟩
  · show (tileOfCtb _ _ _)[uniformFirstCtb sps columns rows tile % sps.widthInCtbs]? = _
    rw [hmod, tileOfCtb_start hcolumns hcolumn]
  · show (tileOfCtb _ _ _)[uniformFirstCtb sps columns rows tile / sps.widthInCtbs]? = _
    rw [hdiv, tileOfCtb_start hrows hrow]

/-- Each tile of a uniform grid has a size. -/
theorem tileSize_uniform (h : tile < columns * rows) :
    ∃ width height, (uniformLayout sps columns rows).tileSize tile = some (width, height) := by
  obtain ⟨hcolumn, hrow⟩ := column_row_lt h
  have hpos : 0 < columns := Nat.lt_of_le_of_lt (Nat.zero_le _) hcolumn
  have hwidth : tile % columns < (uniformLayout sps columns rows).columnWidths.length := by
    rw [uniformLayout, length_uniformSizes hpos]
    exact hcolumn
  have hheight : tile / columns < (uniformLayout sps columns rows).rowHeights.length := by
    rw [uniformLayout, length_uniformSizes (Nat.lt_of_le_of_lt (Nat.zero_le _) hrow)]
    exact hrow
  refine ⟨(uniformLayout sps columns rows).columnWidths[tile % columns],
    (uniformLayout sps columns rows).rowHeights[tile / columns], ?_⟩
  show ((uniformLayout sps columns rows).columnWidths[tile % columns]? >>= _) = _
  rw [List.getElem?_eq_getElem hwidth]
  show ((uniformLayout sps columns rows).rowHeights[tile / columns]? >>= _) = _
  rw [List.getElem?_eq_getElem hheight]
  rfl

end TileLayout

end TiledVideo
