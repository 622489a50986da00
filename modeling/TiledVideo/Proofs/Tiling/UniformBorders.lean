import Mathlib.Data.Nat.ModEq
import TiledVideo.Proofs.Tiling.Rectangles
import TiledVideo.Proofs.Tiling.UniformGrid

/-!
# Borders of uniform grids

The columns and rows of a uniform grid have their borders where the standard puts them. They differ by
one block at most, and the last one takes what the others leave of the picture.

Results:

* `uniformStep_bounds`: how many blocks are between two borders.
* `evenly_uniformSizes`: columns or rows that are equal as far as possible.
* `uniform_borders`: there is a layout for each uniform grid, and its columns and rows are such.
-/

namespace TiledVideo

namespace TileLayout

variable {count log2Ctb total i x : Nat}

/-! ## Between two borders -/

/-- Between two borders there are as many blocks as in an equal share, or one more. -/
theorem uniformStep_bounds (count ctbs i : Nat) :
    ctbs / count ≤ (i + 1) * ctbs / count - i * ctbs / count ∧
      (i + 1) * ctbs / count - i * ctbs / count ≤ ctbs / count + 1 := by
  have hle : i * ctbs / count + ctbs / count ≤ (i * ctbs + ctbs) / count := Nat.div_add_div_le_add_div
  have hge := Nat.add_div_le_div_add_div_add_one (i * ctbs) ctbs count
  rw [Nat.succ_mul]
  generalize ctbs / count = share at *
  omega

/-- A block of the picture is before the border behind the last tile. -/
theorem lt_of_uniformStart_le {ctbs : Nat} (hcount : 0 < count) (hx : x < ctbs)
    (h : i * ctbs / count ≤ x) : i < count := by
  by_contra hi
  have hle : count * ctbs / count ≤ i * ctbs / count :=
    Nat.div_le_div_right (Nat.mul_le_mul_right ctbs (Nat.le_of_not_lt hi))
  rw [Nat.mul_div_cancel_left _ hcount] at hle
  omega

/-! ## Columns and rows -/

/-- Columns or rows that divide the blocks of `total` samples as equally as possible, and the one that
each block across or down the picture is in. -/
structure Evenly (sizes tileOf : List Nat) (log2Ctb count total : Nat) : Prop where
  /-- A block is in a tile exactly if it is between the borders that the standard gives. -/
  borders : ∀ x < ctbsFor total log2Ctb, ∀ i, tileOf[x]? = some i ↔
    i * ctbsFor total log2Ctb / count ≤ x ∧ x < (i + 1) * ctbsFor total log2Ctb / count
  nonempty : ∀ i < count, 1 ≤ tileOf.count i
  balanced : ∀ i < count, ∀ j < count, tileOf.count i ≤ tileOf.count j + 1
  length : sizes.length = count
  whole : ∀ i, i + 1 < count → sizes[i]? =
    some (((i + 1) * ctbsFor total log2Ctb / count - i * ctbsFor total log2Ctb / count) * 2 ^ log2Ctb)
  /-- The last tile takes what the others leave, which is never nothing. -/
  last : sizes[count - 1]? = some (total - (sizes.take (count - 1)).sum)
  rest : (sizes.take (count - 1)).sum < total

section Uniform

variable {ctbs : Nat}

theorem uniformSizes_getElem? (hi : i + 1 < count) : (uniformSizes count ctbs log2Ctb total)[i]? =
    some (((i + 1) * ctbs / count - i * ctbs / count) * 2 ^ log2Ctb) := by
  have htake : ((uniformSizes count ctbs log2Ctb total).take (i + 1))[i]? =
      (uniformSizes count ctbs log2Ctb total)[i]? := by
    rw [List.getElem?_take, if_pos (Nat.lt_succ_self i)]
  rw [← htake, take_uniformSizes hi, List.getElem?_map, List.getElem?_range (Nat.lt_succ_self i)]
  rfl

theorem uniformSizes_last (hcount : 0 < count) :
    (uniformSizes count ctbs log2Ctb total)[count - 1]? =
      some (total - ((uniformSizes count ctbs log2Ctb total).take (count - 1)).sum) := by
  rw [take_uniformSizes (Nat.sub_lt hcount Nat.one_pos), uniformSizes]
  simp

end Uniform

theorem along_uniformSizes (log2Ctb : Nat) (hcount : 0 < count) (htotal : 0 < total) :
    Along (uniformSizes count (ctbsFor total log2Ctb) log2Ctb total)
      (tileOfCtb (uniformSizes count (ctbsFor total log2Ctb) log2Ctb total) (ctbsFor total log2Ctb)
        log2Ctb) log2Ctb count total where
  length := length_uniformSizes hcount _
  divides := divides_uniformSizes hcount htotal
  tileOf_eq := rfl

/-- The border behind the last tile is that of the picture. -/
theorem tileStart_uniformSizes_le (hcount : 0 < count) (htotal : 0 < total) (hi : i ≤ count) :
    tileStart log2Ctb (uniformSizes count (ctbsFor total log2Ctb) log2Ctb total) i =
      i * ctbsFor total log2Ctb / count := by
  obtain hlt | rfl := Nat.lt_or_eq_of_le hi
  · exact tileStart_uniformSizes hlt _
  · rw [(along_uniformSizes log2Ctb hcount htotal).tileStart_count, Nat.mul_div_cancel_left _ hcount]

theorem count_uniformSizes (hcount : 0 < count) (htotal : 0 < total) (hi : i < count) :
    (tileOfCtb (uniformSizes count (ctbsFor total log2Ctb) log2Ctb total) (ctbsFor total log2Ctb)
        log2Ctb).count i =
      (i + 1) * ctbsFor total log2Ctb / count - i * ctbsFor total log2Ctb / count := by
  have halong := along_uniformSizes log2Ctb hcount htotal
  rw [count_tileOfCtb halong.divides.sum_ctbs (by rwa [halong.length]),
    tileStart_uniformSizes_le hcount htotal hi, tileStart_uniformSizes_le hcount htotal hi.le]

/-- Sizes that are worked out for a grid with no more columns than blocks divide them evenly. -/
theorem evenly_uniformSizes (hcount : 0 < count) (hle : count ≤ ctbsFor total log2Ctb)
    (htotal : 0 < total) :
    Evenly (uniformSizes count (ctbsFor total log2Ctb) log2Ctb total)
      (tileOfCtb (uniformSizes count (ctbsFor total log2Ctb) log2Ctb total) (ctbsFor total log2Ctb)
        log2Ctb) log2Ctb count total := by
  have halong := along_uniformSizes log2Ctb hcount htotal
  refine ⟨fun x hx i => ?_, fun i hi => ?_, fun i hi j hj => ?_, halong.length,
    fun i => uniformSizes_getElem?, uniformSizes_last hcount, ?_⟩
  · constructor
    · intro h
      have hi := halong.lt_count h
      rwa [halong.tileOf_eq_some_iff, tileStart_uniformSizes_le hcount htotal hi.le,
        tileStart_uniformSizes_le hcount htotal hi] at h
    · intro h
      have hi := lt_of_uniformStart_le hcount hx h.1
      rwa [halong.tileOf_eq_some_iff, tileStart_uniformSizes_le hcount htotal hi.le,
        tileStart_uniformSizes_le hcount htotal hi]
  · rw [count_uniformSizes hcount htotal hi]
    exact Nat.sub_pos_of_lt (uniformStep_pos hcount hle i)
  · rw [count_uniformSizes hcount htotal hi, count_uniformSizes hcount htotal hj]
    have hi := (uniformStep_bounds count (ctbsFor total log2Ctb) i).2
    have hj := (uniformStep_bounds count (ctbsFor total log2Ctb) j).1
    omega
  · rw [sum_take_uniformSizes (Nat.sub_lt hcount Nat.one_pos)]
    exact lastUniform_lt log2Ctb hcount htotal

/-! ## Grids -/

/-- There is a layout for each uniform grid that was read. The borders of its columns and rows are those
of the standard. -/
theorem uniform_borders {sps : Sps} {pps : Pps} {grid : TileGrid} (hpair : ParsedPair sps pps)
    (hgrid : pps.partition.tiles = some grid) (hspacing : grid.spacing = .uniform) :
    ∃ l, ofParamSets sps pps = .ok l ∧
      Evenly l.columnWidths l.columnOf sps.log2Ctb (grid.columnsMinus1 + 1) sps.format.width ∧
      Evenly l.rowHeights l.rowOf sps.log2Ctb (grid.rowsMinus1 + 1) sps.format.height := by
  obtain ⟨hcolumns, hrows⟩ := (hpair.grid hgrid).1
  refine ⟨_, ofParamSets_eq_ok_iff.2 ⟨grid, _, _, hgrid, by rw [tileSizes, hspacing], rfl⟩, ?_, ?_⟩
  · exact evenly_uniformSizes (Nat.succ_pos _) hcolumns hpair.width_bounds.1
  · exact evenly_uniformSizes (Nat.succ_pos _) hrows hpair.height_bounds.1

end TileLayout

namespace Sample

/-- The payload of a picture parameter set with four equal columns and three equal rows. -/
def equalPpsPayload : Bytes := [192, 113, 132, 71, 196, 128]

/-- A picture parameter set with a uniform grid that does not divide the blocks of the picture. -/
def equalPps : Pps :=
  match ctx.decodePps equalPpsPayload with
  | .ok p => p
  | .error _ => default

theorem parsedPair_equal : ParsedPair sps equalPps :=
  ⟨⟨spsPayload, sps_read⟩, ctx, equalPpsPayload, by decide +kernel, by decide +kernel⟩

end Sample

/-- Thirty blocks in four columns. The second one has eight of them. -/
theorem TileLayout.uniform_borders_sample :
    ∃ l, ofParamSets Sample.sps Sample.equalPps = .ok l ∧
      Evenly l.columnWidths l.columnOf 6 4 1920 ∧ Evenly l.rowHeights l.rowOf 6 3 1088 ∧
      l.columnOf[14]? = some 1 ∧ l.columnOf[15]? = some 2 ∧ l.columnWidths[1]? = some 512 := by
  have hgrid : Sample.equalPps.partition.tiles = some ⟨3, 2, .uniform, true⟩ := by decide +kernel
  have hlog2 : Sample.sps.log2Ctb = 6 := by decide +kernel
  have hwidth : Sample.sps.format.width = 1920 := by decide +kernel
  have hheight : Sample.sps.format.height = 1088 := by decide +kernel
  obtain ⟨l, hl, hcolumns, hrows⟩ := uniform_borders Sample.parsedPair_equal hgrid rfl
  rw [hlog2, hwidth] at hcolumns
  rw [hlog2, hheight] at hrows
  exact ⟨l, hl, hcolumns, hrows, (hcolumns.borders 14 (by decide) 1).2 (by decide),
    (hcolumns.borders 15 (by decide) 2).2 (by decide), hcolumns.whole 1 (by decide)⟩

end TiledVideo
