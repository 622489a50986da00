import TiledVideo.Proofs.Success
import TiledVideo.Tiling.LayoutTable

/-!
# Layouts that are kept

The layout of a picture parameter set is worked out once and only checked from then on. The check is
strict enough: whatever passes it has the very layout that is kept.

Results:

* `TileLayout.ofParamSets_of_check`: parameter sets that pass the check have the layout.
* `LayoutTable.Worked`: each layout in a table was worked out from some parameter sets.
* `LayoutTable.resolve_eq_ok_iff_held_or_new`: a layout that a table gives is held or new.
* `LayoutTable.resolve_spec`: a table gives the layout of the parameter sets it is asked for.
* `LayoutTable.resolve_ok`: it does so whenever it holds no other one.
-/

namespace TiledVideo

theorem Partition.tileCount_pos (p : Partition) : 0 < p.tileCount := by
  refine Nat.mul_pos ?_ ?_
  · unfold Partition.columns
    split <;> omega
  · unfold Partition.rows
    split <;> omega

namespace TileLayout

variable {sps sps' : Sps} {pps pps' : Pps} {l : TileLayout}

/-! ## Layouts of parameter sets -/

/-- A layout has the sizes of its columns and rows and follows from them and the picture. -/
theorem ofParamSets_eq_ok_iff : ofParamSets sps pps = .ok l ↔
    ∃ grid widths heights, pps.partition.tiles = some grid ∧
      tileSizes sps grid = .ok (widths, heights) ∧
      l = {
        columns := grid.columnsMinus1 + 1
        rows := grid.rowsMinus1 + 1
        log2Ctb := sps.log2Ctb
        widthInCtbs := sps.widthInCtbs
        heightInCtbs := sps.heightInCtbs
        width := sps.format.width
        height := sps.format.height
        columnWidths := widths
        rowHeights := heights
        columnOf := tileOfCtb widths sps.widthInCtbs sps.log2Ctb
        rowOf := tileOfCtb heights sps.heightInCtbs sps.log2Ctb } := by
  unfold ofParamSets
  split
  · next htiles => exact ⟨nofun, fun ⟨_, _, _, h, _⟩ => nomatch htiles.symm.trans h⟩
  · next grid htiles =>
    rw [bind_eq_ok_iff]
    constructor
    · rintro ⟨⟨widths, heights⟩, hsizes, h⟩
      cases h
      exact ⟨grid, widths, heights, htiles, hsizes, rfl⟩
    · rintro ⟨grid', widths, heights, htiles', hsizes, rfl⟩
      obtain rfl : grid = grid' := Option.some.inj (htiles.symm.trans htiles')
      exact ⟨(widths, heights), hsizes, rfl⟩

theorem tileCount_of_ofParamSets (h : ofParamSets sps pps = .ok l) :
    l.tileCount = pps.partition.tileCount := by
  obtain ⟨grid, _, _, htiles, -, rfl⟩ := ofParamSets_eq_ok_iff.1 h
  simp only [tileCount, Partition.tileCount, Partition.columns, Partition.rows, htiles]

theorem tileCount_pos (h : ofParamSets sps pps = .ok l) : 0 < l.tileCount := by
  rw [tileCount_of_ofParamSets h]
  exact pps.partition.tileCount_pos

/-- The check compares all that a layout is made of. -/
theorem ofParamSets_of_check (hl : ofParamSets sps pps = .ok l) (h : l.check sps' pps' = .ok ()) :
    ofParamSets sps' pps' = .ok l := by
  obtain ⟨grid, widths, heights, -, -, rfl⟩ := ofParamSets_eq_ok_iff.1 hl
  unfold check at h
  split at h
  · cases h
  · next grid' htiles =>
    split_ifs at h with hsize hgrid hctb
    obtain ⟨⟨widths', heights'⟩, hsizes, h⟩ := bind_eq_ok_iff.1 h
    dsimp only at h
    split_ifs at h with hgeometry
    simp only [ne_eq, not_or, not_not, Partition.columns, Partition.rows, htiles] at hsize hgrid
    simp only [ne_eq, not_or, not_not] at hctb hgeometry
    obtain ⟨hwidth, hheight⟩ := hsize
    obtain ⟨hcolumns, hrows⟩ := hgrid
    obtain ⟨rfl, rfl⟩ := hgeometry
    refine ofParamSets_eq_ok_iff.2 ⟨grid', _, _, htiles, hsizes, ?_⟩
    simp only [Sps.widthInCtbs, Sps.heightInCtbs, hwidth, hheight, hcolumns, hrows, hctb]

/-- Parameter sets pass the check of their own layout. -/
theorem check_of_ofParamSets (hl : ofParamSets sps pps = .ok l) : l.check sps pps = .ok () := by
  obtain ⟨grid, widths, heights, htiles, hsizes, rfl⟩ := ofParamSets_eq_ok_iff.1 hl
  simp only [check, htiles, hsizes, Partition.columns, Partition.rows]
  simp only [ne_eq, not_true_eq_false, or_self, if_false]
  exact bind_eq_ok_iff.2 ⟨(widths, heights), rfl, by simp [pure, Except.pure]⟩

/-! ## Places in a layout -/

theorem tileIndex_eq_some_iff {address tile : Nat} : l.tileIndex address = some tile ↔
    l.widthInCtbs ≠ 0 ∧ ∃ column row, l.columnOf[address % l.widthInCtbs]? = some column ∧
      l.rowOf[address / l.widthInCtbs]? = some row ∧
      tile = column + l.columns * row ∧ tile < l.tileCount := by
  unfold tileIndex
  by_cases hwidth : l.widthInCtbs = 0
  · rw [if_pos hwidth]
    exact ⟨nofun, fun h => absurd hwidth h.1⟩
  · rw [if_neg hwidth]
    simp only [Option.bind_eq_bind, Option.bind_eq_some_iff, Option.ite_none_right_eq_some,
      Option.some.injEq]
    constructor
    · rintro ⟨column, hcolumn, row, hrow, hlt, rfl⟩
      exact ⟨hwidth, column, row, hcolumn, hrow, rfl, hlt⟩
    · rintro ⟨-, column, row, hcolumn, hrow, rfl, hlt⟩
      exact ⟨column, hcolumn, row, hrow, hlt, rfl⟩

end TileLayout

namespace LayoutTable

variable {t t' : LayoutTable} {sps : Sps} {pps : Pps} {l : TileLayout}

/-- Each layout was worked out from some parameter sets. -/
def Worked (t : LayoutTable) : Prop :=
  ∀ id l, t.get? id = some l → ∃ sps pps, TileLayout.ofParamSets sps pps = .ok l

theorem worked_empty : empty.Worked := by
  intro id l h
  simp [get?, empty] at h

theorem Worked.insert (ht : t.Worked) (hl : TileLayout.ofParamSets sps pps = .ok l) (id : PpsId) :
    (t.insert id l).Worked := by
  intro other held h
  rw [get?_insert] at h
  split at h
  · cases h
    exact ⟨sps, pps, hl⟩
  · exact ht other held h

/-- A table gives the layout it holds if the parameter sets pass its check, and else a new one, which
it then holds. -/
theorem resolve_eq_ok_iff_held_or_new : t.resolve sps pps = .ok (l, t') ↔
    (t.get? pps.id = some l ∧ l.check sps pps = .ok () ∧ t' = t) ∨
      (t.get? pps.id = none ∧ TileLayout.ofParamSets sps pps = .ok l ∧ t' = t.insert pps.id l) := by
  unfold resolve
  split
  · next held hheld =>
    rw [bind_eq_ok_iff]
    constructor
    · rintro ⟨_, hcheck, h⟩
      cases h
      exact .inl ⟨hheld, hcheck, rfl⟩
    · rintro (⟨hl, hcheck, rfl⟩ | ⟨hnone, -⟩)
      · obtain rfl : held = l := Option.some.inj (hheld.symm.trans hl)
        exact ⟨(), hcheck, rfl⟩
      · exact nomatch hheld.symm.trans hnone
  · next hnone =>
    rw [bind_eq_ok_iff]
    constructor
    · rintro ⟨made, hmade, h⟩
      cases h
      exact .inr ⟨hnone, hmade, rfl⟩
    · rintro (⟨hl, -⟩ | ⟨-, hmade, rfl⟩)
      · exact nomatch hnone.symm.trans hl
      · exact ⟨l, hmade, rfl⟩

/-- A layout that is given is the one the table holds afterwards. -/
theorem resolve_eq_ok (h : t.resolve sps pps = .ok (l, t')) : t'.get? pps.id = some l := by
  obtain ⟨hl, -, rfl⟩ | ⟨-, -, rfl⟩ := resolve_eq_ok_iff_held_or_new.1 h
  · exact hl
  · rw [get?_insert, if_pos rfl]

/-- Whether it is kept or new, a layout that a table gives is that of the parameter sets. -/
theorem resolve_spec (ht : t.Worked) (h : t.resolve sps pps = .ok (l, t')) :
    TileLayout.ofParamSets sps pps = .ok l ∧ t'.Worked := by
  obtain ⟨hl, hcheck, rfl⟩ | ⟨-, hl, rfl⟩ := resolve_eq_ok_iff_held_or_new.1 h
  · obtain ⟨sps₀, pps₀, hworked⟩ := ht _ _ hl
    exact ⟨TileLayout.ofParamSets_of_check hworked hcheck, ht⟩
  · exact ⟨hl, ht.insert hl _⟩

/-- A layout that is in use stays in use. -/
theorem get?_of_resolve {id : PpsId} {held : TileLayout} (h : t.resolve sps pps = .ok (l, t'))
    (hget : t.get? id = some held) : t'.get? id = some held := by
  obtain ⟨-, -, rfl⟩ | ⟨hnone, -, rfl⟩ := resolve_eq_ok_iff_held_or_new.1 h
  · exact hget
  · rw [get?_insert, if_neg]
    · exact hget
    · rintro rfl
      exact nomatch hnone.symm.trans hget

/-- What is said of a table is still true when it is asked for a layout. -/
def Stable (P : LayoutTable → Prop) : Prop :=
  ∀ {t t' : LayoutTable} {sps : Sps} {pps : Pps} {l : TileLayout},
    t.resolve sps pps = .ok (l, t') → P t → P t'

theorem stable_worked : Stable Worked :=
  fun h ht => (resolve_spec ht h).2

theorem stable_get? (id : PpsId) (held : TileLayout) : Stable fun t => t.get? id = some held :=
  fun h hget => get?_of_resolve h hget

/-- A table that holds no other layout gives that of the parameter sets, and then holds it. -/
theorem resolve_ok (hl : TileLayout.ofParamSets sps pps = .ok l)
    (h : ∀ held, t.get? pps.id = some held → held = l) :
    ∃ t', t.resolve sps pps = .ok (l, t') ∧ ∀ held, t'.get? pps.id = some held → held = l := by
  have hresolve : ∃ t', t.resolve sps pps = .ok (l, t') := by
    cases hget : t.get? pps.id with
    | none => exact ⟨_, resolve_eq_ok_iff_held_or_new.2 (.inr ⟨hget, hl, rfl⟩)⟩
    | some held =>
      obtain rfl := h held hget
      have hcheck := TileLayout.check_of_ofParamSets hl
      exact ⟨_, resolve_eq_ok_iff_held_or_new.2 (.inl ⟨hget, hcheck, rfl⟩)⟩
  obtain ⟨t', hresolve⟩ := hresolve
  refine ⟨t', hresolve, fun held hheld => ?_⟩
  exact Option.some.inj (hheld.symm.trans (resolve_eq_ok hresolve))

end LayoutTable

end TiledVideo
