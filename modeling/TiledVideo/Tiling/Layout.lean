import TiledVideo.ParamSet.Pps

/-!
# Tile layouts

A grid of tiles divides a picture into columns and rows. Their borders lie between coding tree
blocks, so only the last column and the last row may end in a block that is not whole. Tiles are
numbered row by row.

Results:

* `length_tileOfCtb`: every column of blocks is in some column of tiles.
* `sum_explicitSizes`: sizes that are given leave the rest of the picture to the last tile.
-/

namespace TiledVideo

/-- Why a picture has no tile layout, or not the expected one (`TileLayoutError`). -/
inductive LayoutError where
  | tilesDisabled
  /-- The sizes that are given leave nothing for the last column or the last row. -/
  | explicitSizeOverflow (columns : Bool)
  /-- The layout differs from an earlier one. -/
  | mismatch (what : String)
  deriving DecidableEq, Repr

/-- The columns and rows of tiles of a picture. -/
structure TileLayout where
  columns : Nat
  rows : Nat
  log2Ctb : Nat
  /-- The number of blocks across the picture. -/
  widthInCtbs : Nat
  /-- The number of blocks down the picture. -/
  heightInCtbs : Nat
  width : Nat
  height : Nat
  /-- The width of each column of tiles in luma samples. -/
  columnWidths : List Nat
  /-- The height of each row of tiles in luma samples. -/
  rowHeights : List Nat
  /-- The column of tiles that each column of blocks is in. -/
  columnOf : List Nat
  /-- The row of tiles that each row of blocks is in. -/
  rowOf : List Nat
  deriving DecidableEq, Repr, Inhabited

namespace TileLayout

/-! ## Sizes along one direction -/

/-- The sizes of `count` tiles that divide `ctbs` blocks as equally as possible; the last one also takes
what is missing to `total` samples (`uniform_sizes`). -/
def uniformSizes (count ctbs log2Ctb total : Nat) : List Nat :=
  let sizes := (List.range (count - 1)).map fun i =>
    ((i + 1) * ctbs / count - i * ctbs / count) * 2 ^ log2Ctb
  sizes ++ [total - sizes.sum]

/-- The sizes of tiles that are given in blocks, minus one, except for the last one, which takes the rest
of `total` samples (`explicit_sizes`). A size is a number of 32 bits, of which higher bits are lost. -/
def explicitSizes (minus1 : List Nat) (log2Ctb total : Nat) : Option (List Nat) :=
  let sizes := minus1.map fun m => (m + 1) * 2 ^ log2Ctb % 2 ^ 32
  if sizes.sum < total then some (sizes ++ [total - sizes.sum]) else none

theorem sum_explicitSizes {minus1 : List Nat} {log2Ctb total : Nat} {sizes : List Nat}
    (h : explicitSizes minus1 log2Ctb total = some sizes) : sizes.sum = total := by
  simp only [explicitSizes] at h
  split at h
  · next hlt =>
    cases h
    simp only [List.sum_append, List.sum_cons, List.sum_nil]
    omega
  · cases h

/-- The number of blocks up to the end of each tile, if `start` blocks come before them. -/
def tileEnds (log2Ctb : Nat) : Nat → List Nat → List Nat
  | _, [] => []
  | start, size :: sizes =>
    let stop := start + ctbsFor size log2Ctb
    stop :: tileEnds log2Ctb stop sizes

/-- The tile that each of `ctbs` blocks is in: the number of tiles that end before it, except that the
last tile has no end (`ctb_to_tile`). -/
def tileOfCtb (sizes : List Nat) (ctbs log2Ctb : Nat) : List Nat :=
  let borders := (tileEnds log2Ctb 0 sizes).dropLast
  (List.range ctbs).map fun i => borders.countP (· ≤ i)

theorem length_tileOfCtb (sizes : List Nat) (ctbs log2Ctb : Nat) :
    (tileOfCtb sizes ctbs log2Ctb).length = ctbs := by
  simp [tileOfCtb]

/-! ## Layouts -/

/-- The widths of columns and the heights of rows (`tile_sizes`). -/
def tileSizes (sps : Sps) (grid : TileGrid) : Except LayoutError (List Nat × List Nat) :=
  match grid.spacing with
  | .uniform => .ok
    (uniformSizes (grid.columnsMinus1 + 1) sps.widthInCtbs sps.log2Ctb sps.format.width,
     uniformSizes (grid.rowsMinus1 + 1) sps.heightInCtbs sps.log2Ctb sps.format.height)
  | .explicit widthsMinus1 heightsMinus1 =>
    match explicitSizes widthsMinus1 sps.log2Ctb sps.format.width with
    | none => .error (.explicitSizeOverflow true)
    | some widths =>
      match explicitSizes heightsMinus1 sps.log2Ctb sps.format.height with
      | none => .error (.explicitSizeOverflow false)
      | some heights => .ok (widths, heights)

/-- The layout of the pictures of a pair of parameter sets (`TileLayout::new`). -/
def ofParamSets (sps : Sps) (pps : Pps) : Except LayoutError TileLayout :=
  match pps.partition.tiles with
  | none => .error .tilesDisabled
  | some grid => do
    let (columnWidths, rowHeights) ← tileSizes sps grid
    pure {
      columns := grid.columnsMinus1 + 1
      rows := grid.rowsMinus1 + 1
      log2Ctb := sps.log2Ctb
      widthInCtbs := sps.widthInCtbs
      heightInCtbs := sps.heightInCtbs
      width := sps.format.width
      height := sps.format.height
      columnWidths
      rowHeights
      columnOf := tileOfCtb columnWidths sps.widthInCtbs sps.log2Ctb
      rowOf := tileOfCtb rowHeights sps.heightInCtbs sps.log2Ctb }

/-- The number of tiles (`TileLayout::num_tiles`). -/
def tileCount (l : TileLayout) : Nat :=
  l.columns * l.rows

/-- The tile that a block is in (`TileLayout::tile_index`). -/
def tileIndex (l : TileLayout) (address : Nat) : Option Nat := do
  if l.widthInCtbs = 0 then none
  let column ← l.columnOf[address % l.widthInCtbs]?
  let row ← l.rowOf[address / l.widthInCtbs]?
  let index := column + l.columns * row
  if index < l.tileCount then some index else none

/-- Width and height of a tile in luma samples (`TileLayout::tile_geometry`). -/
def tileSize (l : TileLayout) (tile : Nat) : Option (Nat × Nat) := do
  let width ← l.columnWidths[tile % l.columns]?
  let height ← l.rowHeights[tile / l.columns]?
  pure (width, height)

/-- Checks that a pair of parameter sets describes pictures of this layout (`TileLayout::matches`). -/
def check (l : TileLayout) (sps : Sps) (pps : Pps) : Except LayoutError Unit :=
  match pps.partition.tiles with
  | none => .error .tilesDisabled
  | some grid =>
    if sps.format.width ≠ l.width ∨ sps.format.height ≠ l.height then
      .error (.mismatch "picture size")
    else if pps.partition.columns ≠ l.columns ∨ pps.partition.rows ≠ l.rows then
      .error (.mismatch "tile partition")
    else if sps.log2Ctb ≠ l.log2Ctb then
      .error (.mismatch "ctb size")
    else do
      let (columnWidths, rowHeights) ← tileSizes sps grid
      if columnWidths ≠ l.columnWidths ∨ rowHeights ≠ l.rowHeights then
        .error (.mismatch "tile geometry")
      else pure ()

end TileLayout

end TiledVideo
