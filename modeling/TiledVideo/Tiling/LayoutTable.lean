import TiledVideo.Tiling.Layout

/-!
# Layouts in use

The layout of each picture parameter set is worked out once. From then on it stands: the parameter
sets that come later under the same number must describe the same layout.

Results:

* `get?_insert`: what a table holds once a layout is put in use.
-/

namespace TiledVideo

/-- The layouts in use, by the number of the picture parameter set. -/
structure LayoutTable where
  slots : Vector (Option TileLayout) 64
  deriving DecidableEq, Inhabited

namespace LayoutTable

/-- No layouts (`LayoutTable::default`). -/
def empty : LayoutTable := ⟨.replicate 64 none⟩

/-- The layout in use for a picture parameter set (`LayoutTable::get`). -/
def get? (t : LayoutTable) (id : PpsId) : Option TileLayout := t.slots[id.val]?.join

/-- Whether no layout is in use (`LayoutTable::is_empty`). -/
def isEmpty (t : LayoutTable) : Bool := t.slots.all Option.isNone

/-- Puts a layout in use. -/
def insert (t : LayoutTable) (id : PpsId) (l : TileLayout) : LayoutTable :=
  ⟨t.slots.setIfInBounds id (some l)⟩

/-- The layout for a pair of parameter sets, which is put in use if there was none, and the table
afterwards (`LayoutTable::resolve`). -/
def resolve (t : LayoutTable) (sps : Sps) (pps : Pps) :
    Except LayoutError (TileLayout × LayoutTable) :=
  match t.get? pps.id with
  | some l => do
    l.check sps pps
    pure (l, t)
  | none => do
    let l ← TileLayout.ofParamSets sps pps
    pure (l, t.insert pps.id l)

theorem get?_insert (t : LayoutTable) (id : PpsId) (l : TileLayout) (other : PpsId) :
    (t.insert id l).get? other = if id = other then some l else t.get? other := by
  simp only [insert, get?, Vector.getElem?_setIfInBounds, Fin.ext_iff]
  split <;> simp

end LayoutTable

end TiledVideo
