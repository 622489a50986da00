import TiledVideo.ParamSet.RefPicSet
import TiledVideo.ParamSet.Id

/-!
# Slices

The kinds of slices, and why a slice header could not be read.
-/

namespace TiledVideo

/-- Why the header of a slice segment could not be read (`SliceHeaderError`). -/
inductive SliceError where
  | read (cause : ReadError)
  | invalidSliceType (value : Nat)
  | badPpsId (cause : IdError)
  | undefinedPps (id : PpsId)
  | undefinedSps (id : SpsId)
  /-- A dependent segment without an independent one before it in the picture. -/
  | missingIndependentSegment
  | fieldTooLarge (element : String) (value : Nat)
  | refPicSet (cause : RefPicSetError)
  /-- The bit that begins the alignment was zero. -/
  | missingAlignmentBit
  deriving DecidableEq, Repr

/-- A failure to read an element is one of this syntax itself, not of a part of it. -/
instance (priority := 2000) : MonadLift (Reader ReadError) (Reader SliceError) :=
  ⟨Reader.mapError .read⟩

instance : MonadLift (Reader RefPicSetError) (Reader SliceError) := ⟨Reader.mapError .refPicSet⟩

/-- Reads an unsigned number that must be at most `max` (`read_bounded`). -/
def SliceError.ueUpTo (max : Nat) (element : String) : Reader SliceError Nat := do
  let value ← Reader.ue element
  Reader.ensure (value ≤ max) (SliceError.fieldTooLarge element value)
  pure value

/-- What the blocks of a slice may be predicted from. -/
inductive SliceType where
  /-- From one or two pictures. -/
  | b
  /-- From one picture. -/
  | p
  /-- From no other picture. -/
  | i
  deriving DecidableEq, Repr, Inhabited

namespace SliceType

/-- The number by which the type is coded (`SliceType::id`). -/
def id : SliceType → Nat
  | b => 0
  | p => 1
  | i => 2

/-- The type that a number codes (`SliceType::from_id`). -/
def ofId? : Nat → Option SliceType
  | 0 => some b
  | 1 => some p
  | 2 => some i
  | _ => none

/-- Whether blocks may be predicted from other pictures (`SliceType::is_inter`). -/
def isInter (t : SliceType) : Bool :=
  t != i

/-- Reads the type of a slice. -/
def parse : Reader SliceError SliceType := do
  let id ← Reader.ue "slice_type"
  Reader.require (ofId? id) (SliceError.invalidSliceType id)

theorem ofId?_eq_some_iff {n : Nat} {t : SliceType} : ofId? n = some t ↔ n = t.id := by
  constructor
  · intro h
    unfold ofId? at h
    split at h <;> cases h <;> rfl
  · rintro rfl
    cases t <;> rfl

end SliceType

end TiledVideo
