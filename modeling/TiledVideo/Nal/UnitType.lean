/-!
# Unit types

Each NAL unit has one of 64 types. The first 32 are for slices of coded pictures (the video coding
layer), the others for parameter sets and for data that is not needed to decode a picture.
-/

namespace TiledVideo

/-- The type of a NAL unit, by its number in the standard's table. -/
structure UnitType where
  id : Fin 64
  deriving DecidableEq, Repr

/-- A number that is no unit type. -/
inductive UnitTypeError where
  | outOfRange (id : Nat)
  deriving DecidableEq, Repr

namespace UnitType

/-- The unit type with a given number (`UnitType::for_id`). -/
def ofId (id : Nat) : Except UnitTypeError UnitType :=
  if h : id < 64 then .ok ⟨⟨id, h⟩⟩ else .error (.outOfRange id)

/-! ## Types with a meaning of their own -/

/-- Video parameter sets. -/
def vps : UnitType := ⟨32⟩

/-- Sequence parameter sets. -/
def sps : UnitType := ⟨33⟩

/-- Picture parameter sets. -/
def pps : UnitType := ⟨34⟩

/-! ## Classes of types -/

/-- Units that carry slice segments (`UnitType::is_vcl`). -/
def isVcl (t : UnitType) : Bool :=
  t.id.val < 32

/-- Slices of intra random access point pictures (`UnitType::is_irap`). -/
def isIrap (t : UnitType) : Bool :=
  16 ≤ t.id.val && t.id.val ≤ 23

/-- Slices of instantaneous decoding refresh pictures, which refer to no other picture
(`UnitType::is_idr`). -/
def isIdr (t : UnitType) : Bool :=
  t.id.val == 19 || t.id.val == 20

/-- Types for slices that the standard has not given a meaning yet (in `AccessUnit::parse`). -/
def isReservedVcl (t : UnitType) : Bool :=
  (10 ≤ t.id.val && t.id.val ≤ 15) || (22 ≤ t.id.val && t.id.val ≤ 31)

/-- Units whose slice segment can be decoded (in `AccessUnit::parse`). -/
def isSlice (t : UnitType) : Bool :=
  t.isVcl && !t.isReservedVcl

theorem ofId_eq_ok_iff {id : Nat} {t : UnitType} : ofId id = .ok t ↔ t.id.val = id := by
  unfold ofId
  split
  · constructor
    · intro h
      cases h
      rfl
    · intro h
      subst h
      rfl
  · next h =>
    constructor
    · intro h'
      cases h'
    · intro h'
      have := t.id.isLt
      omega

theorem isVcl_of_isIrap {t : UnitType} (h : t.isIrap = true) : t.isVcl = true := by
  simp only [isIrap, isVcl, Bool.and_eq_true, decide_eq_true_eq] at *
  omega

theorem isIrap_of_isIdr {t : UnitType} (h : t.isIdr = true) : t.isIrap = true := by
  simp only [isIdr, isIrap, Bool.and_eq_true, Bool.or_eq_true, beq_iff_eq, decide_eq_true_eq] at *
  omega

end UnitType

end TiledVideo
