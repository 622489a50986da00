/-!
# Identifiers of parameter sets

Up to 16 video and sequence parameter sets and up to 64 picture parameter sets exist at a time. Each
has a slot of its own, in which a later set replaces an earlier one.
-/

namespace TiledVideo

/-- The number of a video parameter set. -/
abbrev VpsId := Fin 16

/-- The number of a sequence parameter set. -/
abbrev SpsId := Fin 16

/-- The number of a picture parameter set. -/
abbrev PpsId := Fin 64

/-- The numbers of video and sequence parameter sets begin with zero. -/
instance neZero_spsIds : NeZero 16 := ⟨by decide⟩

/-- The numbers of picture parameter sets begin with zero. -/
instance neZero_ppsIds : NeZero 64 := ⟨by decide⟩

/-- A number that identifies no parameter set (`SeqParamSetIdError` and `PicParamSetIdError`). -/
inductive IdError where
  | tooLarge (id : Nat)
  deriving DecidableEq, Repr

/-- The number below `n` that is given, if it is below `n`. -/
def idBelow (n id : Nat) : Except IdError (Fin n) :=
  if h : id < n then .ok ⟨id, h⟩ else .error (.tooLarge id)

/-- The sequence parameter set identifier with a given number (`SeqParamSetId::from_u32`). -/
def SpsId.ofNat (id : Nat) : Except IdError SpsId := idBelow 16 id

/-- The picture parameter set identifier with a given number (`PicParamSetId::from_u32`). -/
def PpsId.ofNat (id : Nat) : Except IdError PpsId := idBelow 64 id

theorem idBelow_eq_ok_iff {n id : Nat} {i : Fin n} : idBelow n id = .ok i ↔ i.val = id := by
  unfold idBelow
  split
  · constructor
    · intro h
      cases h
      rfl
    · intro h
      subst h
      rfl
  · next h =>
    constructor
    · intro h'
      cases h'
    · intro h'
      have := i.isLt
      omega

end TiledVideo
