import TiledVideo.Bitstream.Code
import TiledVideo.Bitstream.Reader

/-!
# Short-term reference picture sets

The pictures that must be kept for reference, by their distance in output order from the current
picture: those before it and those after it, the nearest first. A set is coded either by the gaps
between its pictures, or as an earlier set moved by an offset, of which any picture may be left out
and to which the reference of the earlier set itself may be added.

Distances are numbers of 32 bits with a sign: a sum beyond them wraps around.
-/

namespace TiledVideo

/-- Why a reference picture set could not be read. -/
inductive RefPicSetError where
  | read (cause : ReadError)
  /-- The set to predict from is before the first one. -/
  | badReference (index deltaIdxMinus1 : Nat)
  /-- There are more than 16 pictures in one direction. -/
  | tooManyPictures (count : Nat)
  deriving DecidableEq, Repr

instance : MonadLift (Reader ReadError) (Reader RefPicSetError) := ⟨Reader.mapError .read⟩

/-- A picture of a set. -/
structure RefPic where
  /-- Its distance from the current picture in output order. -/
  deltaPoc : Int
  /-- Whether the current picture may refer to it. -/
  used : Bool
  deriving DecidableEq, Repr, Inhabited

/-- A picture coded by its gap to the one before. -/
structure RefPicGap where
  deltaPocMinus1 : Nat
  used : Bool
  deriving DecidableEq, Repr, Inhabited

/-- What becomes of a picture of the set that a set is predicted from. -/
structure RefPicChoice where
  used : Bool
  /-- Whether it is kept at all; inferred to hold if it is used. -/
  kept : Bool
  deriving DecidableEq, Repr, Inhabited

/-- How a set is coded (`StRefPicSetSyntax`). -/
inductive RefPicSetCoding where
  /-- Predicted from the set `deltaIdxMinus1 + 1` places earlier. -/
  | inter (deltaIdxMinus1 : Nat) (negative : Bool) (absDeltaRpsMinus1 : Nat)
      (choices : List RefPicChoice)
  /-- Coded by gaps, for the pictures before and after the current one. -/
  | explicit (before after : List RefPicGap)
  deriving DecidableEq, Repr, Inhabited

/-- A short-term reference picture set (`ShortTermRefPicSet`). -/
structure RefPicSet where
  coding : RefPicSetCoding
  /-- The pictures before the current one in output order. -/
  before : List RefPic
  /-- The pictures after the current one in output order. -/
  after : List RefPic
  deriving DecidableEq, Repr, Inhabited

/-- The number that is left of an integer in 32 bits with a sign (in `ShortTermRefPicSet::derive_inter`).
-/
def wrap32 (x : Int) : Int :=
  Int.bmod x (2 ^ 32)

namespace RefPicSet

/-! ## Counts -/

/-- The number of pictures of a set (`ShortTermRefPicSet::num_delta_pocs`). -/
def size (s : RefPicSet) : Nat :=
  s.before.length + s.after.length

/-- The number of pictures that the current picture may refer to
(`ShortTermRefPicSet::num_used_by_curr_pic`). -/
def usedCount (s : RefPicSet) : Nat :=
  (s.before ++ s.after).countP (·.used)

/-! ## Derivation -/

/-- The pictures that are `direction` times the sum of the gaps up to theirs away, starting from
the distance `poc`. -/
def ofGaps (direction : Int) : Int → List RefPicGap → List RefPic
  | _, [] => []
  | poc, g :: gs =>
    let next := poc + direction * (g.deltaPocMinus1 + 1)
    ⟨wrap32 next, g.used⟩ :: ofGaps direction next gs

/-- The set that is coded by gaps (in `ShortTermRefPicSet::read`). -/
def ofExplicit (before after : List RefPicGap) : RefPicSet where
  coding := .explicit before after
  before := ofGaps (-1) 0 before
  after := ofGaps 1 0 after

/-- The pictures that are kept, moved by `offset`, on the side that `side` accepts. -/
def moved (offset : Int) (side : Int → Bool) (pics : List (RefPic × RefPicChoice)) : List RefPic :=
  pics.filterMap fun (pic, choice) =>
    let poc := wrap32 (pic.deltaPoc + offset)
    if choice.kept && side poc then some ⟨poc, choice.used⟩ else none

/-- The offset by which a predicted set is moved. -/
def offset (negative : Bool) (absDeltaRpsMinus1 : Nat) : Int :=
  if negative then -(absDeltaRpsMinus1 + 1 : Int) else absDeltaRpsMinus1 + 1

/-- The set predicted from `reference` (`ShortTermRefPicSet::derive_inter`). The choices are for its
pictures before and after the current one, in this order, and for its own reference at distance zero. -/
def ofInter (reference : RefPicSet) (deltaIdxMinus1 : Nat) (negative : Bool)
    (absDeltaRpsMinus1 : Nat) (choices : List RefPicChoice) : RefPicSet :=
  let offset := offset negative absDeltaRpsMinus1
  let before := reference.before.zip choices
  let after := reference.after.zip (choices.drop reference.before.length)
  let self := [RefPic.mk 0 false].zip (choices.drop reference.size)
  { coding := .inter deltaIdxMinus1 negative absDeltaRpsMinus1 choices
    before := moved offset (· < 0) (after.reverse ++ self ++ before)
    after := moved offset (0 < ·) (before.reverse ++ self ++ after) }

/-! ## Reading -/

/-- Reads what becomes of a picture of the reference. -/
def parseChoice : Reader ReadError RefPicChoice := do
  let used ← Reader.flag "used_by_curr_pic_flag"
  let kept ← Reader.optionalD (!used) (Reader.flag "use_delta_flag") true
  pure { used, kept }

/-- Reads a gap; the elements have different names for the two directions. -/
def parseGap (gapElement usedElement : String) : Reader ReadError RefPicGap := do
  let deltaPocMinus1 ← Reader.ue gapElement
  let used ← Reader.flag usedElement
  pure { deltaPocMinus1, used }

/-- Reads a set that is predicted from one of `sets` (in `ShortTermRefPicSet::read`). -/
def parseInter (index count : Nat) (sets : List RefPicSet) : Reader RefPicSetError RefPicSet := do
  let deltaIdxMinus1 ← Reader.optionalD (index == count) (Reader.ue "delta_idx_minus1") 0
  let reference ← Reader.require
    (if deltaIdxMinus1 < index then sets[index - (deltaIdxMinus1 + 1)]? else none)
    (RefPicSetError.badReference index deltaIdxMinus1)
  let negative ← Reader.flag "delta_rps_sign"
  let absDeltaRpsMinus1 ← Reader.ue "abs_delta_rps_minus1"
  Reader.ensure (absDeltaRpsMinus1 ≤ 0x7fff)
    (RefPicSetError.read (.expGolombTooLarge "abs_delta_rps_minus1"))
  let choices ← Reader.times (reference.size + 1) parseChoice
  pure (ofInter reference deltaIdxMinus1 negative absDeltaRpsMinus1 choices)

/-- Reads a set that is coded by gaps (in `ShortTermRefPicSet::read`). -/
def parseExplicit : Reader RefPicSetError RefPicSet := do
  let numBefore ← Reader.ue "num_negative_pics"
  let numAfter ← Reader.ue "num_positive_pics"
  Reader.ensure (numBefore ≤ 16) (RefPicSetError.tooManyPictures numBefore)
  Reader.ensure (numAfter ≤ 16) (RefPicSetError.tooManyPictures numAfter)
  let before ← Reader.times numBefore (parseGap "delta_poc_s0_minus1" "used_by_curr_pic_s0_flag")
  let after ← Reader.times numAfter (parseGap "delta_poc_s1_minus1" "used_by_curr_pic_s1_flag")
  pure (ofExplicit before after)

/-- Reads the set with a given index, where `sets` are the earlier ones (`ShortTermRefPicSet::read`). The
set of a slice has the index `count`, the number of sets in the sequence parameter set, and can be
predicted from any. -/
def parse (index count : Nat) (sets : List RefPicSet) : Reader RefPicSetError RefPicSet := do
  let inter ←
    Reader.optionalD (index != 0) (Reader.flag "inter_ref_pic_set_prediction_flag") false
  if inter then parseInter index count sets else parseExplicit

/-- Reads the sets from the one after `sets` on until there are `count`. -/
def parseFrom (count : Nat) : Nat → List RefPicSet → Reader RefPicSetError (List RefPicSet)
  | 0, sets => pure sets
  | n + 1, sets => do
    let set ← parse sets.length count sets
    parseFrom count n (sets ++ [set])

/-- Reads the sets of a sequence parameter set (in `SeqParameterSet::from_bits`). -/
def parseAll (count : Nat) : Reader RefPicSetError (List RefPicSet) :=
  parseFrom count count []

/-! ## Writing -/

/-- The code of what becomes of a picture of the reference. -/
def encodeChoice (c : RefPicChoice) : Code := .concat [
  .flag c.used,
  .onlyIf (!c.used) (.flag c.kept)]

/-- The code of a gap. -/
def encodeGap (g : RefPicGap) : Code := .concat [
  .ue g.deltaPocMinus1,
  .flag g.used]

/-- The code of the set with a given index (`ShortTermRefPicSet::write`). -/
def encode (index count : Nat) (s : RefPicSet) : Code :=
  match s.coding with
  | .inter deltaIdxMinus1 negative absDeltaRpsMinus1 choices => .concat [
    .ensure (index != 0) (.invalidValue "inter_ref_pic_set_prediction_flag" 1),
    .flag true,
    .onlyIf (index == count) (.ue deltaIdxMinus1),
    .flag negative,
    .ue absDeltaRpsMinus1,
    .each encodeChoice choices]
  | .explicit before after => .concat [
    .onlyIf (index != 0) (.flag false),
    .ue before.length,
    .ue after.length,
    .each encodeGap before,
    .each encodeGap after]

/-- The code of the sets of a sequence parameter set (in `write_sps`). -/
def encodeAll (sets : List RefPicSet) : Code :=
  .concat (sets.mapIdx fun index s => s.encode index sets.length)

end RefPicSet

end TiledVideo
