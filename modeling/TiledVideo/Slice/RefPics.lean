import TiledVideo.ParamSet.Sps
import TiledVideo.Slice.Basic

/-!
# Reference pictures of a slice

Where the picture of a slice stands in output order and which other pictures it may refer to. None
of this is coded for pictures that refer to no other. Long-term reference pictures can be read, but
not written.
-/

namespace TiledVideo

/-- The short-term reference picture set of a slice (`SliceRefPicSet`). -/
inductive ShortTermChoice where
  /-- A set of the sequence parameter set. -/
  | listed (index : Nat)
  /-- A set of the slice's own. -/
  | explicit (set : RefPicSet)
  deriving DecidableEq, Repr, Inhabited

namespace ShortTermChoice

/-- The set that is chosen from those of the sequence parameter set (`rps_for`). -/
def resolve (sets : List RefPicSet) : ShortTermChoice → Option RefPicSet
  | listed index => sets[index]?
  | explicit set => some set

/-- Reads the index of a set; it takes no bits if there is only one. -/
def parseListed (sets : List RefPicSet) : Reader SliceError ShortTermChoice := do
  let index ← Reader.uint (Bits.widthFor sets.length) "short_term_ref_pic_set_idx"
  Reader.ensure (index < sets.length) (SliceError.fieldTooLarge "short_term_ref_pic_set_idx" index)
  pure (listed index)

/-- Reads which set is chosen (in `SliceSegmentHeader::read_independent`). -/
def parse (sets : List RefPicSet) : Reader SliceError ShortTermChoice := do
  let isListed ← Reader.flag "short_term_ref_pic_set_sps_flag"
  if isListed then parseListed sets
  else explicit <$> (RefPicSet.parse sets.length sets.length sets : Reader RefPicSetError RefPicSet)

/-- The code of which set is chosen, from those of the sequence parameter set that is written (in
`write_independent`). -/
def encode (sets : List RefPicSet) : ShortTermChoice → Code
  | explicit set => .concat [.flag false, set.encode sets.length sets.length]
  | listed index => .concat [
    .ensure (index < sets.length) (.invalidValue "short_term_ref_pic_set_idx" index),
    .flag true,
    .uint (Bits.widthFor sets.length) index]

end ShortTermChoice

/-- Where a long-term reference picture comes from (`LongTermPicSource`). -/
inductive LongTermSource where
  /-- A candidate of the sequence parameter set. -/
  | listed (index : Nat)
  | explicit (candidate : LongTermCandidate)
  deriving DecidableEq, Repr, Inhabited

/-- A long-term reference picture of a slice. -/
structure LongTermPic where
  source : LongTermSource
  /-- The high part of its distance in output order, where the low part does not tell enough. -/
  deltaPocMsbCycle : Option Nat
  deriving DecidableEq, Repr, Inhabited

/-- The long-term reference pictures of a slice. -/
structure LongTermRefs where
  /-- How many of the pictures, at the front of the list, are candidates of the sequence. -/
  numListed : Nat
  pics : List LongTermPic
  deriving DecidableEq, Repr, Inhabited

namespace LongTermPic

/-- Reads the high part of the distance. -/
def parseMsbCycle : Reader ReadError (Option Nat) := do
  let present ← Reader.flag "delta_poc_msb_present_flag"
  Reader.optional present (Reader.ue "delta_poc_msb_cycle_lt")

/-- Reads a picture that is a candidate of the sequence. -/
def parseListed (candidates : List LongTermCandidate) : Reader ReadError LongTermPic := do
  let index ← Reader.uint (Bits.widthFor candidates.length) "lt_idx_sps"
  let deltaPocMsbCycle ← parseMsbCycle
  pure { source := .listed index, deltaPocMsbCycle }

/-- Reads a picture whose place is given in `width` bits. -/
def parseExplicit (width : Nat) : Reader ReadError LongTermPic := do
  let pocLsb ← Reader.uint width "poc_lsb_lt"
  let used ← Reader.flag "used_by_curr_pic_lt_flag"
  let deltaPocMsbCycle ← parseMsbCycle
  pure { source := .explicit { pocLsb, used }, deltaPocMsbCycle }

/-- Whether the current picture may refer to the picture. -/
def isUsed (candidates : List LongTermCandidate) (p : LongTermPic) : Bool :=
  match p.source with
  | .listed index => candidates[index]?.any (·.used)
  | .explicit candidate => candidate.used

end LongTermPic

/-- Reads the long-term reference pictures (`read_long_term_refs`). -/
def LongTermRefs.parse (width : Nat) (candidates : List LongTermCandidate) :
    Reader SliceError LongTermRefs := do
  let numListed ← Reader.optionalD (!candidates.isEmpty)
    (SliceError.ueUpTo candidates.length "num_long_term_sps") 0
  let numExplicit ← SliceError.ueUpTo 32 "num_long_term_pics"
  let listed ← Reader.times numListed (LongTermPic.parseListed candidates)
  let explicit ← Reader.times numExplicit (LongTermPic.parseExplicit width)
  pure { numListed, pics := listed ++ explicit }

/-- The reference pictures of a slice. -/
structure RefPics where
  /-- The low bits of the place in output order. -/
  pocLsb : Nat
  /-- Absent for pictures that refer to no other. -/
  shortTerm : Option ShortTermChoice
  longTerm : Option LongTermRefs
  /-- Whether motion can be predicted from another picture. -/
  temporalMvp : Bool
  deriving DecidableEq, Repr, Inhabited

namespace RefPics

/-- What holds for pictures that refer to no other. -/
def absent : RefPics := ⟨0, none, none, false⟩

/-- Reads the reference pictures of a slice (in `SliceSegmentHeader::read_independent`). -/
def parse (sps : Sps) : Reader SliceError RefPics := do
  let pocLsb ← Reader.uint sps.log2MaxPocLsb "slice_pic_order_cnt_lsb"
  let shortTerm ← ShortTermChoice.parse sps.refPicSets
  let longTerm ← match sps.longTerm with
    | some candidates => some <$> LongTermRefs.parse sps.log2MaxPocLsb candidates
    | none => pure none
  let temporalMvp ←
    Reader.optionalD sps.temporalMvp (Reader.flag "slice_temporal_mvp_enabled_flag") false
  pure { pocLsb, shortTerm := some shortTerm, longTerm, temporalMvp }

/-- The code of the reference pictures of a slice (in `write_independent`). -/
def encode (sps : Sps) (r : RefPics) : Code := .concat [
  .uint sps.log2MaxPocLsb r.pocLsb,
  match r.shortTerm with
  | some choice => choice.encode sps.refPicSets
  | none => .error (.unsupported "missing short_term_ref_pic_set"),
  .onlyIf sps.temporalMvp (.flag r.temporalMvp)]

/-- The short-term reference picture set in effect (`SliceSegmentHeader::short_term_rps`). -/
def shortTermSet (sps : Sps) (r : RefPics) : Option RefPicSet :=
  r.shortTerm.bind (·.resolve sps.refPicSets)

/-- The number of short-term pictures that the slice may refer to. -/
def shortTermCount (sps : Sps) (r : RefPics) : Nat :=
  match r.shortTermSet sps with
  | some set => set.usedCount
  | none => 0

/-- The number of pictures that the slice may refer to (`SliceSegmentHeader::num_pic_total_curr`). -/
def totalCount (sps : Sps) (r : RefPics) : Nat :=
  r.shortTermCount sps +
    match r.longTerm with
    | some refs => refs.pics.countP (·.isUsed (sps.longTerm.getD []))
    | none => 0

end RefPics

end TiledVideo
