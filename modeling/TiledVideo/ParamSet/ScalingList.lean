import TiledVideo.Bitstream.Code
import TiledVideo.Bitstream.Reader

/-!
# Scaling lists

Twenty lists of quantisation factors: six for each of the three smaller block sizes and two for the
largest. A list is either predicted from an earlier one of its size or coded in full. Only the coded
form is kept.
-/

namespace TiledVideo

/-- Why scaling lists could not be read. -/
inductive ScalingListError where
  | read (cause : ReadError)
  /-- A first coefficient outside `-7` to `247`. -/
  | dcOutOfRange (value : Int)
  /-- A prediction from a list before the first of its size. -/
  | predictionTooFar (delta : Nat)
  deriving DecidableEq, Repr

instance : MonadLift (Reader ReadError) (Reader ScalingListError) := ⟨Reader.mapError .read⟩

/-- One list as coded. -/
inductive ScalingListEntry where
  /-- Predicted from the list so many places earlier, or from the default list if zero. -/
  | predicted (delta : Nat)
  /-- Coded in full. The first coefficient is given apart for the two larger sizes. -/
  | explicit (dcMinus8 : Option Int) (deltas : List Int)
  deriving DecidableEq, Repr, Inhabited

/-- All lists as coded (`ScalingListData`). -/
structure ScalingLists where
  entries : List ScalingListEntry
  deriving DecidableEq, Repr, Inhabited

namespace ScalingLists

/-- The size class of each list and its number within the class, in coding order
(`ScalingListData::positions`). -/
def positions : List (Nat × Nat) :=
  [(0, 0), (0, 1), (0, 2), (0, 3), (0, 4), (0, 5),
   (1, 0), (1, 1), (1, 2), (1, 3), (1, 4), (1, 5),
   (2, 0), (2, 1), (2, 2), (2, 3), (2, 4), (2, 5),
   (3, 0), (3, 3)]

/-- The number of coefficients of a list. -/
def coefficientCount (size : Nat) : Nat :=
  min 64 (2 ^ (4 + 2 * size))

/-- How far back a list can be predicted from. -/
def maxPrediction (size matrix : Nat) : Nat :=
  if size = 3 then matrix / 3 else matrix

/-- Reads the first coefficient, which is given apart. -/
def parseDc : Reader ScalingListError Int := do
  let dc ← Reader.se "scaling_list_dc_coef_minus8"
  Reader.ensure (-7 ≤ dc && dc ≤ 247) (ScalingListError.dcOutOfRange dc)
  pure dc

/-- Reads a list that is coded in full (in `ScalingListData::read`). -/
def parseExplicit (size : Nat) : Reader ScalingListError ScalingListEntry := do
  let dcMinus8 ← Reader.optional (1 < size) parseDc
  let deltas ← Reader.times (coefficientCount size) (Reader.se "scaling_list_delta_coef")
  pure (.explicit dcMinus8 deltas)

/-- Reads a list that is predicted (in `ScalingListData::read`). -/
def parsePredicted (size matrix : Nat) : Reader ScalingListError ScalingListEntry := do
  let delta ← Reader.ue "scaling_list_pred_matrix_id_delta"
  Reader.ensure (delta ≤ maxPrediction size matrix) (ScalingListError.predictionTooFar delta)
  pure (.predicted delta)

/-- Reads one list. -/
def parseEntry (position : Nat × Nat) : Reader ScalingListError ScalingListEntry := do
  let explicit ← Reader.flag "scaling_list_pred_mode_flag"
  if explicit then parseExplicit position.1 else parsePredicted position.1 position.2

/-- Reads all lists (`ScalingListData::read`). -/
def parse : Reader ScalingListError ScalingLists := do
  let entries ← Reader.each parseEntry positions
  pure { entries }

/-- The code of one list (in `ScalingListData::write`). -/
def encodeEntry : ScalingListEntry → Code
  | .predicted delta => .concat [.flag false, .ue delta]
  | .explicit dcMinus8 deltas => .concat [.flag true, .option .se dcMinus8, .each .se deltas]

/-- The code of all lists (`ScalingListData::write`). -/
def encode (s : ScalingLists) : Code := .concat [
  .ensure (s.entries.length == positions.length)
    (.invalidValue "scaling_list_data entries" s.entries.length),
  .each encodeEntry s.entries]

end ScalingLists

end TiledVideo
