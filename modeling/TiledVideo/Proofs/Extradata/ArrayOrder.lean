import Mathlib.Data.Fin.VecNotation
import Mathlib.Data.List.Sort
import TiledVideo.Proofs.Extradata.Carriages
import TiledVideo.Proofs.Extradata.Grammar

/-!
# The order of arrays

A record may list its arrays in any order. Arrays of one type must keep theirs, since a parameter set takes
the place of one with the same number that came before it, and the first picture parameter set is that of
the first unit. All else is the same: sets come into force by type, so those of the video are there when
those of the sequence are read, wherever their arrays stand, and what fails first is what fails first in
the order of the types.

Results:

* `filter_eq_of_reordered`: entries in another order, in which those of one key keep theirs.
* `context_congr`, `decodeConfig_congr`: what the sets in force depend on.
* `reordered_alike`: two records of the same arrays in another order.
-/

namespace TiledVideo

/-! ## Entries in another order -/

section Order

variable {α κ : Type} {key : α → κ} {as bs : List α}

/-- The second list has the entries of the first, each at a place of its own, and entries of one key are
in the same order. -/
def Reordered (key : α → κ) (as bs : List α) : Prop :=
  ∃ place : Fin as.length ≃ Fin bs.length, (∀ i, bs[place i] = as[i]) ∧
    ∀ i j, i < j → key as[i] = key as[j] → place i < place j

variable [DecidableEq κ]

/-- The places of the entries with a key, in order. -/
def placesOf (key : α → κ) (as : List α) (k : κ) : List (Fin as.length) :=
  (List.finRange as.length).filter fun i => key as[i] = k

theorem mem_placesOf {k : κ} {i : Fin as.length} : i ∈ placesOf key as k ↔ key as[i] = k := by
  simp [placesOf, List.mem_finRange]

theorem pairwise_placesOf (k : κ) : (placesOf key as k).Pairwise (· < ·) :=
  (List.pairwise_lt_finRange as.length).filter _

theorem map_placesOf (k : κ) :
    (placesOf key as k).map (fun i => as[i]) = as.filter fun a => key a = k := by
  have hall : (List.finRange as.length).map (fun i => as[i]) = as := List.map_getElem_finRange as
  conv_rhs => rw [← hall, List.filter_map]
  rfl

/-- The places of the entries with a key go over into the places that they have in the other list. -/
theorem map_place_placesOf {place : Fin as.length ≃ Fin bs.length} (hentry : ∀ i, bs[place i] = as[i])
    (horder : ∀ i j, i < j → key as[i] = key as[j] → place i < place j) (k : κ) :
    (placesOf key as k).map place = placesOf key bs k := by
  have hincreasing : ((placesOf key as k).map place).Pairwise (· < ·) := by
    rw [List.pairwise_map]
    refine (pairwise_placesOf k).imp_of_mem fun hi hj hlt => ?_
    exact horder _ _ hlt ((mem_placesOf.1 hi).trans (mem_placesOf.1 hj).symm)
  refine hincreasing.eq_of_mem_iff (pairwise_placesOf k) fun j => ?_
  rw [List.mem_map, mem_placesOf]
  constructor
  · rintro ⟨i, hi, rfl⟩
    rw [hentry]
    exact mem_placesOf.1 hi
  · intro hj
    obtain ⟨i, rfl⟩ := place.surjective j
    rw [hentry] at hj
    exact ⟨i, mem_placesOf.2 hj, rfl⟩

/-- Entries of one key are the same list in any order that keeps theirs. -/
theorem filter_eq_of_reordered (h : Reordered key as bs) (k : κ) :
    (as.filter fun a => key a = k) = bs.filter fun b => key b = k := by
  obtain ⟨place, hentry, horder⟩ := h
  rw [← map_placesOf, ← map_placesOf, ← map_place_placesOf hentry horder, List.map_map]
  exact List.map_congr_left fun i _ => (hentry i).symm

end Order

/-! ## Records -/

namespace DecoderConfig

variable {config config' : DecoderConfig}

theorem unitsOfType_of_reordered (h : Reordered NalArray.unitType config.arrays config'.arrays)
    (unitType : UnitType) : config.unitsOfType unitType = config'.unitsOfType unitType := by
  rw [unitsOfType, unitsOfType, filter_eq_of_reordered h]

/-- The sets in force depend on the units of each type alone. -/
theorem context_congr (h : ∀ unitType, config.unitsOfType unitType = config'.unitsOfType unitType) :
    config.context = config'.context := by
  simp only [context, h]

theorem decodeConfig_congr {bytes bytes' : Bytes} (hread : decode bytes = .ok config)
    (hread' : decode bytes' = .ok config')
    (h : ∀ unitType, config.unitsOfType unitType = config'.unitsOfType unitType) :
    Extradata.decodeConfig bytes = Extradata.decodeConfig bytes' := by
  rw [Extradata.decodeConfig, hread, Extradata.decodeConfig, hread']
  show (config.context >>= _) = (config'.context >>= _)
  rw [context_congr h, h]

theorem decode_of_config {bytes : Bytes} (hread : decode bytes = .ok config) :
    Extradata.decode bytes = (Extradata.decodeConfig bytes).mapError .config := by
  obtain ⟨arrays, rest, hsound, rfl, -⟩ := decode_eq_ok_iff.1 hread
  exact decode_recordBytes hsound rest

/-- Two records that are read, with the same arrays in another order that keeps the order of those of one
type. They bring the same sets into force or fail in the same way, and as extradata they give the same
first picture parameter set and the same grid, or the same error. -/
theorem reordered_alike {bytes bytes' : Bytes} (hread : decode bytes = .ok config)
    (hread' : decode bytes' = .ok config')
    (h : Reordered NalArray.unitType config.arrays config'.arrays) :
    config.context = config'.context ∧ Extradata.decode bytes = Extradata.decode bytes' ∧
      Extradata.tileCount bytes = Extradata.tileCount bytes' := by
  have hunits := unitsOfType_of_reordered h
  have hdecode : Extradata.decode bytes = Extradata.decode bytes' := by
    rw [decode_of_config hread, decode_of_config hread', decodeConfig_congr hread hread' hunits]
  refine ⟨context_congr hunits, hdecode, ?_⟩
  rw [Extradata.tileCount, hdecode, Extradata.tileCount]

end DecoderConfig

/-! ## A record whose sets of pictures are parted -/

namespace Sample

open DecoderConfig

/-- The fixed bytes of a record with four arrays. -/
def fixedOfFour : Vector UInt8 23 :=
  toFixed [1, 1, 96, 0, 0, 0, 144, 0, 0, 0, 0, 0, 93, 240, 0, 252, 253, 248, 248, 0, 0, 15, 4]

/-- The record of four arrays. -/
def recordOf (arrays : List (UInt8 × List Bytes)) : DecoderConfig :=
  ⟨fixedOfFour, arrays.map fun array => arrayOf array.1 array.2⟩

/-- Two sets of pictures with one number, of which the first stands in front of the set that it names. -/
def parted : List (UInt8 × List Bytes) :=
  [(160, [vpsUnit]), (34, [ppsUnit]), (161, [spsUnit]), (34, [oneTileUnit])]

/-- The same arrays, with those of pictures in front. -/
def gathered : List (UInt8 × List Bytes) :=
  [(34, [ppsUnit]), (34, [oneTileUnit]), (160, [vpsUnit]), (161, [spsUnit])]

/-- Where the parted arrays stand when they are gathered. -/
def gather : Fin 4 ≃ Fin 4 where
  toFun := ![2, 0, 3, 1]
  invFun := ![1, 3, 0, 2]
  left_inv i := by decide +revert
  right_inv i := by decide +revert

theorem reordered_gathered :
    Reordered NalArray.unitType (recordOf parted).arrays (recordOf gathered).arrays :=
  ⟨gather, by decide, by decide⟩

end Sample

open Sample DecoderConfig in
theorem reordered_alike_sample :
    DecoderConfig.decode (recordBytes fixedOfFour parted) = .ok (recordOf parted) ∧
      DecoderConfig.decode (recordBytes fixedOfFour gathered) = .ok (recordOf gathered) ∧
      Reordered NalArray.unitType (recordOf parted).arrays (recordOf gathered).arrays ∧
      (recordOf parted).context = (recordOf gathered).context ∧
      Extradata.decode (recordBytes fixedOfFour gathered) = .ok readSets ∧
      Extradata.tileCount (recordBytes fixedOfFour gathered) = .ok ⟨1, 2⟩ := by
  have hparted : DecoderConfig.decode (recordBytes fixedOfFour parted) = .ok (recordOf parted) := by
    decide +kernel
  have hgathered : DecoderConfig.decode (recordBytes fixedOfFour gathered) =
      .ok (recordOf gathered) := by
    decide +kernel
  obtain ⟨hcontext, hdecode, hcount⟩ :=
    DecoderConfig.reordered_alike hparted hgathered reordered_gathered
  have hread : Extradata.decode (recordBytes fixedOfFour parted) = .ok readSets := by decide +kernel
  have htiles : Extradata.tileCount (recordBytes fixedOfFour parted) = .ok ⟨1, 2⟩ := by
    decide +kernel
  exact ⟨hparted, hgathered, reordered_gathered, hcontext, hdecode ▸ hread, hcount ▸ htiles⟩

open Sample DecoderConfig in
example : Extradata.tileCount (recordBytes fixedOfFour
    [(160, [vpsUnit]), (34, [oneTileUnit]), (161, [spsUnit]), (34, [ppsUnit])]) = .ok ⟨1, 1⟩ := by
  decide +kernel

end TiledVideo
