import TiledVideo.ParamSet.Pps
import TiledVideo.ParamSet.Vps

/-!
# Parameter sets in force

A decoder keeps the latest parameter set of each kind and number.

Results:

* `spsById_putSps`, `ppsById_putPps`, `vpsById_putVps`: a set that is put in is found under its
  number and changes nothing else.
* `mem_vpsIds`, `mem_spsIds`, `mem_ppsIds`: the numbers in use are those under which a set is found.
-/

namespace TiledVideo

/-- The parameter sets that a decoder knows. -/
structure Context where
  vpsSlots : Vector (Option Vps) 16
  spsSlots : Vector (Option Sps) 16
  ppsSlots : Vector (Option Pps) 64
  deriving DecidableEq, Inhabited

namespace Context

/-- No parameter sets (`Context::default`). -/
def empty : Context where
  vpsSlots := .replicate 16 none
  spsSlots := .replicate 16 none
  ppsSlots := .replicate 64 none

/-- The video parameter set with a given number (`Context::vps_by_id`). -/
def vpsById (c : Context) (id : VpsId) : Option Vps := c.vpsSlots[id]

/-- The sequence parameter set with a given number (`Context::sps_by_id`). -/
def spsById (c : Context) (id : SpsId) : Option Sps := c.spsSlots[id]

/-- The picture parameter set with a given number (`Context::pps_by_id`). -/
def ppsById (c : Context) (id : PpsId) : Option Pps := c.ppsSlots[id]

/-- The sequence parameter set that a picture parameter set names. -/
def spsOf (c : Context) (p : Pps) : Option Sps := c.spsById p.spsId

/-- The picture parameter set with a given number, after the sequence parameter set that it names.
-/
def paramSets (c : Context) (id : PpsId) : Option (Sps × Pps) := do
  let pps ← c.ppsById id
  let sps ← c.spsOf pps
  pure (sps, pps)

/-! ## Numbers in use -/

/-- The numbers of the video parameter sets, in increasing order (`Context::vps`). -/
def vpsIds (c : Context) : List VpsId :=
  (List.finRange 16).filter fun id => (c.vpsById id).isSome

/-- The numbers of the sequence parameter sets, in increasing order (`Context::sps`). -/
def spsIds (c : Context) : List SpsId :=
  (List.finRange 16).filter fun id => (c.spsById id).isSome

/-- The numbers of the picture parameter sets, in increasing order (`Context::pps`). -/
def ppsIds (c : Context) : List PpsId :=
  (List.finRange 64).filter fun id => (c.ppsById id).isSome

theorem mem_vpsIds (c : Context) (id : VpsId) : id ∈ c.vpsIds ↔ (c.vpsById id).isSome = true := by
  simp [vpsIds, List.mem_finRange]

theorem mem_spsIds (c : Context) (id : SpsId) : id ∈ c.spsIds ↔ (c.spsById id).isSome = true := by
  simp [spsIds, List.mem_finRange]

theorem mem_ppsIds (c : Context) (id : PpsId) : id ∈ c.ppsIds ↔ (c.ppsById id).isSome = true := by
  simp [ppsIds, List.mem_finRange]

/-! ## Putting in parameter sets -/

/-- Puts in a video parameter set (`Context::put_video_param_set`). -/
def putVps (c : Context) (v : Vps) : Context :=
  { c with vpsSlots := c.vpsSlots.set v.id (some v) }

/-- Puts in a sequence parameter set (`Context::put_seq_param_set`). -/
def putSps (c : Context) (s : Sps) : Context :=
  { c with spsSlots := c.spsSlots.set s.id (some s) }

/-- Puts in a picture parameter set (`Context::put_pic_param_set`). -/
def putPps (c : Context) (p : Pps) : Context :=
  { c with ppsSlots := c.ppsSlots.set p.id (some p) }

theorem vpsById_putVps (c : Context) (v : Vps) (id : VpsId) :
    (c.putVps v).vpsById id = if v.id = id then some v else c.vpsById id := by
  simp [putVps, vpsById, Vector.getElem_set, Fin.ext_iff]

@[simp] theorem spsById_empty (id : SpsId) : empty.spsById id = none := by
  simp [spsById, empty]

@[simp] theorem ppsById_empty (id : PpsId) : empty.ppsById id = none := by
  simp [ppsById, empty]

theorem spsById_putSps (c : Context) (s : Sps) (id : SpsId) :
    (c.putSps s).spsById id = if s.id = id then some s else c.spsById id := by
  simp [putSps, spsById, Vector.getElem_set, Fin.ext_iff]

theorem ppsById_putPps (c : Context) (p : Pps) (id : PpsId) :
    (c.putPps p).ppsById id = if p.id = id then some p else c.ppsById id := by
  simp [putPps, ppsById, Vector.getElem_set, Fin.ext_iff]

/-! ## Decoding parameter sets -/

/-- The video parameter set in a payload (`VideoParamSet::from_bits`). -/
def decodeVps (payload : Bytes) : Except VpsError Vps :=
  Vps.parse.decode payload

/-- The sequence parameter set in a payload (`SeqParameterSet::from_bits`). -/
def decodeSps (payload : Bytes) : Except SpsError Sps :=
  Sps.parse.decode payload

/-- The picture parameter set in a payload, read against the sets that are known
(`PicParameterSet::from_bits`). -/
def decodePps (c : Context) (payload : Bytes) : Except PpsError Pps :=
  (Pps.parse c.spsById).decode payload

end Context

end TiledVideo
