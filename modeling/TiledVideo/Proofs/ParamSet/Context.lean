import TiledVideo.AccessUnit
import TiledVideo.Proofs.ParamSet.Pps
import TiledVideo.Proofs.ParamSet.Vps

/-!
# Parameter sets in force that have been read

Results:

* `Context.Parsed`: each set in force was given by a reader and stands under its own number.
* `Context.Parsed.decode`: access units that are read keep it so.
* `DecoderState.decodeBase_eq_ok_iff`: what a unit of the base layer is read as.
* `AccessUnit.yieldsAll_of_decode`: each unit of an access unit was given by its reader.
* `DecoderState.vpsById_after`, `DecoderState.spsById_after`, `DecoderState.ppsById_after`: the sets in
  force after some units are the last ones among them.
* `ctx_after_eq_iff`: when all sets in force stay the same.
* `paramSets_after_eq_iff`: when they are those in force before.
-/

namespace TiledVideo

open Reader

namespace Context

/-- Each set in force was given by a reader and stands under its own number. A picture parameter set
may have been read with other sequence parameter sets than those in force now. -/
structure Parsed (c : Context) : Prop where
  vps : ∀ id v, c.vpsById id = some v → v.id = id ∧ Vps.parse.Produces v
  sps : ∀ id s, c.spsById id = some s → s.id = id ∧ Sps.parse.Produces s
  pps : ∀ id p, c.ppsById id = some p → p.id = id ∧ ∃ known, (Pps.parse known).Produces p

variable {c : Context}

/-- A context is what is found in it. -/
theorem ext_byId {c c' : Context} (hvps : ∀ id, c.vpsById id = c'.vpsById id)
    (hsps : ∀ id, c.spsById id = c'.spsById id) (hpps : ∀ id, c.ppsById id = c'.ppsById id) :
    c = c' := by
  obtain ⟨vps, sps, pps⟩ := c
  obtain ⟨vps', sps', pps'⟩ := c'
  obtain rfl : vps = vps' := Vector.ext fun i hi => hvps ⟨i, hi⟩
  obtain rfl : sps = sps' := Vector.ext fun i hi => hsps ⟨i, hi⟩
  obtain rfl : pps = pps' := Vector.ext fun i hi => hpps ⟨i, hi⟩
  rfl

theorem paramSets_eq_some_iff {id : PpsId} {s : Sps} {p : Pps} :
    c.paramSets id = some (s, p) ↔ c.ppsById id = some p ∧ c.spsOf p = some s := by
  simp only [paramSets, Option.bind_eq_bind, Option.bind_eq_some_iff, Option.pure_def,
    Option.some.injEq, Prod.mk.injEq]
  constructor
  · rintro ⟨p, hp, s, hs, rfl, rfl⟩
    exact ⟨hp, hs⟩
  · rintro ⟨hp, hs⟩
    exact ⟨p, hp, s, hs, rfl, rfl⟩

theorem Parsed.empty : Context.empty.Parsed := by
  refine ⟨fun id v h => ?_, fun id s h => ?_, fun id p h => ?_⟩
  · simp [vpsById, Context.empty] at h
  · simp [spsById, Context.empty] at h
  · simp [ppsById, Context.empty] at h

theorem Parsed.putVps (h : c.Parsed) {v : Vps} (hv : Vps.parse.Produces v) :
    (c.putVps v).Parsed := by
  refine ⟨fun id w hw => ?_, h.sps, h.pps⟩
  rw [vpsById_putVps] at hw
  split at hw
  · next hid =>
    cases hw
    exact ⟨hid, hv⟩
  · exact h.vps id w hw

theorem Parsed.putSps (h : c.Parsed) {s : Sps} (hs : Sps.parse.Produces s) :
    (c.putSps s).Parsed := by
  refine ⟨h.vps, fun id t ht => ?_, h.pps⟩
  rw [spsById_putSps] at ht
  split at ht
  · next hid =>
    cases ht
    exact ⟨hid, hs⟩
  · exact h.sps id t ht

theorem Parsed.putPps (h : c.Parsed) {p : Pps} {known : SpsId → Option Sps}
    (hp : (Pps.parse known).Produces p) : (c.putPps p).Parsed := by
  refine ⟨h.vps, h.sps, fun id q hq => ?_⟩
  rw [ppsById_putPps] at hq
  split at hq
  · next hid =>
    cases hq
    exact ⟨hid, known, hp⟩
  · exact h.pps id q hq

/-- The sequence parameter set that a picture parameter set names stands under the number that it
names. -/
theorem Parsed.spsOf (h : c.Parsed) {p : Pps} {s : Sps} (hs : c.spsOf p = some s) :
    s.id = p.spsId ∧ Sps.parse.Produces s :=
  h.sps p.spsId s hs

end Context

/-! ## Access units -/

namespace DecoderState

theorem ne_of_isSlice {unitType : UnitType} (h : unitType.isSlice = true) :
    unitType ≠ .vps ∧ unitType ≠ .sps ∧ unitType ≠ .pps :=
  ⟨(by rintro rfl; cases h), (by rintro rfl; cases h), (by rintro rfl; cases h)⟩

section Base

variable {s : DecoderState} {header : NalHeader} {nal : Bytes} {unit : DecodedUnit}

/-- What a unit of the base layer is read as. The type that its header gives says what its payload is;
units of other types are passed over, whatever is in them. -/
inductive DecodesBase (s : DecoderState) (header : NalHeader) (nal : Bytes) : DecodedUnit → Prop where
  | vps {payload : Bytes} {set : Vps} (htype : header.unitType = .vps)
    (hpayload : nalPayload nal = .ok payload) (hset : Context.decodeVps payload = .ok set) :
    DecodesBase s header nal (.vps set)
  | sps {payload : Bytes} {set : Sps} (htype : header.unitType = .sps)
    (hpayload : nalPayload nal = .ok payload) (hset : Context.decodeSps payload = .ok set) :
    DecodesBase s header nal (.sps set)
  | pps {payload : Bytes} {set : Pps} (htype : header.unitType = .pps)
    (hpayload : nalPayload nal = .ok payload) (hset : s.ctx.decodePps payload = .ok set) :
    DecodesBase s header nal (.pps set)
  | slice {payload : Bytes} {segment : SliceUnit} (htype : header.unitType.isSlice = true)
    (hpayload : nalPayload nal = .ok payload)
    (hsegment : SliceUnit.decode s.ctx s.lastIndependent header payload = .ok segment) :
    DecodesBase s header nal (.slice segment)
  | other (htype : header.unitType ≠ .vps ∧ header.unitType ≠ .sps ∧ header.unitType ≠ .pps ∧
      header.unitType.isSlice = false) : DecodesBase s header nal (.other header)

theorem decodeBase_eq_ok_iff : s.decodeBase header nal = .ok unit ↔
    s.DecodesBase header nal unit := by
  constructor
  · intro h
    unfold decodeBase at h
    split_ifs at h with hvps hsps hpps hslice
    · obtain ⟨payload, hpayload, h⟩ := bind_eq_ok_iff.1 h
      obtain ⟨set, hset, rfl⟩ := map_eq_ok_iff.1 h
      exact .vps hvps (mapError_eq_ok_iff.1 hpayload) (mapError_eq_ok_iff.1 hset)
    · obtain ⟨payload, hpayload, h⟩ := bind_eq_ok_iff.1 h
      obtain ⟨set, hset, rfl⟩ := map_eq_ok_iff.1 h
      exact .sps hsps (mapError_eq_ok_iff.1 hpayload) (mapError_eq_ok_iff.1 hset)
    · obtain ⟨payload, hpayload, h⟩ := bind_eq_ok_iff.1 h
      obtain ⟨set, hset, rfl⟩ := map_eq_ok_iff.1 h
      exact .pps hpps (mapError_eq_ok_iff.1 hpayload) (mapError_eq_ok_iff.1 hset)
    · obtain ⟨payload, hpayload, h⟩ := bind_eq_ok_iff.1 h
      obtain ⟨segment, hsegment, rfl⟩ := map_eq_ok_iff.1 h
      exact .slice hslice (mapError_eq_ok_iff.1 hpayload) (mapError_eq_ok_iff.1 hsegment)
    · cases h
      exact .other ⟨hvps, hsps, hpps, Bool.eq_false_iff.2 hslice⟩
  · intro h
    cases h with
    | vps htype hpayload hset =>
      rw [decodeBase, if_pos htype]
      exact bind_eq_ok_iff.2 ⟨_, mapError_eq_ok_iff.2 hpayload,
        map_eq_ok_iff.2 ⟨_, mapError_eq_ok_iff.2 hset, rfl⟩⟩
    | sps htype hpayload hset =>
      rw [decodeBase, htype, if_neg (by decide), if_pos rfl]
      exact bind_eq_ok_iff.2 ⟨_, mapError_eq_ok_iff.2 hpayload,
        map_eq_ok_iff.2 ⟨_, mapError_eq_ok_iff.2 hset, rfl⟩⟩
    | pps htype hpayload hset =>
      rw [decodeBase, htype, if_neg (by decide), if_neg (by decide), if_pos rfl]
      exact bind_eq_ok_iff.2 ⟨_, mapError_eq_ok_iff.2 hpayload,
        map_eq_ok_iff.2 ⟨_, mapError_eq_ok_iff.2 hset, rfl⟩⟩
    | slice htype hpayload hsegment =>
      obtain ⟨hvps, hsps, hpps⟩ := ne_of_isSlice htype
      rw [decodeBase, if_neg hvps, if_neg hsps, if_neg hpps, if_pos htype]
      exact bind_eq_ok_iff.2 ⟨_, mapError_eq_ok_iff.2 hpayload,
        map_eq_ok_iff.2 ⟨_, mapError_eq_ok_iff.2 hsegment, rfl⟩⟩
    | other htype =>
      obtain ⟨hvps, hsps, hpps, hslice⟩ := htype
      rw [decodeBase, if_neg hvps, if_neg hsps, if_neg hpps, if_neg (by simp [hslice])]
      rfl

/-- Units of other layers are passed over. -/
theorem decodeNal_eq_ok_iff : s.decodeNal nal = .ok unit ↔
    ∃ header, NalHeader.ofBytes nal = .ok header ∧
      (header.layerId = 0 ∧ s.DecodesBase header nal unit ∨
        header.layerId ≠ 0 ∧ unit = .other header) := by
  simp only [decodeNal, bind_eq_ok_iff, mapError_eq_ok_iff]
  refine exists_congr fun header => and_congr_right fun _ => ?_
  by_cases hlayer : header.layerId = 0
  · simp [hlayer, decodeBase_eq_ok_iff]
  · simp [hlayer, pure, Except.pure, eq_comm]

end Base

/-- A unit is one that a decoder may give: its readers give what is in it. -/
def Yields (s : DecoderState) : DecodedUnit → Prop
  | .vps set => Vps.parse.Produces set
  | .sps set => Sps.parse.Produces set
  | .pps set => (Pps.parse s.ctx.spsById).Produces set
  | .slice segment =>
    (segment.nalHeader.layerId = 0 ∧ segment.nalHeader.unitType.isSlice = true) ∧
      (SliceHeader.parse s.ctx segment.nalHeader.unitType s.lastIndependent).Produces
        segment.header
  | .other _ => True

/-- Units are ones that a decoder may give one after the other. -/
def YieldsAll : DecoderState → List DecodedUnit → Prop
  | _, [] => True
  | s, unit :: units => s.Yields unit ∧ (s.after unit).YieldsAll units

theorem yields_of_decodeNal {s : DecoderState} {nal : Bytes} {unit : DecodedUnit}
    (h : s.decodeNal nal = .ok unit) : s.Yields unit := by
  obtain ⟨header, -, ⟨hlayer, hbase⟩ | ⟨-, rfl⟩⟩ := decodeNal_eq_ok_iff.1 h
  · cases hbase with
    | vps htype hpayload hset => exact produces_of_decode hset
    | sps htype hpayload hset => exact produces_of_decode hset
    | pps htype hpayload hset => exact produces_of_decode hset
    | slice htype hpayload hsegment =>
      obtain ⟨⟨sliceHeader, n⟩, hheader, hsegment⟩ := bind_eq_ok_iff.1 hsegment
      cases hsegment
      exact ⟨⟨hlayer, htype⟩, produces_of_decodeFront hheader⟩
    | other htype => trivial
  · trivial

theorem yieldsAll_of_decodeNals {s s' : DecoderState} {nals : List Bytes}
    {units : List DecodedUnit} (h : s.decodeNals nals = .ok (units, s')) :
    s.YieldsAll units ∧ s' = units.foldl after s := by
  induction nals generalizing s units with
  | nil =>
    cases h
    exact ⟨trivial, rfl⟩
  | cons nal nals ih =>
    obtain ⟨unit, hunit, h⟩ := bind_eq_ok_iff.1 h
    obtain ⟨⟨later, last⟩, hlater, h⟩ := bind_eq_ok_iff.1 h
    cases h
    obtain ⟨hyields, rfl⟩ := ih hlater
    exact ⟨⟨yields_of_decodeNal hunit, hyields⟩, rfl⟩

theorem after_slice_ctx (s : DecoderState) (segment : SliceUnit) :
    (s.after (.slice segment)).ctx = s.ctx := by
  simp only [after]
  split <;> rfl

theorem Yields.parsed {s : DecoderState} {unit : DecodedUnit} (h : s.Yields unit)
    (hs : s.ctx.Parsed) : (s.after unit).ctx.Parsed := by
  cases unit with
  | vps set => exact hs.putVps h
  | sps set => exact hs.putSps h
  | pps set => exact hs.putPps h
  | slice segment =>
    rw [after_slice_ctx]
    exact hs
  | other header => exact hs

theorem YieldsAll.parsed {s : DecoderState} {units : List DecodedUnit} (h : s.YieldsAll units)
    (hs : s.ctx.Parsed) : (units.foldl after s).ctx.Parsed := by
  induction units generalizing s with
  | nil => exact hs
  | cons unit units ih => exact ih h.2 (h.1.parsed hs)

theorem yieldsAll_append {s : DecoderState} {a b : List DecodedUnit} :
    s.YieldsAll (a ++ b) ↔ s.YieldsAll a ∧ (a.foldl after s).YieldsAll b := by
  induction a generalizing s with
  | nil => exact ⟨fun h => ⟨trivial, h⟩, fun h => h.2⟩
  | cons unit a ih =>
    rw [List.cons_append, YieldsAll, ih, YieldsAll, List.foldl_cons, and_assoc]

theorem YieldsAll.produces_vps {s : DecoderState} {units : List DecodedUnit}
    (h : s.YieldsAll units) {v : Vps} (hv : .vps v ∈ units) : Vps.parse.Produces v := by
  induction units generalizing s with
  | nil => exact absurd hv List.not_mem_nil
  | cons unit units ih =>
    obtain hv | hv := List.mem_cons.1 hv
    · subst hv
      exact h.1
    · exact ih h.2 hv

/-- A slice is a slice unit of the base layer. -/
theorem YieldsAll.slice_unitType {s : DecoderState} {units : List DecodedUnit}
    (h : s.YieldsAll units) {segment : SliceUnit} (hmem : .slice segment ∈ units) :
    segment.nalHeader.layerId = 0 ∧ segment.nalHeader.unitType.isSlice = true := by
  induction units generalizing s with
  | nil => exact absurd hmem List.not_mem_nil
  | cons unit units ih =>
    rcases List.mem_cons.1 hmem with hmem | hmem
    · subst hmem
      exact h.1.1
    · exact ih h.2 hmem

end DecoderState

theorem AccessUnit.mem_slices_iff {au : AccessUnit} {segment : SliceUnit} :
    segment ∈ au.slices ↔ .slice segment ∈ au.units := by
  rw [slices, List.mem_filterMap]
  constructor
  · rintro ⟨unit, hunit, hslice⟩
    cases unit with
    | slice segment' =>
      cases hslice
      exact hunit
    | _ => cases hslice
  · exact fun h => ⟨_, h, rfl⟩

/-- The units of an access unit are given by a decoder. -/
theorem AccessUnit.yieldsAll_of_decode {c c' : Context} {bytes : Bytes} {au : AccessUnit}
    (h : AccessUnit.decode c bytes = .ok (au, c')) :
    (DecoderState.start c).YieldsAll au.units ∧
      c' = (au.units.foldl DecoderState.after (.start c)).ctx := by
  obtain ⟨found, -, h⟩ := bind_eq_ok_iff.1 h
  obtain ⟨⟨units, last⟩, hunits, h⟩ := bind_eq_ok_iff.1 h
  cases h
  obtain ⟨hyields, rfl⟩ := DecoderState.yieldsAll_of_decodeNals hunits
  exact ⟨hyields, rfl⟩

/-- An access unit that is read brings into force only sets that were read. -/
theorem Context.Parsed.decode {c c' : Context} (h : c.Parsed) {bytes : Bytes} {au : AccessUnit}
    (hdecode : AccessUnit.decode c bytes = .ok (au, c')) : c'.Parsed := by
  obtain ⟨hyields, rfl⟩ := AccessUnit.yieldsAll_of_decode hdecode
  exact hyields.parsed h

/-! ## The last parameter sets -/

/-- The video parameter set that a unit is, if it is one. -/
def DecodedUnit.vps? : DecodedUnit → Option Vps
  | .vps set => some set
  | _ => none

/-- The sequence parameter set that a unit is, if it is one. -/
def DecodedUnit.sps? : DecodedUnit → Option Sps
  | .sps set => some set
  | _ => none

/-- The last video parameter set with a given number among some units. -/
def lastVps (id : VpsId) (units : List DecodedUnit) : Option Vps :=
  units.reverse.findSome? fun unit => unit.vps?.filter (·.id = id)

/-- The last picture parameter set with a given number among some units. -/
def lastPps (id : PpsId) (units : List DecodedUnit) : Option Pps :=
  units.reverse.findSome? fun unit => unit.pps?.filter (·.id = id)

/-- The last sequence parameter set with a given number among some units. -/
def lastSps (id : SpsId) (units : List DecodedUnit) : Option Sps :=
  units.reverse.findSome? fun unit => unit.sps?.filter (·.id = id)

theorem lastSps_cons (id : SpsId) (unit : DecodedUnit) (rest : List DecodedUnit) :
    lastSps id (unit :: rest) = (lastSps id rest).or (unit.sps?.filter (·.id = id)) := by
  simp [lastSps]

theorem lastPps_eq_none {units : List DecodedUnit} (h : ∀ unit ∈ units, unit.pps? = none)
    (id : PpsId) : lastPps id units = none := by
  refine List.findSome?_eq_none_iff.2 fun unit hunit => ?_
  rw [h unit (List.mem_reverse.1 hunit)]
  rfl

theorem lastSps_eq_none {units : List DecodedUnit} (h : ∀ unit ∈ units, unit.sps? = none)
    (id : SpsId) : lastSps id units = none := by
  refine List.findSome?_eq_none_iff.2 fun unit hunit => ?_
  rw [h unit (List.mem_reverse.1 hunit)]
  rfl

namespace DecoderState

variable {s : DecoderState} {units : List DecodedUnit}

theorem vpsById_after_unit (s : DecoderState) (unit : DecodedUnit) (id : VpsId) :
    (s.after unit).ctx.vpsById id = (unit.vps?.filter (·.id = id)).or (s.ctx.vpsById id) := by
  cases unit with
  | vps set =>
    show (s.ctx.putVps set).vpsById id = _
    rw [Context.vpsById_putVps]
    by_cases hid : set.id = id
    · simp [DecodedUnit.vps?, Option.filter, hid]
    · simp [DecodedUnit.vps?, Option.filter, hid]
  | slice segment =>
    rw [after_slice_ctx]
    rfl
  | _ => rfl

theorem ppsById_after_unit (s : DecoderState) (unit : DecodedUnit) (id : PpsId) :
    (s.after unit).ctx.ppsById id = (unit.pps?.filter (·.id = id)).or (s.ctx.ppsById id) := by
  cases unit with
  | pps set =>
    show (s.ctx.putPps set).ppsById id = _
    rw [Context.ppsById_putPps]
    by_cases hid : set.id = id
    · simp [DecodedUnit.pps?, Option.filter, hid]
    · simp [DecodedUnit.pps?, Option.filter, hid]
  | slice segment =>
    rw [after_slice_ctx]
    rfl
  | _ => rfl

theorem spsById_after_unit (s : DecoderState) (unit : DecodedUnit) (id : SpsId) :
    (s.after unit).ctx.spsById id = (unit.sps?.filter (·.id = id)).or (s.ctx.spsById id) := by
  cases unit with
  | sps set =>
    show (s.ctx.putSps set).spsById id = _
    rw [Context.spsById_putSps]
    by_cases hid : set.id = id
    · simp [DecodedUnit.sps?, Option.filter, hid]
    · simp [DecodedUnit.sps?, Option.filter, hid]
  | slice segment =>
    rw [after_slice_ctx]
    rfl
  | _ => rfl

/-- Of what each unit may replace, the last one among some units is in force after them. -/
theorem held_after {α : Type} {f : DecoderState → Option α} {own : DecodedUnit → Option α}
    (h : ∀ s unit, f (s.after unit) = (own unit).or (f s)) (s : DecoderState)
    (units : List DecodedUnit) :
    f (units.foldl after s) = (units.reverse.findSome? own).or (f s) := by
  induction units generalizing s with
  | nil => rfl
  | cons unit units ih =>
    rw [List.foldl_cons, ih, h, List.reverse_cons, List.findSome?_append, Option.or_assoc,
      List.findSome?_singleton]

/-- The video parameter set in force after some units is the last one among them. -/
theorem vpsById_after (s : DecoderState) (units : List DecodedUnit) (id : VpsId) :
    (units.foldl after s).ctx.vpsById id = (lastVps id units).or (s.ctx.vpsById id) :=
  held_after (f := fun s => s.ctx.vpsById id) (fun s unit => vpsById_after_unit s unit id) s units

/-- The picture parameter set in force after some units is the last one among them. -/
theorem ppsById_after (s : DecoderState) (units : List DecodedUnit) (id : PpsId) :
    (units.foldl after s).ctx.ppsById id = (lastPps id units).or (s.ctx.ppsById id) :=
  held_after (f := fun s => s.ctx.ppsById id) (fun s unit => ppsById_after_unit s unit id) s units

/-- The sequence parameter set in force after some units is the last one among them. -/
theorem spsById_after (s : DecoderState) (units : List DecodedUnit) (id : SpsId) :
    (units.foldl after s).ctx.spsById id = (lastSps id units).or (s.ctx.spsById id) :=
  held_after (f := fun s => s.ctx.spsById id) (fun s unit => spsById_after_unit s unit id) s units

end DecoderState

/-- No set among some units takes the place of another one than itself: the last one with the number
of a picture parameter set, or of its sequence parameter set, is the same again. -/
def KeepsSets (units : List DecodedUnit) (id : PpsId) (sps : Sps) (pps : Pps) : Prop :=
  (∀ later ∈ lastPps id units, later = pps) ∧ ∀ later ∈ lastSps pps.spsId units, later = sps

/-- Some units bring only sets that are in force under their numbers, as far as no later ones take their
places. -/
structure BringsNothing (units : List DecodedUnit) (c : Context) : Prop where
  vps : ∀ id, ∀ set ∈ lastVps id units, c.vpsById id = some set
  sps : ∀ id, ∀ set ∈ lastSps id units, c.spsById id = some set
  pps : ∀ id, ∀ set ∈ lastPps id units, c.ppsById id = some set

theorem or_eq_right_iff {α : Type} {last held : Option α} :
    last.or held = held ↔ ∀ x ∈ last, held = some x := by
  cases last with
  | none => simp
  | some x => simp [eq_comm]

/-- The sets in force stay the same exactly if no unit brings other ones. -/
theorem ctx_after_eq_iff {s : DecoderState} {units : List DecodedUnit} :
    (units.foldl DecoderState.after s).ctx = s.ctx ↔ BringsNothing units s.ctx := by
  constructor
  · intro h
    refine ⟨fun id => or_eq_right_iff.1 ?_, fun id => or_eq_right_iff.1 ?_,
      fun id => or_eq_right_iff.1 ?_⟩
    · rw [← DecoderState.vpsById_after, h]
    · rw [← DecoderState.spsById_after, h]
    · rw [← DecoderState.ppsById_after, h]
  · rintro ⟨hvps, hsps, hpps⟩
    refine Context.ext_byId (fun id => ?_) (fun id => ?_) fun id => ?_
    · rw [DecoderState.vpsById_after, or_eq_right_iff.2 (hvps id)]
    · rw [DecoderState.spsById_after, or_eq_right_iff.2 (hsps id)]
    · rw [DecoderState.ppsById_after, or_eq_right_iff.2 (hpps id)]

theorem getD_eq_self_iff {α : Type} {last : Option α} {x : α} :
    last.getD x = x ↔ ∀ later ∈ last, later = x := by
  cases last <;> simp

/-- The sets in force after some units are those in force before them exactly if no unit brings other
ones. -/
theorem paramSets_after_eq_iff {s : DecoderState} {units : List DecodedUnit} {id : PpsId}
    {sps sps' : Sps} {pps pps' : Pps} (hbefore : s.ctx.paramSets id = some (sps, pps))
    (hafter : (units.foldl DecoderState.after s).ctx.paramSets id = some (sps', pps')) :
    (sps' = sps ∧ pps' = pps) ↔ KeepsSets units id sps pps := by
  obtain ⟨hpps, hsps⟩ := Context.paramSets_eq_some_iff.1 hbefore
  obtain ⟨hpps', hsps'⟩ := Context.paramSets_eq_some_iff.1 hafter
  rw [DecoderState.ppsById_after, hpps, Option.or_some] at hpps'
  rw [Context.spsOf, DecoderState.spsById_after] at hsps'
  obtain rfl := Option.some.inj hpps'
  rw [KeepsSets, ← getD_eq_self_iff, ← getD_eq_self_iff, and_comm]
  refine and_congr_right fun hsame => ?_
  rw [Context.spsOf] at hsps
  rw [hsame, hsps, Option.or_some] at hsps'
  obtain rfl := Option.some.inj hsps'
  rfl

/-! ## A picture of two tiles -/

namespace Sample

/-- Parameter sets and the slices of a picture of two tiles, side by side. -/
def picture : Bytes := [
  0, 0, 0, 1, 64, 1, 12, 1, 255, 255, 1, 96, 0, 0, 3, 0, 144, 0, 0, 3, 0, 0, 3, 0, 123, 149, 152, 9,
  0, 0, 0, 1, 66, 1, 1, 1, 96, 0, 0, 3, 0, 144, 0, 0, 3, 0, 0, 3, 0, 123, 160, 3, 192, 128, 17, 7,
  203, 150, 86, 105, 36, 72, 172, 128,
  0, 0, 0, 1, 68, 1, 192, 113, 132, 188, 72,
  0, 0, 0, 1, 38, 1, 175, 47, 175, 18, 0, 0, 3, 1, 128,
  0, 0, 0, 1, 38, 1, 32, 247, 151, 128, 192, 255, 238, 1]

/-- The parameter sets of the picture. -/
def ctx : Context :=
  match AccessUnit.decode .empty picture with
  | .ok (_, ctx) => ctx
  | .error _ => .empty

theorem ctx_parsed : ctx.Parsed := by
  unfold ctx
  split
  · next h => exact Context.Parsed.empty.decode h
  · exact Context.Parsed.empty

/-- The sequence parameter set of the picture. -/
def sps : Sps := (ctx.spsById 0).getD default

/-- The picture parameter set of the picture. -/
def pps : Pps := (ctx.ppsById 0).getD default

end Sample

end TiledVideo
