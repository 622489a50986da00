import TiledVideo.Engine.Placer
import TiledVideo.Proofs.Nal.WrittenUnits
import TiledVideo.Proofs.Nal.DecodedSets
import TiledVideo.Proofs.Tiling.UniformGrid

/-!
# Mosaics

A mosaic is a picture with a uniform grid of tiles, each of them one slice.

Results:

* `Regular`: mosaics whose tiles can be split, placed where they were and put together again.
* `restored`: what is read then.
* `laid_of_decode`: how a mosaic was read.
-/

namespace TiledVideo

/-- A picture with a grid of tiles, each of them one slice. -/
structure Mosaic where
  vps : Vps
  sps : Sps
  pps : Pps
  columns : Nat
  rows : Nat
  /-- The slices in the order of their tiles. -/
  slices : List SliceUnit
  deriving DecidableEq

namespace Mosaic

/-! ## Pictures that are mosaics -/

/-- The number of tiles. -/
def tileCount (m : Mosaic) : Nat :=
  m.columns * m.rows

/-- An access unit has the parameter sets of the mosaic, its slices and nothing else. -/
structure Shows (m : Mosaic) (au : AccessUnit) : Prop where
  kinds : ∀ unit ∈ au.units, unit.IsSet ∨ unit.slice?.isSome = true
  sets : (au.units.filter (·.IsSet)).Perm [.vps m.vps, .sps m.sps, .pps m.pps]
  slices : au.slices = m.slices

instance (m : Mosaic) (au : AccessUnit) : Decidable (m.Shows au) :=
  decidable_of_iff ((∀ unit ∈ au.units, unit.IsSet ∨ unit.slice?.isSome = true) ∧
      (au.units.filter (·.IsSet)).Perm [.vps m.vps, .sps m.sps, .pps m.pps] ∧
      au.slices = m.slices)
    ⟨fun ⟨h₁, h₂, h₃⟩ => ⟨h₁, h₂, h₃⟩, fun ⟨h₁, h₂, h₃⟩ => ⟨h₁, h₂, h₃⟩⟩

/-- The grid is uniform, and each slice is an independent one that begins where its tile begins. The
picture is no larger than a placer allows, and no part of it is not supported. -/
structure Regular (m : Mosaic) : Prop where
  grid : m.pps.partition.tiles =
    some ⟨m.columns - 1, m.rows - 1, .uniform, m.pps.partition.loopFilterAcross⟩
  columns : 1 ≤ m.columns ∧ m.columns ≤ 128
  rows : 1 ≤ m.rows ∧ m.rows ≤ 128
  tiles : m.tileCount ≤ 255
  addresses : m.slices.map (·.header.address) =
    (List.range m.tileCount).map (TileLayout.uniformFirstCtb m.sps m.columns m.rows)
  independent : ∀ segment ∈ m.slices, segment.header.dependent = false
  data : ∀ segment ∈ m.slices, segment.data.getLast? ≠ some 0
  noSync : m.pps.partition.entropySync = false
  size : m.sps.format.width ≤ 8192 ∧ m.sps.format.height ≤ 8192
  noVpsExtension : m.vps.hasExtension = false
  noLongTerm : m.sps.longTerm = none
  noPlanes : m.sps.format.separatePlanes = false
  noOutput : m.pps.outputFlagPresent = false

instance (m : Mosaic) : Decidable m.Regular :=
  decidable_of_iff (m.pps.partition.tiles =
        some ⟨m.columns - 1, m.rows - 1, .uniform, m.pps.partition.loopFilterAcross⟩ ∧
      (1 ≤ m.columns ∧ m.columns ≤ 128) ∧ (1 ≤ m.rows ∧ m.rows ≤ 128) ∧ m.tileCount ≤ 255 ∧
      m.slices.map (·.header.address) =
        (List.range m.tileCount).map (TileLayout.uniformFirstCtb m.sps m.columns m.rows) ∧
      (∀ segment ∈ m.slices, segment.header.dependent = false) ∧
      (∀ segment ∈ m.slices, segment.data.getLast? ≠ some 0) ∧
      m.pps.partition.entropySync = false ∧
      (m.sps.format.width ≤ 8192 ∧ m.sps.format.height ≤ 8192) ∧ m.vps.hasExtension = false ∧
      m.sps.longTerm = none ∧ m.sps.format.separatePlanes = false ∧
      m.pps.outputFlagPresent = false)
    ⟨fun ⟨h₁, h₂, h₃, h₄, h₅, h₆, h₇, h₈, h₉, h₁₀, h₁₁, h₁₂, h₁₃⟩ =>
        ⟨h₁, h₂, h₃, h₄, h₅, h₆, h₇, h₈, h₉, h₁₀, h₁₁, h₁₂, h₁₃⟩,
      fun ⟨h₁, h₂, h₃, h₄, h₅, h₆, h₇, h₈, h₉, h₁₀, h₁₁, h₁₂, h₁₃⟩ =>
        ⟨h₁, h₂, h₃, h₄, h₅, h₆, h₇, h₈, h₉, h₁₀, h₁₁, h₁₂, h₁₃⟩⟩

/-- Where a tile was. -/
def placement (m : Mosaic) (tile : Nat) : Placement where
  width := m.sps.format.width
  height := m.sps.format.height
  column := m.columns
  row := m.rows
  x := (TileLayout.uniformOrigin m.sps m.columns m.rows tile).1
  y := (TileLayout.uniformOrigin m.sps m.columns m.rows tile).2

/-! ## Pictures that are put together again -/

/-- The sequence parameter set when the picture has been put together again: announcements of unknown
extensions are lost. -/
def restoredSps (m : Mosaic) : Sps :=
  { m.sps with extensions := { m.sps.extensions with unknown := 0 } }

/-- The picture parameter set when the picture has been put together again: there are no dependent
slices, loop filters work across tiles, and announcements of unknown extensions are lost. -/
def restoredPps (m : Mosaic) : Pps :=
  { m.pps with
    dependentSlices := false
    partition := { m.pps.partition with
      tiles := some ⟨m.columns - 1, m.rows - 1, .uniform, true⟩ }
    extensions := { m.pps.extensions with unknown := 0 } }

/-- What a parameter set says when the picture has been put together again. -/
def restoredSet (m : Mosaic) : DecodedUnit → UnitContent
  | .sps _ => .sps m.restoredSps
  | .pps _ => .pps m.restoredPps
  | unit => unit.content

/-- What the slice of a tile says when the picture has been put together again. Only the first slice
is marked as such, reserved flags are cleared, and there are no entry points. -/
def restoredSlice (tile : Nat) (segment : SliceUnit) : UnitContent :=
  .slice segment.nalHeader
    { segment.header with
      first := tile == 0
      fields := { segment.header.fields with reservedFlags := 0 }
      entryPoints := some .none }
    segment.data

/-- What a picture says when it has been put together again: its parameter sets, and behind them its
slices. -/
def restored (m : Mosaic) (au : AccessUnit) : List UnitContent :=
  (au.units.filter (·.IsSet)).map m.restoredSet ++ m.slices.mapIdx restoredSlice

/-! ## What has been read -/

/-- A unit has no part in which sequence and picture parameter sets are in force. -/
def Beside (m : Mosaic) (unit : DecodedUnit) : Prop :=
  unit = .vps m.vps ∨ ∃ segment ∈ m.slices, unit = .slice segment

theorem Beside.kind {m : Mosaic} {unit : DecodedUnit} (h : m.Beside unit) :
    (∃ v, unit = .vps v) ∨ ∃ segment, unit = .slice segment := by
  obtain rfl | ⟨segment, -, rfl⟩ := h
  · exact .inl ⟨_, rfl⟩
  · exact .inr ⟨_, rfl⟩

theorem after_beside (s : DecoderState) {unit : DecodedUnit}
    (h : (∃ v, unit = .vps v) ∨ ∃ segment, unit = .slice segment) :
    (s.after unit).ctx.spsById = s.ctx.spsById ∧ (s.after unit).ctx.ppsById = s.ctx.ppsById := by
  obtain ⟨v, rfl⟩ | ⟨segment, rfl⟩ := h
  · exact ⟨rfl, rfl⟩
  · rw [DecoderState.after_slice_ctx]
    exact ⟨rfl, rfl⟩

theorem foldl_after_beside {s : DecoderState} {units : List DecodedUnit}
    (h : ∀ unit ∈ units, (∃ v, unit = .vps v) ∨ ∃ segment, unit = .slice segment) :
    (units.foldl DecoderState.after s).ctx.spsById = s.ctx.spsById ∧
      (units.foldl DecoderState.after s).ctx.ppsById = s.ctx.ppsById := by
  induction units generalizing s with
  | nil => exact ⟨rfl, rfl⟩
  | cons unit rest ih =>
    obtain ⟨hsps, hpps⟩ := ih (s := s.after unit) fun u hu => h u (List.mem_cons_of_mem _ hu)
    rw [List.foldl_cons, hsps, hpps]
    exact after_beside s (h unit List.mem_cons_self)

/-- An independent slice was read with the parameter sets that are in force, as long as only units
beside them have come. -/
theorem legible_of_yieldsAll {s : DecoderState} {units : List DecodedUnit}
    (hyields : s.YieldsAll units)
    (h : ∀ unit ∈ units, (∃ v, unit = .vps v) ∨ ∃ segment, unit = .slice segment)
    {segment : SliceUnit} (hmem : .slice segment ∈ units)
    (hindependent : segment.header.dependent = false) :
    (segment.nalHeader.layerId = 0 ∧ segment.nalHeader.unitType.isSlice = true) ∧
      ∃ pps sps, s.ctx.ppsById segment.header.ppsId = some pps ∧ s.ctx.spsOf pps = some sps ∧
        segment.header.Legible segment.nalHeader.unitType sps pps := by
  induction units generalizing s with
  | nil => exact absurd hmem List.not_mem_nil
  | cons unit rest ih =>
    obtain hhead | htail := List.mem_cons.1 hmem
    · subst hhead
      obtain ⟨hunit, hproduces⟩ := hyields.1
      obtain ⟨pps, sps, hpps, hsps, -, -, hfields, hlegible⟩ :=
        SliceHeader.legible_of_produces hproduces
      exact ⟨hunit, pps, sps, hpps, hsps, hlegible (hfields hindependent)⟩
    · have hnext := ih hyields.2 (fun u hu => h u (List.mem_cons_of_mem _ hu)) htail
      obtain ⟨hsps, hpps⟩ : (s.after unit).ctx.spsById = s.ctx.spsById ∧
          (s.after unit).ctx.ppsById = s.ctx.ppsById :=
        after_beside s (h unit List.mem_cons_self)
      rwa [hpps, show (s.after unit).ctx.spsOf = s.ctx.spsOf by
        funext q; rw [Context.spsOf, Context.spsOf, hsps]] at hnext

/-- A sequence and a picture parameter set that come when there is none are the only ones then. -/
theorem only_after {s : DecoderState} (hsps : ∀ id, s.ctx.spsById id = none)
    (hpps : ∀ id, s.ctx.ppsById id = none) (sps : Sps) (pps : Pps) :
    (∀ id, ((s.after (.sps sps)).after (.pps pps)).ctx.spsById id =
      if sps.id = id then some sps else none) ∧
    ∀ id, ((s.after (.sps sps)).after (.pps pps)).ctx.ppsById id =
      if pps.id = id then some pps else none := by
  constructor
  · intro id
    show (s.ctx.putSps sps).spsById id = _
    rw [Context.spsById_putSps, hsps]
  · intro id
    show ((s.ctx.putSps sps).putPps pps).ppsById id = _
    rw [Context.ppsById_putPps, show (s.ctx.putSps sps).ppsById id = none from hpps id]

/-- Where there is only one set of each kind, an independent slice was read with these two. -/
theorem legible_of_only {s : DecoderState} {sps : Sps} {pps : Pps} {units : List DecodedUnit}
    (hsps : ∀ id, s.ctx.spsById id = if sps.id = id then some sps else none)
    (hpps : ∀ id, s.ctx.ppsById id = if pps.id = id then some pps else none)
    (hspsId : pps.spsId = sps.id) (hyields : s.YieldsAll units)
    (h : ∀ unit ∈ units, (∃ v, unit = .vps v) ∨ ∃ segment, unit = .slice segment)
    {segment : SliceUnit} (hmem : .slice segment ∈ units)
    (hindependent : segment.header.dependent = false) :
    (segment.nalHeader.layerId = 0 ∧ segment.nalHeader.unitType.isSlice = true) ∧
      segment.header.ppsId = pps.id ∧
      segment.header.Legible segment.nalHeader.unitType sps pps := by
  obtain ⟨hunit, pps', sps', hppsKnown, hspsKnown, hlegible⟩ :=
    legible_of_yieldsAll hyields h hmem hindependent
  rw [hpps] at hppsKnown
  split at hppsKnown
  · next hid =>
    cases hppsKnown
    rw [Context.spsOf, hsps, if_pos hspsId.symm] at hspsKnown
    cases hspsKnown
    exact ⟨hunit, hid.symm, hlegible⟩
  · cases hppsKnown

/-- A mosaic as it was read: what comes before and behind its sequence and picture parameter sets,
and what is in force at the end. -/
structure Laid (m : Mosaic) (au : AccessUnit) (ctx : Context) (front back : List DecodedUnit) :
    Prop where
  units : au.units = front ++ .sps m.sps :: .pps m.pps :: back
  front : ∀ unit ∈ front, unit = .vps m.vps
  back : ∀ unit ∈ back, m.Beside unit
  slices : au.slices = m.slices
  vps : Vps.parse.Produces m.vps
  sps : Sps.parse.Produces m.sps
  pps : ∃ known, known m.pps.spsId = some m.sps ∧ (Pps.parse known).Produces m.pps
  spsId : m.pps.spsId = m.sps.id
  spsById : ∀ id, ctx.spsById id = if m.sps.id = id then some m.sps else none
  ppsById : ∀ id, ctx.ppsById id = if m.pps.id = id then some m.pps else none
  slice : ∀ segment ∈ m.slices,
    (segment.nalHeader.layerId = 0 ∧ segment.nalHeader.unitType.isSlice = true) ∧
    segment.header.ppsId = m.pps.id ∧
    segment.header.Legible segment.nalHeader.unitType m.sps m.pps

variable {m : Mosaic} {au : AccessUnit} {ctx : Context} {bytes : Bytes}

/-- Behind and before the sequence and picture parameter sets there is only the video parameter set
and the slices. -/
theorem Shows.split (h : m.Shows au) (hpair : [.sps m.sps, .pps m.pps] <:+: au.units) :
    ∃ front back, au.units = front ++ .sps m.sps :: .pps m.pps :: back ∧
      (∀ unit ∈ front ++ back, m.Beside unit) ∧ .vps m.vps ∈ front ++ back := by
  obtain ⟨front, back, hunits⟩ := hpair
  have hunits : au.units = front ++ .sps m.sps :: .pps m.pps :: back := by
    rw [← hunits, List.append_assoc]
    rfl
  have hsets : ((front ++ back).filter (·.IsSet)).Perm [.vps m.vps] := by
    have hall := h.sets
    rw [hunits, List.filter_append] at hall
    have hmiddle : (front.filter (·.IsSet) ++ .sps m.sps :: .pps m.pps :: back.filter (·.IsSet)).Perm
        ((front ++ back).filter (·.IsSet) ++ [.sps m.sps, .pps m.pps]) := by
      rw [List.filter_append, List.append_assoc]
      have hswap : List.Perm ([.sps m.sps, .pps m.pps] ++ back.filter (·.IsSet))
          (back.filter (·.IsSet) ++ [.sps m.sps, .pps m.pps]) := List.perm_append_comm
      exact hswap.append_left _
    exact (List.perm_append_right_iff [.sps m.sps, .pps m.pps]).1 (hmiddle.symm.trans hall)
  have hsets := List.perm_singleton.1 hsets
  refine ⟨front, back, hunits, fun unit hunit => ?_, ?_⟩
  · have hmem : unit ∈ au.units := by
      rw [hunits]
      obtain hunit | hunit := List.mem_append.1 hunit
      · exact List.mem_append_left _ hunit
      · exact List.mem_append_right _ (List.mem_cons_of_mem _ (List.mem_cons_of_mem _ hunit))
    obtain hset | hslice := h.kinds unit hmem
    · have : unit ∈ (front ++ back).filter (·.IsSet) := List.mem_filter.2 ⟨hunit, by simpa using hset⟩
      rw [hsets] at this
      exact .inl (List.mem_singleton.1 this)
    · cases unit with
      | slice segment =>
        refine .inr ⟨segment, ?_, rfl⟩
        rw [← h.slices]
        exact AccessUnit.mem_slices_iff.2 hmem
      | _ => cases hslice
  · have : .vps m.vps ∈ (front ++ back).filter (·.IsSet) := hsets ▸ List.mem_singleton_self _
    exact (List.mem_filter.1 this).1

/-- What stands before the parameter sets is not a slice: it could not have been read. -/
theorem front_of_yieldsAll {front : List DecodedUnit} (hm : m.Regular)
    (hyields : (DecoderState.start .empty).YieldsAll front)
    (hbeside : ∀ unit ∈ front, m.Beside unit) : ∀ unit ∈ front, unit = .vps m.vps := by
  intro unit hunit
  obtain rfl | ⟨segment, hsegment, rfl⟩ := hbeside unit hunit
  · rfl
  · obtain ⟨-, pps, -, hknown, -⟩ := legible_of_yieldsAll hyields
      (fun u hu => (hbeside u hu).kind) hunit (hm.independent segment hsegment)
    simp [DecoderState.start] at hknown

/-- A regular mosaic that is read with no parameter sets before it, and whose picture parameter set
directly follows its sequence parameter set. -/
theorem laid_of_decode (hdecode : AccessUnit.decode .empty bytes = .ok (au, ctx))
    (h : m.Shows au) (hm : m.Regular) (hpair : [.sps m.sps, .pps m.pps] <:+: au.units) :
    ∃ front back, m.Laid au ctx front back := by
  obtain ⟨front, back, hunits, hbeside, hvps⟩ := h.split hpair
  have hbesideFront := fun u hu => hbeside u (List.mem_append_left back hu)
  have hbesideBack := fun u hu => hbeside u (List.mem_append_right front hu)
  have hkindBack := fun u hu => (hbesideBack u hu).kind
  obtain ⟨hyields, hctx⟩ := AccessUnit.yieldsAll_of_decode hdecode
  rw [hunits] at hyields hctx
  rw [List.foldl_append, List.foldl_cons, List.foldl_cons] at hctx
  obtain ⟨hyieldsFront, hsps, hpps, hyieldsBack⟩ := DecoderState.yieldsAll_append.1 hyields
  have hfront := front_of_yieldsAll hm hyieldsFront hbesideFront
  obtain ⟨hspsFront, hppsFront⟩ :=
    foldl_after_beside (s := .start .empty) fun u hu => (hbesideFront u hu).kind
  generalize front.foldl DecoderState.after (.start .empty) = s₁ at *
  -- the two sets come when there is none
  obtain ⟨hspsById, hppsById⟩ := only_after (s := s₁)
    (fun id => by rw [hspsFront]; exact Context.spsById_empty id)
    (fun id => by rw [hppsFront]; exact Context.ppsById_empty id) m.sps m.pps
  have hput : (s₁.after (.sps m.sps)).ctx.spsById m.pps.spsId =
      if m.sps.id = m.pps.spsId then some m.sps else none := hspsById _
  have hspsId : m.sps.id = m.pps.spsId := by
    obtain ⟨sps, hknown, -⟩ := Pps.known_of_produces hpps
    rw [hput] at hknown
    by_contra hne
    rw [if_neg hne] at hknown
    cases hknown
  obtain ⟨hspsBack, hppsBack⟩ := foldl_after_beside
    (s := (s₁.after (.sps m.sps)).after (.pps m.pps)) hkindBack
  refine ⟨front, back, hunits, hfront, hbesideBack, h.slices, hyields.produces_vps ?_, hsps,
    ⟨_, hput.trans (if_pos hspsId), hpps⟩, hspsId.symm, fun id => ?_, fun id => ?_,
    fun segment hsegment => ?_⟩
  · obtain hvps | hvps := List.mem_append.1 hvps
    · exact List.mem_append_left _ hvps
    · exact List.mem_append_right _ (List.mem_cons_of_mem _ (List.mem_cons_of_mem _ hvps))
  · rw [hctx, hspsBack, hspsById]
  · rw [hctx, hppsBack, hppsById]
  · have hmem : DecodedUnit.slice segment ∈ back := by
      rw [← h.slices, AccessUnit.mem_slices_iff, hunits] at hsegment
      simp only [List.mem_append, List.mem_cons, reduceCtorEq, false_or] at hsegment
      exact hsegment.resolve_left fun hin => by cases hfront _ hin
    exact legible_of_only hspsById hppsById hspsId.symm hyieldsBack hkindBack hmem
      (hm.independent segment hsegment)

end Mosaic

/-! ## Samples of mosaics -/

namespace Sample

/-- What a sample is read as. -/
def read (bytes : Bytes) : AccessUnit × Context :=
  match AccessUnit.decode .empty bytes with
  | .ok found => found
  | .error _ => (⟨[]⟩, .empty)

/-- The mosaic of two tiles, side by side, that a sample shows. -/
def mosaic (bytes : Bytes) : Mosaic where
  vps := ((read bytes).2.vpsById 0).getD default
  sps := ((read bytes).2.spsById 0).getD default
  pps := ((read bytes).2.ppsById 0).getD default
  columns := 2
  rows := 1
  slices := (read bytes).1.slices

/-- A sample is read as a regular mosaic. -/
def IsRegular (bytes : Bytes) : Prop :=
  AccessUnit.decode .empty bytes = .ok ((read bytes).1, (read bytes).2) ∧
    (mosaic bytes).Shows (read bytes).1 ∧ (mosaic bytes).Regular

instance (bytes : Bytes) : Decidable (IsRegular bytes) :=
  inferInstanceAs (Decidable (_ ∧ _))

end Sample

end TiledVideo
