import TiledVideo.Proofs.Engine.TileStreams
import TiledVideo.Proofs.Nal.DecodedSets
import TiledVideo.Proofs.Tiling.Sizes

/-!
# Decoding what a tile gets

A decoder that is given what a tile gets has the same parameter sets in force as the splitter, up to
the size of the tile and the parts that are not written. So it can read the slices too.

Results:

* `Tracks`: the sets of a decoder are those of the splitter, as they are written for the tile.
* `setBytes_decoded`: the parameter sets that a tile gets are decoded and keep the decoder on track.
* `ownSlice_decoded`: so are the slices.
-/

namespace TiledVideo

namespace TileStreams

open ByteStream Reader
open DecodedUnit (IsSet)

/-! ## What is decoded -/

/-- What the parameter set that a tile gets of a unit says. -/
def ownSetContent (tile : Nat) (rest : List DecodedUnit) :
    DecodedUnit → Except EngineError (List UnitContent)
  | .vps set => pure [.vps set]
  | .sps sps => do
    let pps ← (ppsAfter sps rest).elim (.error .spsWithoutPps) .ok
    let (width, height) ← tileSizeOf sps pps tile
    pure [.sps (sps.resized width height).asWritten]
  | .pps pps => pure [.pps (pps.asWritten .remove)]
  | .slice _ => pure []
  | .other _ => pure []

/-- What the parameter sets that a tile gets say. -/
def setContents (tile : Nat) : List DecodedUnit → Except EngineError (List UnitContent)
  | [] => pure []
  | unit :: rest => do
    let own ← ownSetContent tile rest unit
    let later ← setContents tile rest
    pure (own ++ later)

/-- What a slice says in the stream of its tile: it is the only one of its picture. -/
def sliceContent (segment : SliceUnit) : UnitContent :=
  .slice segment.nalHeader
    { segment.header with
      first := true
      dependent := false
      address := 0
      fields := { segment.header.fields with reservedFlags := 0 }
      entryPoints := none }
    segment.data

/-- What there is for a tile of a slice: nothing if the slice is of another tile. -/
def sliceContents (tile : Nat) (ctx : Context) (segment : SliceUnit) :
    Except EngineError (List UnitContent) := do
  let d ← destination ctx segment
  if d.tile = tile then pure [sliceContent segment] else pure []

/-! ## Keeping up -/

/-- A size that a picture can have. -/
def IsSize (n : Nat) : Prop :=
  0 < n ∧ n ≤ PictureFormat.maxDimension

/-- The sets of a decoder `d` are those that a splitter has, as they are written for a tile. -/
structure Tracks (d c : Context) : Prop where
  sps : ∀ id s, c.spsById id = some s → ∃ width height, IsSize width ∧ IsSize height ∧
    d.spsById id = some (s.resized width height).asWritten
  pps : ∀ id p, c.ppsById id = some p → d.ppsById id = some (p.asWritten .remove)

theorem Tracks.empty : Tracks .empty .empty := by
  refine ⟨fun id s h => ?_, fun id p h => ?_⟩
  · simp at h
  · simp at h

variable {d c : Context}

theorem Tracks.putSps (h : Tracks d c) (s : Sps) {width height : Nat} (hwidth : IsSize width)
    (hheight : IsSize height) :
    Tracks (d.putSps (s.resized width height).asWritten) (c.putSps s) := by
  refine ⟨fun id t ht => ?_, h.pps⟩
  rw [Context.spsById_putSps] at ht ⊢
  by_cases hid : s.id = id
  · rw [if_pos hid] at ht
    cases ht
    exact ⟨width, height, hwidth, hheight, if_pos hid⟩
  · rw [if_neg hid] at ht
    rw [if_neg (show (s.resized width height).asWritten.id ≠ id from hid)]
    exact h.sps id t ht

theorem Tracks.putPps (h : Tracks d c) (p : Pps) :
    Tracks (d.putPps (p.asWritten .remove)) (c.putPps p) := by
  refine ⟨h.sps, fun id q hq => ?_⟩
  rw [Context.ppsById_putPps] at hq ⊢
  by_cases hid : p.id = id
  · rw [if_pos hid] at hq
    cases hq
    exact if_pos hid
  · rw [if_neg hid] at hq
    rw [if_neg (show (p.asWritten .remove).id ≠ id from hid)]
    exact h.pps id q hq

/-! ## Parameter sets -/

theorem ownSet_eq_ok {unitType : UnitType} {code : Code} {bytes : Bytes}
    (h : ownSet unitType code.closed = .ok bytes) :
    ∃ bits, code.closed = .ok bits ∧ bytes = framedAll [nalBytes unitType 0 (Bits.toBytes bits)] ∧
      Solid (nalBytes unitType 0 (Bits.toBytes bits)) := by
  obtain ⟨s, hs, rfl⟩ := map_eq_ok_iff.1 h
  have hs := mapError_eq_ok_iff.1 hs
  rw [BitStream.parameterSet_eq rfl] at hs
  obtain ⟨bits, hbits, rfl⟩ := map_eq_ok_iff.1 hs
  exact ⟨bits, hbits, by simp [framedAll, framedBytes, BitStream.empty],
    solid_nalBytes _ (by decide) (getLast?_toBytes_closed hbits)⟩

/-- The sizes that are given for the grid of each sequence parameter set, in the picture parameter
set behind it, leave a rest of the picture. -/
def LeaveRest : List DecodedUnit → Prop
  | [] => True
  | .sps sps :: rest =>
    (∀ pps ∈ ppsAfter sps rest, ∀ grid ∈ pps.partition.tiles, grid.LeavesRest sps) ∧ LeaveRest rest
  | _ :: rest => LeaveRest rest

instance decidableLeaveRest : (units : List DecodedUnit) → Decidable (LeaveRest units)
  | [] => .isTrue trivial
  | .sps _ :: rest => @instDecidableAnd _ _ inferInstance (decidableLeaveRest rest)
  | .vps _ :: rest | .pps _ :: rest | .slice _ :: rest | .other _ :: rest =>
    decidableLeaveRest rest

theorem LeaveRest.tail {unit : DecodedUnit} {rest : List DecodedUnit}
    (h : LeaveRest (unit :: rest)) : LeaveRest rest := by
  cases unit with
  | sps sps => exact h.2
  | _ => exact h

theorem ppsAfter_eq_some {sps : Sps} {rest : List DecodedUnit} {pps : Pps}
    (h : ppsAfter sps rest = some pps) : ∃ later, rest = .pps pps :: later ∧ pps.spsId = sps.id := by
  unfold ppsAfter at h
  split at h
  · next pps' later =>
    split at h
    · next hid =>
      cases h
      exact ⟨later, rfl, hid⟩
    · cases h
  · cases h

/-- A tile of the grid that follows a sequence parameter set has a size that pictures can have. -/
theorem tileSizeOf_isSize {s : DecoderState} {sps : Sps} {pps : Pps} {rest : List DecodedUnit}
    (hyields : s.YieldsAll (.sps sps :: rest)) (hafter : ppsAfter sps rest = some pps)
    (hrest : ∀ grid, pps.partition.tiles = some grid → grid.LeavesRest sps)
    {tile width height : Nat} (h : tileSizeOf sps pps tile = .ok (width, height)) :
    IsSize width ∧ IsSize height := by
  obtain ⟨later, rfl, hid⟩ := ppsAfter_eq_some hafter
  obtain ⟨hsps, hpps, -⟩ := hyields
  obtain ⟨sps', hknown, hpartition⟩ := Pps.known_of_produces hpps
  obtain rfl : sps = sps' := by
    have := Context.spsById_putSps s.ctx sps pps.spsId
    rw [if_pos hid.symm] at this
    exact Option.some.inj (this.symm.trans hknown)
  obtain ⟨layout, hlayout, hsize⟩ := bind_eq_ok_iff.1 h
  have hlayout := mapError_eq_ok_iff.1 hlayout
  obtain ⟨grid, _, _, hgrid, -⟩ := TileLayout.ofParamSets_eq_ok_iff.1 hlayout
  have hfits := (TileGrid.fits_codable_of_produces (Partition.produces_tiles hpartition hgrid)).1
  obtain ⟨⟨hw, hwLe⟩, hh, hhLe⟩ := TileLayout.tileSize_bounds hsps hgrid hfits (hrest grid hgrid)
    hlayout (elim_eq_ok_iff.1 hsize)
  obtain ⟨⟨-, hmaxWidth⟩, -, hmaxHeight⟩ := PictureFormat.bounds (Sps.produces_parts hsps).1
  exact ⟨⟨hw, Nat.le_trans hwLe hmaxWidth⟩, hh, Nat.le_trans hhLe hmaxHeight⟩

/-- What a tile gets of a unit is decoded as what it says. -/
theorem ownSetBytes_decoded {s d : DecoderState} {unit : DecodedUnit} {rest : List DecodedUnit}
    (hyields : s.YieldsAll (unit :: rest)) (hrest : LeaveRest (unit :: rest)) {tile : Nat}
    {bytes : Bytes} (hbytes : ownSetBytes tile rest unit = .ok bytes) (h : Tracks d.ctx s.ctx) :
    ∃ contents nals sets d', ownSetContent tile rest unit = .ok contents ∧
      Decodes d bytes contents nals sets d' ∧ Tracks d'.ctx (s.after unit).ctx := by
  cases unit with
  | vps v =>
    obtain ⟨bits, hbits, rfl, hsolid⟩ := ownSet_eq_ok hbytes
    have hv := Vps.reads hyields.1 (Vps.hasExtension_of_encode hbits)
    exact ⟨_, _, _, _, rfl, .single hsolid (DecoderState.decodeNal_vps hv hbits) trivial,
      h.sps, h.pps⟩
  | sps sps =>
    obtain ⟨pps, hafter, hbytes⟩ := bind_eq_ok_iff.1 hbytes
    obtain ⟨⟨width, height⟩, hsize, hbytes⟩ := bind_eq_ok_iff.1 hbytes
    obtain ⟨bits, hbits, rfl, hsolid⟩ := ownSet_eq_ok hbytes
    obtain ⟨hwidth, hheight⟩ := tileSizeOf_isSize hyields (elim_eq_ok_iff.1 hafter)
      (hrest.1 pps (elim_eq_ok_iff.1 hafter)) hsize
    have hlong : sps.longTerm = none := Sps.longTerm_of_encode (s := sps.resized width height) hbits
    have hsps := Sps.reads_resized hyields.1 hlong hwidth hheight
    refine ⟨_, _, _, _, ?_, .single hsolid (DecoderState.decodeNal_sps hsps hbits) trivial,
      h.putSps sps hwidth hheight⟩
    exact bind_eq_ok_iff.2 ⟨pps, hafter, bind_eq_ok_iff.2 ⟨(width, height), hsize, rfl⟩⟩
  | pps pps =>
    obtain ⟨bits, hbits, rfl, hsolid⟩ := ownSet_eq_ok hbytes
    obtain ⟨sps, hknown, -⟩ := Pps.known_of_produces hyields.1
    obtain ⟨width, height, -, -, hknown'⟩ := h.sps _ _ hknown
    have hpps : (Pps.parse d.ctx.spsById).ReadsPayload (pps.encode .remove) (pps.asWritten .remove) :=
      Pps.reads hyields.1 hknown hknown' rfl rfl nofun
    exact ⟨_, _, _, _, rfl, .single hsolid (DecoderState.decodeNal_pps hpps hbits) trivial,
      h.putPps pps⟩
  | slice segment =>
    cases hbytes
    refine ⟨_, _, _, _, rfl, .nothing, ?_⟩
    rw [DecoderState.after_slice_ctx]
    exact h
  | other header =>
    cases hbytes
    exact ⟨_, _, _, _, rfl, .nothing, h⟩

/-- The parameter sets that a tile gets are decoded and keep the decoder on track. -/
theorem setBytes_decoded {s d : DecoderState} {units : List DecodedUnit}
    (hyields : s.YieldsAll units) (hrest : LeaveRest units) {tile : Nat} {bytes : Bytes}
    (hbytes : setBytes tile units = .ok bytes) (h : Tracks d.ctx s.ctx) :
    ∃ contents nals sets d', setContents tile units = .ok contents ∧
      Decodes d bytes contents nals sets d' ∧
      Tracks d'.ctx (units.foldl DecoderState.after s).ctx := by
  induction units generalizing s d bytes with
  | nil =>
    cases hbytes
    exact ⟨_, _, _, _, rfl, .nothing, h⟩
  | cons unit rest ih =>
    obtain ⟨own, hown, hbytes⟩ := bind_eq_ok_iff.1 hbytes
    obtain ⟨later, hlater, hbytes⟩ := bind_eq_ok_iff.1 hbytes
    cases hbytes
    obtain ⟨as, nals₁, us, d₁, has, h₁, htracks⟩ := ownSetBytes_decoded hyields hrest hown h
    obtain ⟨bs, nals₂, vs, d₂, hbs, h₂, htracks⟩ := ih hyields.2 hrest.tail hlater htracks
    refine ⟨as ++ bs, _, _, _, ?_, h₁.append h₂, htracks⟩
    rw [setContents, has, hbs]
    rfl

/-! ## Slices -/

/-- The parameter sets of an access unit come before its slices. If a slice depends on another one,
all slices are of its type and refer to its picture parameter set. Nothing in the access unit hides
where a unit ends or makes a tile vanish. -/
structure Orderly (au : AccessUnit) (ctx : Context) : Prop where
  setsFirst : au.units.Pairwise fun a b => a.slice?.isSome → ¬ IsSet b
  kind : ∀ a ∈ au.slices, ∀ b ∈ au.slices, b.header.dependent = true →
    a.nalHeader.unitType = b.nalHeader.unitType ∧ a.header.ppsId = b.header.ppsId
  noSync : ∀ a ∈ au.slices, ∀ pps ∈ ctx.ppsById a.header.ppsId, pps.partition.entropySync = false
  data : ∀ a ∈ au.slices, a.data.getLast? ≠ some 0
  sizes : LeaveRest au.units

instance (au : AccessUnit) (ctx : Context) : Decidable (Orderly au ctx) :=
  decidable_of_iff
    ((au.units.Pairwise fun a b => a.slice?.isSome → ¬ IsSet b) ∧
      (∀ a ∈ au.slices, ∀ b ∈ au.slices, b.header.dependent = true →
        a.nalHeader.unitType = b.nalHeader.unitType ∧ a.header.ppsId = b.header.ppsId) ∧
      (∀ a ∈ au.slices, ∀ pps ∈ ctx.ppsById a.header.ppsId, pps.partition.entropySync = false) ∧
      (∀ a ∈ au.slices, a.data.getLast? ≠ some 0) ∧ LeaveRest au.units)
    ⟨fun ⟨h₁, h₂, h₃, h₄, h₅⟩ => ⟨h₁, h₂, h₃, h₄, h₅⟩, fun ⟨h₁, h₂, h₃, h₄, h₅⟩ =>
      ⟨h₁, h₂, h₃, h₄, h₅⟩⟩

/-- A slice can be written for its tile so that it is read back. -/
structure Ready (ctx : Context) (segment : SliceUnit) : Prop where
  unitType : segment.nalHeader.layerId = 0 ∧ segment.nalHeader.unitType.isSlice = true
  legible : ∃ pps sps, ctx.ppsById segment.header.ppsId = some pps ∧ ctx.spsOf pps = some sps ∧
    pps.partition.entropySync = false ∧
    segment.header.Legible segment.nalHeader.unitType sps pps
  data : segment.data.getLast? ≠ some 0

theorem foldl_after_ctx {s : DecoderState} {units : List DecodedUnit}
    (h : ∀ unit ∈ units, ¬ IsSet unit) : (units.foldl DecoderState.after s).ctx = s.ctx := by
  induction units generalizing s with
  | nil => rfl
  | cons unit units ih =>
    rw [List.foldl_cons, ih fun u hu => h u (List.mem_cons_of_mem _ hu)]
    have hunit := h unit List.mem_cons_self
    cases unit with
    | slice segment => exact s.after_slice_ctx segment
    | other header => rfl
    | _ => exact absurd trivial hunit

/-- The fields of the last independent slice were read with the parameter sets of any slice that is
still to come and depends on it, and these do not change. -/
def Carries (s : DecoderState) (units : List DecodedUnit) : Prop :=
  ∀ p, s.lastIndependent = some p → (∀ unit ∈ units, ¬ IsSet unit) ∧
    ∀ segment, .slice segment ∈ units → segment.header.dependent = true →
      ∃ pps sps, s.ctx.ppsById segment.header.ppsId = some pps ∧ s.ctx.spsOf pps = some sps ∧
        (SliceFields.parse segment.nalHeader.unitType sps pps).Produces p.fields

theorem Carries.tail {s s' : DecoderState} {unit : DecodedUnit} {units : List DecodedUnit}
    (h : Carries s (unit :: units)) (hlast : s'.lastIndependent = s.lastIndependent)
    (hctx : ¬ IsSet unit → s'.ctx = s.ctx) : Carries s' units := by
  intro p hp
  obtain ⟨hnone, hfields⟩ := h p (hlast ▸ hp)
  rw [hctx (hnone unit List.mem_cons_self)]
  exact ⟨fun u hu => hnone u (List.mem_cons_of_mem _ hu),
    fun segment hmem => hfields segment (List.mem_cons_of_mem _ hmem)⟩

theorem legible_of_yields {s : DecoderState} {segment : SliceUnit} {units : List DecodedUnit}
    (hyields : s.Yields (.slice segment)) (hcarries : Carries s (.slice segment :: units)) :
    ∃ pps sps, s.ctx.ppsById segment.header.ppsId = some pps ∧ s.ctx.spsOf pps = some sps ∧
      segment.header.Legible segment.nalHeader.unitType sps pps := by
  obtain ⟨pps, sps, hpps, hsps, -, hdependent, hindependent, hlegible⟩ :=
    SliceHeader.legible_of_produces hyields.2
  refine ⟨pps, sps, hpps, hsps, hlegible ?_⟩
  cases hd : segment.header.dependent with
  | false => exact hindependent hd
  | true =>
    obtain ⟨p, hp, hfields⟩ := hdependent hd
    obtain ⟨pps', sps', hpps', hsps', hproduces⟩ := (hcarries p hp).2 segment List.mem_cons_self hd
    obtain rfl : pps = pps' := Option.some.inj (hpps.symm.trans hpps')
    obtain rfl : sps = sps' := Option.some.inj (hsps.symm.trans hsps')
    rw [hfields]
    exact hproduces

/-- Dependent slices take over fields that were read with the same parameter sets, as no set comes
between the slices. -/
theorem legible_of_yieldsAll {s : DecoderState} {units : List DecodedUnit}
    (hyields : s.YieldsAll units)
    (hfirst : units.Pairwise fun a b => a.slice?.isSome → ¬ IsSet b)
    (hkind : ∀ a b, .slice a ∈ units → .slice b ∈ units → b.header.dependent = true →
      a.nalHeader.unitType = b.nalHeader.unitType ∧ a.header.ppsId = b.header.ppsId)
    (hcarries : Carries s units) :
    ∀ segment, .slice segment ∈ units →
      (segment.nalHeader.layerId = 0 ∧ segment.nalHeader.unitType.isSlice = true) ∧
      ∃ pps sps, (units.foldl DecoderState.after s).ctx.ppsById segment.header.ppsId = some pps ∧
        (units.foldl DecoderState.after s).ctx.spsOf pps = some sps ∧
        segment.header.Legible segment.nalHeader.unitType sps pps := by
  induction units generalizing s with
  | nil => exact fun _ h => absurd h List.not_mem_nil
  | cons unit units ih =>
    obtain ⟨hunit, hyields⟩ := hyields
    obtain ⟨hhead, htail⟩ := List.pairwise_cons.1 hfirst
    have hkind' := fun a b ha hb =>
      hkind a b (List.mem_cons_of_mem unit ha) (List.mem_cons_of_mem unit hb)
    cases unit with
    | slice segment₀ =>
      have hnone : ∀ unit ∈ units, ¬ IsSet unit := fun u hu => hhead u hu rfl
      have hctx := s.after_slice_ctx segment₀
      obtain ⟨pps, sps, hpps, hsps, hlegible⟩ := legible_of_yields hunit hcarries
      intro segment hmem
      obtain h | h := List.mem_cons.1 hmem
      · cases h
        rw [List.foldl_cons, foldl_after_ctx hnone, hctx]
        exact ⟨hunit.1, pps, sps, hpps, hsps, hlegible⟩
      · refine ih hyields htail hkind' ?_ segment h
        by_cases hd : segment₀.header.dependent = true
        · exact hcarries.tail (by simp [DecoderState.after, hd]) fun _ => hctx
        · rintro p hp
          obtain rfl : segment₀.header = p := by simpa [DecoderState.after, hd] using hp
          refine ⟨hnone, fun later hlater hdependent => ⟨pps, sps, ?_⟩⟩
          obtain ⟨htype, hid⟩ := hkind segment₀ later List.mem_cons_self
            (List.mem_cons_of_mem _ hlater) hdependent
          rw [hctx, ← htype, ← hid]
          exact ⟨hpps, hsps, hlegible.fields⟩
    | other header =>
      exact fun segment hmem => ih hyields htail hkind' (hcarries.tail rfl fun _ => rfl) segment
        ((List.mem_cons.1 hmem).resolve_left (by simp))
    | _ =>
      -- before a set there was no slice
      exact fun segment hmem => ih hyields htail hkind'
        (hcarries.tail rfl fun h => absurd trivial h) segment
        ((List.mem_cons.1 hmem).resolve_left (by simp))

/-- The slices of an access unit in order can be written so that they are read back. -/
theorem ready_of_decode {c ctx : Context} {bytes : Bytes} {au : AccessUnit}
    (hdecode : AccessUnit.decode c bytes = .ok (au, ctx)) (horder : Orderly au ctx)
    {segment : SliceUnit} (hmem : segment ∈ au.slices) : Ready ctx segment := by
  obtain ⟨hyields, rfl⟩ := AccessUnit.yieldsAll_of_decode hdecode
  obtain ⟨hunitType, pps, sps, hpps, hsps, hlegible⟩ := legible_of_yieldsAll hyields
    horder.setsFirst (fun a b ha hb => horder.kind a (AccessUnit.mem_slices_iff.2 ha) b
      (AccessUnit.mem_slices_iff.2 hb))
    (by rintro p ⟨⟩) segment (AccessUnit.mem_slices_iff.1 hmem)
  exact ⟨hunitType, ⟨pps, sps, hpps, hsps, horder.noSync segment hmem pps hpps, hlegible⟩,
    horder.data segment hmem⟩

/-- A slice is read back in the stream of its tile as the only one of its picture. Its place there
does not depend on the size of the tile. -/
theorem Tracks.reads_slice {s : DecoderState} (h : Tracks s.ctx c) {segment : SliceUnit} {pps : Pps}
    {sps : Sps} (hpps : c.ppsById segment.header.ppsId = some pps) (hsps : c.spsOf pps = some sps)
    (hlegible : segment.header.Legible segment.nalHeader.unitType sps pps)
    (hsync : pps.partition.entropySync = false) (houtput : pps.outputFlagPresent = false)
    (hplanes : sps.format.separatePlanes = false) (hlong : sps.longTerm = none)
    (width height : Nat) :
    (SliceHeader.parse s.ctx segment.nalHeader.unitType s.lastIndependent).ReadsFront
      (segment.header.encode segment.nalHeader.unitType sps pps ⟨width, height, .remove, 0, 0, true⟩)
      { segment.header with
        first := true
        dependent := false
        address := 0
        fields := { segment.header.fields with reservedFlags := 0 }
        entryPoints := none } := by
  obtain ⟨width', height', hwidth, hheight, hknown⟩ := h.sps _ _ hsps
  let target : SliceHeader.Target := ⟨width', height', .remove, 0, 0, true⟩
  have hentry : (TileOverride.remove.apply pps.partition).hasEntryPoints = false := hsync
  have hread : (SliceHeader.parse s.ctx segment.nalHeader.unitType s.lastIndependent).ReadsFront
      (segment.header.encode segment.nalHeader.unitType sps pps target)
      (segment.header.asWritten sps pps target) :=
    SliceHeader.reads hlegible ⟨hwidth.1, hheight.1, hwidth.2, hheight.2⟩ rfl houtput hplanes hlong
      (h.pps _ _ hpps) hknown fun hhas => absurd hhas (by rw [hentry]; decide)
  have haddress : target.address sps.log2Ctb = 0 := SliceHeader.Target.address_of_isFirst _ rfl
  rw [SliceHeader.asWritten, haddress, show target.tiles = .remove from rfl, hentry] at hread
  exact hread

/-- A slice is decoded in the stream of its tile as the only one of its picture. -/
theorem ownSlice_decoded {segment : SliceUnit} (hready : Ready c segment) {dest : Destination}
    (hdest : destination c segment = .ok dest) {bytes : Bytes} (hbytes : ownSlice segment dest = .ok bytes)
    {s : DecoderState} (h : Tracks s.ctx c) :
    ∃ nal got, bytes = framedAll [nal] ∧ Solid nal ∧ s.decodeNal nal = .ok (.slice got) ∧
      (DecodedUnit.slice got).content = sliceContent segment := by
  obtain ⟨hunitType, ⟨pps, sps, hpps, hsps, hsync, hlegible⟩, hdata⟩ := hready
  obtain ⟨sps', pps', tile, target⟩ := dest
  obtain ⟨hpps', hsps', _, w, h', -, -, -, rfl⟩ := destination_eq_ok_iff.1 hdest
  obtain rfl : pps = pps' := Option.some.inj (hpps.symm.trans hpps')
  obtain rfl : sps = sps' := Option.some.inj (hsps.symm.trans hsps')
  obtain ⟨stream, hstream, rfl⟩ := map_eq_ok_iff.1 hbytes
  have hstream := mapError_eq_ok_iff.1 hstream
  rw [BitStream.slice_eq rfl] at hstream
  obtain ⟨bits, hbits, rfl⟩ := map_eq_ok_iff.1 hstream
  obtain ⟨houtput, hplanes, hlong⟩ := SliceHeader.supported_of_encode hbits
  have hread := h.reads_slice hpps hsps hlegible hsync houtput hplanes hlong w h'
  obtain ⟨hsolid, got, hgot, hcontent⟩ := slice_decoded hunitType hdata hread hbits
  exact ⟨_, got, by simp [framedAll, framedBytes, BitStream.empty], hsolid, hgot, hcontent⟩

/-- A slice has a code in the stream of its tile if nothing in it is not supported. -/
theorem ownSlice_ok {segment : SliceUnit} (hready : Ready c segment) {dest : Destination}
    (hdest : destination c segment = .ok dest) (houtput : dest.pps.outputFlagPresent = false)
    (hplanes : dest.sps.format.separatePlanes = false) (hlong : dest.sps.longTerm = none)
    {s : DecoderState} (h : Tracks s.ctx c) : ∃ bytes, ownSlice segment dest = .ok bytes := by
  obtain ⟨-, ⟨pps, sps, hpps, hsps, hsync, hlegible⟩, -⟩ := hready
  obtain ⟨sps', pps', tile, target⟩ := dest
  obtain ⟨hpps', hsps', _, width, height, -, -, -, rfl⟩ := destination_eq_ok_iff.1 hdest
  obtain rfl : pps = pps' := Option.some.inj (hpps.symm.trans hpps')
  obtain rfl : sps = sps' := Option.some.inj (hsps.symm.trans hsps')
  have hread := h.reads_slice hpps hsps hlegible hsync houtput hplanes hlong width height
  obtain ⟨bits, hbits, -⟩ := hread.decodeFront
  have hstream := (BitStream.slice_eq (s := .empty) rfl segment sps pps
    ⟨width, height, .remove, 0, 0, true⟩).trans (congrArg _ hbits)
  exact ⟨_, map_eq_ok_iff.2 ⟨_, mapError_eq_ok_iff.2 hstream, rfl⟩⟩

end TileStreams

end TiledVideo
