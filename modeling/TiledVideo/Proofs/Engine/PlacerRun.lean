import TiledVideo.Proofs.Engine.Placing
import TiledVideo.Proofs.Engine.Requests
import TiledVideo.Proofs.Engine.TileDecoding

/-!
# Runs of a placer

Whoever decodes the packets that a placer makes, one after the other, gets the larger picture's
parameter sets and one slice with each. Parameter sets may wait for several access units before a
slice takes them along, so what a packet says is told by a fold over the access units.

Results:

* `canWrite_of_writeUnits`: what a placer has written could be written.
* `placeable_of_writeSlice`: the first slice of an access unit that a placer has written is read back.
* `Follows.sets`, `Follows.slice`: a decoder of the packets follows the placer.
* `decodes_made`: the packets are decoded in any run.
-/

namespace TiledVideo

open ByteStream

namespace Placer

variable {p : Placement} {c ctx d : Context}

/-! ## Runs -/

/-- What has become of a packet. -/
structure Filtered where
  /-- The access unit and the parameter sets in force after it, if it could be read. -/
  parsed : Option (AccessUnit × Context)
  /-- The packet that was given for it. -/
  output : Option Packet
  deriving DecidableEq

/-- Filters packets one after the other, if none of them fails. -/
def filterAll (s : Placer) : List Packet → Except EngineError (List Filtered × Placer)
  | [] => .ok ([], s)
  | packet :: later =>
    match s.filter packet with
    | (.error e, _) => .error e
    | (.ok output, s') => do
      let (rest, last) ← s'.filterAll later
      pure (⟨(AccessUnit.decode s.ctx packet.data).toOption, output⟩ :: rest, last)

/-- What becomes of a packet if the placer does not fail. -/
inductive Step (s : Placer) (packet : Packet) : Filtered → Placer → Prop where
  /-- An access unit that cannot be read is given back as it is. -/
  | unread : Step s packet ⟨none, some packet⟩ s
  /-- Parameter sets without a slice wait. -/
  | sets {au : AccessUnit} {ctx : Context} {stream : BitStream}
    (decode : AccessUnit.decode s.ctx packet.data = .ok (au, ctx))
    (write : au.units.foldlM (writeUnit s.placement ctx) s.stream = .ok stream)
    (first : au.slices.head? = none) :
    Step s packet ⟨some (au, ctx), none⟩ { s with ctx, stream }
  /-- The first slice takes along all that waits. -/
  | slice {au : AccessUnit} {ctx : Context} {stream stream' : BitStream} {segment : SliceUnit}
    (decode : AccessUnit.decode s.ctx packet.data = .ok (au, ctx))
    (write : au.units.foldlM (writeUnit s.placement ctx) s.stream = .ok stream)
    (first : au.slices.head? = some segment)
    (writeSlice : writeSlice s.placement ctx stream segment = .ok stream') :
    Step s packet ⟨some (au, ctx), some (packet.derive stream'.out.bytes)⟩
      { s with ctx, stream := .empty }

theorem step_of_filter {memory : Memory} {s s' : Placer} {packet : Packet} {output : Option Packet}
    (h : s.filter packet memory = (.ok output, s')) :
    Step s packet ⟨(AccessUnit.decode s.ctx packet.data).toOption, output⟩ s' := by
  have hfilters := s.filters packet memory
  rw [h] at hfilters
  cases hfilters with
  | unread decode =>
    rw [decode]
    exact .unread
  | waits decode place =>
    obtain ⟨hfirst, hwrite⟩ := place_eq_ok_false_iff.1 place
    rw [decode]
    exact .sets decode hwrite hfirst
  | placed decode place packetData =>
    obtain ⟨segment, stream, hfirst, hwrite, hslice⟩ := place_eq_ok_true_iff.1 place
    rw [decode, BitStream.bytes_of_packetData packetData]
    exact .slice decode hwrite hfirst hslice

/-- The access units that could be read, with the parameter sets in force after each. -/
def parsed (filtered : List Filtered) : List (AccessUnit × Context) :=
  filtered.filterMap (·.parsed)

theorem parsed_cons (first : Filtered) (rest : List Filtered) :
    parsed (first :: rest) = first.parsed.toList ++ parsed rest := by
  rw [parsed, List.filterMap_cons]
  cases first.parsed <;> rfl

/-- The packets that were made of access units that could be read. -/
def made (filtered : List Filtered) : List Bytes :=
  (filtered.filter (·.parsed.isSome)).filterMap fun f => f.output.map (·.data)

/-! ## What the packets say -/

/-- What a slice says at its place in the larger picture. -/
def placedSlice (p : Placement) (ctx : Context) (segment : SliceUnit) : Option UnitContent := do
  let (sps, _) ← ctx.paramSets segment.header.ppsId
  pure <| .slice segment.nalHeader
    { segment.header with
      first := p.x == 0 && p.y == 0
      address := p.y / 2 ^ sps.log2Ctb * ctbsFor p.width sps.log2Ctb + p.x / 2 ^ sps.log2Ctb
      fields := { segment.header.fields with reservedFlags := 0 }
      entryPoints := some (segment.header.entryPoints.getD .none) }
    segment.data

/-- What each packet says that is made of access units: the parameter sets up to a slice, and the
first slice of its access unit. -/
def pictures (p : Placement) :
    List UnitContent → List (AccessUnit × Context) → Option (List (List UnitContent))
  | _, [] => some []
  | waiting, (au, ctx) :: later =>
    let sets := waiting ++ au.units.flatMap (placedContent p)
    match au.slices.head? with
    | none => pictures p sets later
    | some segment => do
      let slice ← placedSlice p ctx segment
      let rest ← pictures p [] later
      pure ((sets ++ [slice]) :: rest)

/-! ## Access units in order -/

/-- Units come one before the other: no sequence parameter set comes behind a picture parameter set
or a slice, and no picture parameter set behind a slice. -/
def MayPrecede : DecodedUnit → DecodedUnit → Prop
  | .pps _, .sps _ | .slice _, .sps _ | .slice _, .pps _ => False
  | _, _ => True

instance : DecidableRel MayPrecede
  | .pps _, .sps _ | .slice _, .sps _ | .slice _, .pps _ => .isFalse id
  | .vps _, _ | .sps _, _ | .other _, _ => .isTrue trivial
  | .pps _, .vps _ | .pps _, .pps _ | .pps _, .slice _ | .pps _, .other _ => .isTrue trivial
  | .slice _, .vps _ | .slice _, .slice _ | .slice _, .other _ => .isTrue trivial

/-- The units of an access unit are in order. Its first slice has no more entry points than the
larger picture has blocks, and its data do not hide where it ends. -/
structure Orderly (p : Placement) (au : AccessUnit) (ctx : Context) : Prop where
  order : au.units.Pairwise MayPrecede
  entryPoints : ∀ segment ∈ au.slices.head?, ∀ q ∈ ctx.paramSets segment.header.ppsId,
    (segment.header.entryPoints.getD .none).offsetsMinus1.length ≤
      (q.1.resized p.width p.height).sizeInCtbs
  data : ∀ segment ∈ au.slices.head?, segment.data.getLast? ≠ some 0

instance (p : Placement) (au : AccessUnit) (ctx : Context) : Decidable (Orderly p au ctx) :=
  decidable_of_iff
    (au.units.Pairwise MayPrecede ∧
      (∀ segment ∈ au.slices.head?, ∀ q ∈ ctx.paramSets segment.header.ppsId,
        (segment.header.entryPoints.getD .none).offsetsMinus1.length ≤
          (q.1.resized p.width p.height).sizeInCtbs) ∧
      ∀ segment ∈ au.slices.head?, segment.data.getLast? ≠ some 0)
    ⟨fun ⟨h₁, h₂, h₃⟩ => ⟨h₁, h₂, h₃⟩, fun ⟨h₁, h₂, h₃⟩ => ⟨h₁, h₂, h₃⟩⟩

theorem settled_of_order {s : DecoderState} {units : List DecodedUnit}
    (h : units.Pairwise MayPrecede) : Settled (units.foldl DecoderState.after s).ctx s units := by
  induction units generalizing s with
  | nil => trivial
  | cons unit rest ih =>
    obtain ⟨hhead, htail⟩ := List.pairwise_cons.1 h
    refine ⟨fun pps hpps => ?_, ih htail⟩
    cases unit with
    | pps _ =>
      cases hpps
      have hnone : ∀ u ∈ DecodedUnit.pps pps :: rest, u.sps? = none := by
        intro u hu
        rcases List.mem_cons.1 hu with rfl | hu
        · rfl
        · have hlate := hhead u hu
          cases u with
          | sps sps => exact hlate.elim
          | _ => rfl
      rw [Context.spsOf, Context.spsOf, DecoderState.spsById_after, lastSps_eq_none hnone,
        Option.none_or]
    | _ => cases hpps

/-- The first slice of an access unit depends on no other one, and was read with the parameter sets
in force at the end. -/
theorem legible_of_head {s : DecoderState} {units : List DecodedUnit} (hyields : s.YieldsAll units)
    (horder : units.Pairwise MayPrecede) (hnone : s.lastIndependent = none) {segment : SliceUnit}
    (hfirst : (units.filterMap DecodedUnit.slice?).head? = some segment) :
    segment.header.dependent = false ∧
      (segment.nalHeader.layerId = 0 ∧ segment.nalHeader.unitType.isSlice = true) ∧
      ∃ pps sps, (units.foldl DecoderState.after s).ctx.ppsById segment.header.ppsId = some pps ∧
        (units.foldl DecoderState.after s).ctx.spsOf pps = some sps ∧
        segment.header.Legible segment.nalHeader.unitType sps pps := by
  induction units generalizing s with
  | nil => cases hfirst
  | cons unit units ih =>
    obtain ⟨hunit, hyields⟩ := hyields
    obtain ⟨hhead, htail⟩ := List.pairwise_cons.1 horder
    cases unit with
    | slice segment' =>
      cases hfirst
      obtain ⟨hunitType, hproduces⟩ := hunit
      obtain ⟨pps, sps, hpps, hsps, -, hdependent, hindependent, hlegible⟩ :=
        SliceHeader.legible_of_produces hproduces
      have hd : segment.header.dependent = false := by
        rw [← Bool.not_eq_true]
        intro hd
        obtain ⟨_, hprevious, -⟩ := hdependent hd
        rw [hnone] at hprevious
        cases hprevious
      have hnone : ∀ u ∈ DecodedUnit.slice segment :: units, u.sps? = none ∧ u.pps? = none := by
        intro u hu
        rcases List.mem_cons.1 hu with rfl | hu
        · exact ⟨rfl, rfl⟩
        · have hlate := hhead u hu
          cases u with
          | sps sps => exact hlate.elim
          | pps pps => exact hlate.elim
          | _ => exact ⟨rfl, rfl⟩
      refine ⟨hd, hunitType, pps, sps, ?_, ?_, hlegible (hindependent hd)⟩
      · rw [DecoderState.ppsById_after, lastPps_eq_none fun u hu => (hnone u hu).2, Option.none_or]
        exact hpps
      · rw [Context.spsOf, DecoderState.spsById_after, lastSps_eq_none fun u hu => (hnone u hu).1,
          Option.none_or]
        exact hsps
    | _ => exact ih hyields htail hnone hfirst

/-- The first slice of an access unit in order is legible with the parameter sets in force after it. -/
theorem legible_of_decode {bytes : Bytes} {au : AccessUnit}
    (hdecode : AccessUnit.decode c bytes = .ok (au, ctx)) (horder : au.units.Pairwise MayPrecede)
    {segment : SliceUnit} (hfirst : au.slices.head? = some segment) {sps : Sps} {pps : Pps}
    (hsets : ctx.paramSets segment.header.ppsId = some (sps, pps)) :
    segment.header.Legible segment.nalHeader.unitType sps pps := by
  obtain ⟨hyields, rfl⟩ := AccessUnit.yieldsAll_of_decode hdecode
  obtain ⟨-, -, pps', sps', hpps', hsps', hlegible⟩ := legible_of_head hyields horder rfl hfirst
  obtain ⟨hpps, hsps⟩ := Context.paramSets_eq_some_iff.1 hsets
  obtain rfl : pps = pps' := Option.some.inj (hpps.symm.trans hpps')
  obtain rfl : sps = sps' := Option.some.inj (hsps.symm.trans hsps')
  exact hlegible

/-! ## What has been written -/

theorem canWrite_of_writeUnit {s : DecoderState} {unit : DecodedUnit} (hyields : s.Yields unit)
    (hsettled : ∀ pps, unit.pps? = some pps → s.ctx.spsOf pps = ctx.spsOf pps)
    {stream stream' : BitStream} (hs : stream.Whole)
    (h : writeUnit p ctx stream unit = .ok stream') : CanWrite p ctx unit ∧ stream'.Whole := by
  have hwritten : ∀ {unitType : UnitType} {code : Code},
      (stream.parameterSet unitType code.closed).mapError EngineError.ofWrite = .ok stream' →
        (∃ bits, code.closed = .ok bits) ∧ stream'.Whole := by
    intro unitType code h
    have h := mapError_eq_ok_iff.1 h
    rw [BitStream.parameterSet_eq hs.pending] at h
    obtain ⟨bits, hbits, rfl⟩ := map_eq_ok_iff.1 h
    exact ⟨⟨bits, hbits⟩, hs.withUnit _ _⟩
  cases unit with
  | vps set =>
    obtain ⟨⟨bits, hbits⟩, hwhole⟩ := hwritten h
    exact ⟨Vps.hasExtension_of_encode hbits, hwhole⟩
  | sps sps =>
    obtain ⟨⟨bits, hbits⟩, hwhole⟩ := hwritten h
    exact ⟨Sps.longTerm_of_encode (s := sps.resized p.width p.height) hbits, hwhole⟩
  | pps pps =>
    obtain ⟨sps, hknown, -⟩ := Pps.known_of_produces hyields
    have hsps : ctx.spsOf pps = some sps := (hsettled pps rfl).symm.trans hknown
    simp only [writeUnit, hsps] at h
    obtain ⟨_, hgrid, h⟩ := bind_eq_ok_iff.1 h
    exact ⟨⟨sps, hsps, hgrid⟩, (hwritten h).2⟩
  | slice segment =>
    cases h
    exact ⟨trivial, hs⟩
  | other header =>
    cases h
    exact ⟨trivial, hs⟩

theorem canWrite_of_writeUnits {s : DecoderState} {units : List DecodedUnit}
    (hyields : s.YieldsAll units) (hsettled : Settled ctx s units) {stream stream' : BitStream}
    (hs : stream.Whole) (h : units.foldlM (writeUnit p ctx) stream = .ok stream') :
    ∀ unit ∈ units, CanWrite p ctx unit := by
  induction units generalizing s stream with
  | nil => exact fun _ hmem => absurd hmem List.not_mem_nil
  | cons unit rest ih =>
    obtain ⟨stream₁, hfirst, h⟩ := bind_eq_ok_iff.1 h
    obtain ⟨hwrite, hs₁⟩ := canWrite_of_writeUnit hyields.1 hsettled.1 hs hfirst
    intro u hu
    obtain rfl | hu := List.mem_cons.1 hu
    · exact hwrite
    · exact ih hyields.2 hsettled.2 hs₁ h u hu

/-- The place of a slice that has been written is in the larger picture. -/
theorem place_lt_of_encode (hp : p.check = .ok ()) {h : SliceHeader} {unitType : UnitType}
    {sps : Sps} {pps : Pps} {bits : BitString}
    (hbits : h.encode unitType sps pps p.target = .ok bits) : p.x < p.width ∧ p.y < p.height := by
  obtain ⟨⟨hwidth, -⟩, ⟨hheight, -⟩, -⟩ := Placement.bounds_of_check hp
  cases hfirst : p.target.isFirst with
  | true =>
    obtain ⟨hx, hy⟩ : p.x = 0 ∧ p.y = 0 := by
      simpa [SliceHeader.Target.isFirst, Placement.target] using hfirst
    rw [hx, hy]
    exact ⟨hwidth, hheight⟩
  | false => exact SliceHeader.place_of_encode hbits hfirst

/-- The first slice of an access unit in order that has been written can be read back. -/
theorem placeable_of_writeSlice (hp : p.check = .ok ()) {bytes : Bytes} {au : AccessUnit}
    (hdecode : AccessUnit.decode c bytes = .ok (au, ctx)) (horder : Orderly p au ctx)
    {segment : SliceUnit} (hfirst : au.slices.head? = some segment) {stream stream' : BitStream}
    (hs : stream.Whole) (h : writeSlice p ctx stream segment = .ok stream') :
    segment.header.dependent = false ∧ (p.x < p.width ∧ p.y < p.height) ∧
      ∃ pps sps, ctx.ppsById segment.header.ppsId = some pps ∧ ctx.spsOf pps = some sps ∧
        Placeable p segment sps pps := by
  obtain ⟨hyields, rfl⟩ := AccessUnit.yieldsAll_of_decode hdecode
  obtain ⟨hdependent, hunitType, pps, sps, hpps, hsps, hlegible⟩ :=
    legible_of_head hyields horder.order rfl hfirst
  obtain ⟨pps', hpps', h⟩ := bind_eq_ok_iff.1 h
  obtain ⟨sps', hsps', h⟩ := bind_eq_ok_iff.1 h
  obtain rfl : pps = pps' := Option.some.inj (hpps.symm.trans (elim_eq_ok_iff.1 hpps'))
  obtain rfl : sps = sps' := Option.some.inj (hsps.symm.trans (elim_eq_ok_iff.1 hsps'))
  have h := mapError_eq_ok_iff.1 h
  rw [BitStream.slice_eq hs.pending] at h
  obtain ⟨bits, hbits, -⟩ := map_eq_ok_iff.1 h
  obtain ⟨houtput, hplanes, hlong⟩ := SliceHeader.supported_of_encode hbits
  have hentryPoints := horder.entryPoints segment hfirst (sps, pps)
    (Context.paramSets_eq_some_iff.2 ⟨hpps, hsps⟩)
  exact ⟨hdependent, place_lt_of_encode hp hbits, pps, sps, hpps, hsps, hunitType, hlegible, houtput,
    hplanes, hlong, hentryPoints, horder.data segment hfirst⟩

theorem placedSlice_eq {segment : SliceUnit} {sps : Sps} {pps : Pps}
    (hdependent : segment.header.dependent = false)
    (hpps : ctx.ppsById segment.header.ppsId = some pps) (hsps : ctx.spsOf pps = some sps) :
    placedSlice p ctx segment = some (.slice segment.nalHeader
      (segment.header.asWritten sps pps p.target) segment.data) := by
  rw [placedSlice, Context.paramSets_eq_some_iff.2 ⟨hpps, hsps⟩, SliceHeader.asWritten, ← hdependent]
  rfl

/-! ## A decoder of the packets -/

/-- A decoder that has read the packets so far has the sets `d` in force. With what waits in the
stream, which says `waiting`, its sets are those of the placer. -/
structure Follows (p : Placement) (d : Context) (waiting : List UnitContent) (ctx : Context)
    (stream : BitStream) : Prop where
  whole : stream.Whole
  waiting : ∃ nals sets e, Decodes (.start d) stream.out.bytes waiting nals sets e ∧
    Mirrors p e.ctx ctx

variable {waiting : List UnitContent} {stream stream' : BitStream}

theorem Follows.start (p : Placement) : Follows p .empty [] .empty .empty :=
  ⟨BitStream.whole_empty, _, _, _, .nothing, .empty p⟩

/-- The parameter sets of an access unit wait with those before them. -/
theorem Follows.sets (hfollows : Follows p d waiting c stream) (hp : p.check = .ok ())
    {bytes : Bytes} {au : AccessUnit} (hdecode : AccessUnit.decode c bytes = .ok (au, ctx))
    (horder : Orderly p au ctx) (h : au.units.foldlM (writeUnit p ctx) stream = .ok stream') :
    Follows p d (waiting ++ au.units.flatMap (placedContent p)) ctx stream' := by
  obtain ⟨hyields, rfl⟩ := AccessUnit.yieldsAll_of_decode hdecode
  obtain ⟨hs, nals, sets, e, hwaiting, hmirrors⟩ := hfollows
  have hsettled := settled_of_order (s := .start c) horder.order
  obtain ⟨written, bytes, nals', sets', e', hwritten, hwhole, hbytes, hdecodes, hmirrors⟩ :=
    writeUnits_decoded hp hyields (canWrite_of_writeUnits hyields hsettled hs h) hsettled hmirrors hs
  obtain rfl : stream' = written := Except.ok.inj (h.symm.trans hwritten)
  refine ⟨hwhole, nals ++ nals', sets ++ sets', e', ?_, hmirrors⟩
  rw [hbytes]
  exact hwaiting.append hdecodes

/-- A slice takes along all that waits. -/
theorem Follows.slice (hfollows : Follows p d waiting ctx stream) (hp : p.check = .ok ())
    {bytes : Bytes} {au : AccessUnit} (hdecode : AccessUnit.decode c bytes = .ok (au, ctx))
    (horder : Orderly p au ctx) {segment : SliceUnit} (hfirst : au.slices.head? = some segment)
    (h : writeSlice p ctx stream segment = .ok stream') :
    ∃ got d' slice, AccessUnit.decode d stream'.out.bytes = .ok (got, d') ∧
      Splitter.EndsInSlice got ∧ placedSlice p ctx segment = some slice ∧
      got.units.map (·.content) = waiting ++ [slice] ∧ Follows p d' [] ctx .empty := by
  obtain ⟨hs, nals, sets, e, hwaiting, hmirrors⟩ := hfollows
  obtain ⟨hdependent, ⟨hx, hy⟩, pps, sps, hpps, hsps, hplaceable⟩ :=
    placeable_of_writeSlice hp hdecode horder hfirst hs h
  obtain ⟨written, nal, hwritten, -, hbytes, hsolid, hread⟩ :=
    writeSlice_decoded hp hx hy hpps hsps hplaceable hmirrors hs
  obtain rfl : stream' = written := Except.ok.inj (h.symm.trans hwritten)
  obtain ⟨got, hgot, hcontent⟩ := hread e (hmirrors.pps _ _ hpps) (hmirrors.sps _ _ hsps)
  refine ⟨⟨sets ++ [.slice got]⟩, e.ctx, _, ?_, ⟨sets, got, rfl, hwaiting.noSlice⟩,
    placedSlice_eq hdependent hpps hsps, ?_, BitStream.whole_empty, _, _, _, .nothing, hmirrors⟩
  · rw [hbytes]
    exact AccessUnit.decode_slice hwaiting hsolid hgot
  · rw [List.map_append, hwaiting.contents, List.map_singleton, hcontent]

/-! ## Decoding the packets -/

theorem decodes_made_from {s s' : Placer} {packets : List Packet} {filtered : List Filtered}
    (hp : s.placement.check = .ok ()) (hfollows : Follows s.placement d waiting s.ctx s.stream)
    (h : s.filterAll packets = .ok (filtered, s'))
    (horder : ∀ q ∈ parsed filtered, Orderly s.placement q.1 q.2) :
    ∃ aus last, AccessUnit.decodeAll d (made filtered) = .ok (aus, last) ∧
      (∀ au ∈ aus, Splitter.EndsInSlice au) ∧
      pictures s.placement waiting (parsed filtered) =
        some (aus.map fun au => au.units.map (·.content)) := by
  induction packets generalizing s d waiting filtered with
  | nil =>
    cases h
    exact ⟨[], d, rfl, by simp, rfl⟩
  | cons packet later ih =>
    rw [filterAll] at h
    split at h
    · cases h
    · next output s₁ hfilter =>
      obtain ⟨⟨rest, last⟩, hrest, h⟩ := bind_eq_ok_iff.1 h
      cases h
      have hstep := step_of_filter hfilter
      generalize (⟨(AccessUnit.decode s.ctx packet.data).toOption, output⟩ : Filtered) = first
        at hstep horder ⊢
      rw [parsed_cons] at horder ⊢
      cases hstep with
      | unread =>
        obtain ⟨aus, last, hall, hends, hpictures⟩ := ih hp hfollows hrest horder
        exact ⟨aus, last, hall, hends, hpictures⟩
      | @sets au ctx stream decode write first =>
        obtain ⟨hau, horder⟩ := List.forall_mem_cons.1 horder
        have hfollows₁ := hfollows.sets hp decode hau write
        obtain ⟨aus, last, hall, hends, hpictures⟩ :=
          ih (s := ⟨s.placement, ctx, stream⟩) hp hfollows₁ hrest horder
        refine ⟨aus, last, hall, hends, ?_⟩
        show pictures _ _ ((au, ctx) :: parsed rest) = _
        simp only [pictures, first]
        exact hpictures
      | @slice au ctx stream stream' segment decode write first writeSlice =>
        obtain ⟨hau, horder⟩ := List.forall_mem_cons.1 horder
        have hfollows₁ := hfollows.sets hp decode hau write
        obtain ⟨got, d', slice, hgot, hend, hplaced, hcontents, hfollows₂⟩ :=
          hfollows₁.slice hp decode hau first writeSlice
        obtain ⟨aus, last, hall, hends, hpictures⟩ :=
          ih (s := ⟨s.placement, ctx, .empty⟩) hp hfollows₂ hrest horder
        refine ⟨got :: aus, last, ?_, List.forall_mem_cons.2 ⟨hend, hends⟩, ?_⟩
        · show (AccessUnit.decode d stream'.out.bytes >>= _) = _
          rw [hgot]
          show (AccessUnit.decodeAll d' (made rest) >>= _) = _
          rw [hall]
          rfl
        · show pictures _ _ ((au, ctx) :: parsed rest) = _
          simp only [pictures, first, hplaced]
          rw [List.map_cons, hcontents, hpictures]
          rfl

/-- In any run of a new placer whose access units are in order, the packets made of them are decoded
one after the other without any others. Each is the parameter sets that were waiting, as they are
written for the larger picture, and the first slice of its access unit at its place. -/
theorem decodes_made {p : Placement} {s s' : Placer} {packets : List Packet}
    {filtered : List Filtered} (hnew : ofPlacement p = .ok s)
    (h : s.filterAll packets = .ok (filtered, s'))
    (horder : ∀ q ∈ parsed filtered, Orderly p q.1 q.2) :
    ∃ aus last, AccessUnit.decodeAll .empty (made filtered) = .ok (aus, last) ∧
      (∀ au ∈ aus, Splitter.EndsInSlice au) ∧
      pictures p [] (parsed filtered) = some (aus.map fun au => au.units.map (·.content)) := by
  obtain ⟨_, hp, hnew⟩ := bind_eq_ok_iff.1 hnew
  cases hnew
  exact decodes_made_from hp (Follows.start p) h horder

/-- The upper right tile of a larger picture of four tiles. -/
def samplePlacement : Placement where
  width := 3840
  height := 2176
  column := 2
  row := 2
  x := 1920

/-- A picture whose parameter sets come in a packet of their own, and a packet that cannot be read
between them and the slices. -/
def samplePackets : List Packet :=
  [{ data := Sample.picture.take 75 }, { data := [] }, { data := Sample.picture.drop 75 }]

/-- What becomes of these packets, and the placer afterwards. -/
def sampleFiltered : List Filtered × Placer :=
  match filterAll ⟨samplePlacement, .empty, .empty⟩ samplePackets with
  | .ok r => r
  | .error _ => ([], ⟨samplePlacement, .empty, .empty⟩)

theorem decodes_made_sample : ofPlacement samplePlacement = .ok ⟨samplePlacement, .empty, .empty⟩ ∧
    filterAll ⟨samplePlacement, .empty, .empty⟩ samplePackets =
      .ok (sampleFiltered.1, sampleFiltered.2) ∧
    (∀ q ∈ parsed sampleFiltered.1, Orderly samplePlacement q.1 q.2) ∧
    ∃ aus last, AccessUnit.decodeAll .empty (made sampleFiltered.1) = .ok (aus, last) ∧
      (∀ au ∈ aus, Splitter.EndsInSlice au) ∧
      pictures samplePlacement [] (parsed sampleFiltered.1) =
        some (aus.map fun au => au.units.map (·.content)) := by
  have hnew : ofPlacement samplePlacement = .ok ⟨samplePlacement, .empty, .empty⟩ := by
    decide +kernel
  have hrun : filterAll ⟨samplePlacement, .empty, .empty⟩ samplePackets =
      .ok (sampleFiltered.1, sampleFiltered.2) := by
    decide +kernel
  have horder : ∀ q ∈ parsed sampleFiltered.1, Orderly samplePlacement q.1 q.2 := by decide +kernel
  exact ⟨hnew, hrun, horder, decodes_made hnew hrun horder⟩

end Placer

end TiledVideo
