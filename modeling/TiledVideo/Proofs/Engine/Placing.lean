import TiledVideo.Engine.Placer
import TiledVideo.Proofs.Nal.DecodedSets

/-!
# Decoding placed pictures

A decoder of what a placer gives has the parameter sets of the placer in force, as they are written
for the larger picture. So it reads the slice where the placer has put it.

Results:

* `Placement.bounds_of_check`: the larger picture has a size that pictures can have.
* `writeUnits_decoded`: parameter sets that can be written are read back for the larger picture.
* `writeSlice_decoded`: so is the slice, by any decoder that knows its parameter sets.
* `filter_ok`: the packet that comes out of an access unit.
-/

namespace TiledVideo

open ByteStream

/-! ## Placements -/

theorem Placement.checkOption_eq_ok_iff {option : String} {value max : Nat} :
    Placement.checkOption option value max = .ok () ↔ value ≤ max := by
  unfold Placement.checkOption
  split
  · next hle => exact ⟨fun _ => hle, fun _ => rfl⟩
  · next hle => exact ⟨nofun, fun h => absurd h hle⟩

theorem Placement.checkGrid_eq_ok_iff {p : Placement} {log2Ctb : Nat} :
    p.checkGrid log2Ctb = .ok () ↔
      p.columns ≤ ctbsFor p.width log2Ctb ∧ p.rows ≤ ctbsFor p.height log2Ctb := by
  unfold Placement.checkGrid
  split
  · next h => exact ⟨nofun, fun ⟨hcolumns, _⟩ => absurd h (by omega)⟩
  · split
    · next h => exact ⟨nofun, fun ⟨_, hrows⟩ => absurd h (by omega)⟩
    · exact ⟨fun _ => by omega, fun _ => rfl⟩

theorem Placement.checkOption_eq_error {option : String} {value max : Nat} {e : EngineError}
    (h : Placement.checkOption option value max = .error e) : e = .invalidOption option value := by
  unfold Placement.checkOption at h
  split_ifs at h
  cases h
  rfl

theorem Placement.checkGrid_eq_error {p : Placement} {log2Ctb : Nat} {e : EngineError}
    (h : p.checkGrid log2Ctb = .error e) : ∃ option value, e = .invalidOption option value := by
  unfold Placement.checkGrid at h
  split_ifs at h
  · cases h
    exact ⟨_, _, rfl⟩
  · cases h
    exact ⟨_, _, rfl⟩

theorem Placement.check_eq_ok_iff {p : Placement} : p.check = .ok () ↔
    (p.width ≤ maxDimension ∧ p.height ≤ maxDimension) ∧
      (p.column ≤ maxTiles ∧ p.row ≤ maxTiles) ∧ (p.x ≤ maxDimension ∧ p.y ≤ maxDimension) ∧
      p.columns ≤ ctbsFor p.width assumedLog2Ctb ∧ p.rows ≤ ctbsFor p.height assumedLog2Ctb := by
  constructor
  · intro h
    obtain ⟨_, hwidth, h⟩ := bind_eq_ok_iff.1 h
    obtain ⟨_, hheight, h⟩ := bind_eq_ok_iff.1 h
    obtain ⟨_, hcolumn, h⟩ := bind_eq_ok_iff.1 h
    obtain ⟨_, hrow, h⟩ := bind_eq_ok_iff.1 h
    obtain ⟨_, hx, h⟩ := bind_eq_ok_iff.1 h
    obtain ⟨_, hy, hgrid⟩ := bind_eq_ok_iff.1 h
    exact ⟨⟨checkOption_eq_ok_iff.1 hwidth, checkOption_eq_ok_iff.1 hheight⟩,
      ⟨checkOption_eq_ok_iff.1 hcolumn, checkOption_eq_ok_iff.1 hrow⟩,
      ⟨checkOption_eq_ok_iff.1 hx, checkOption_eq_ok_iff.1 hy⟩, checkGrid_eq_ok_iff.1 hgrid⟩
  · rintro ⟨⟨hwidth, hheight⟩, ⟨hcolumn, hrow⟩, ⟨hx, hy⟩, hgrid⟩
    exact bind_eq_ok_iff.2 ⟨(), checkOption_eq_ok_iff.2 hwidth, bind_eq_ok_iff.2
      ⟨(), checkOption_eq_ok_iff.2 hheight, bind_eq_ok_iff.2
      ⟨(), checkOption_eq_ok_iff.2 hcolumn, bind_eq_ok_iff.2
      ⟨(), checkOption_eq_ok_iff.2 hrow, bind_eq_ok_iff.2
      ⟨(), checkOption_eq_ok_iff.2 hx, bind_eq_ok_iff.2
      ⟨(), checkOption_eq_ok_iff.2 hy, checkGrid_eq_ok_iff.2 hgrid⟩⟩⟩⟩⟩⟩

/-- The larger picture of a placement that passes the checks has a size that pictures can have, and
its grid has a code. -/
theorem Placement.bounds_of_check {p : Placement} (h : p.check = .ok ()) :
    (0 < p.width ∧ p.width ≤ PictureFormat.maxDimension) ∧
      (0 < p.height ∧ p.height ≤ PictureFormat.maxDimension) ∧ p.tiles.Codable := by
  obtain ⟨⟨hwidth, hheight⟩, ⟨hcolumn, hrow⟩, -, hcolumns, hrows⟩ := check_eq_ok_iff.1 h
  have hmax : Placement.maxDimension ≤ PictureFormat.maxDimension := by decide
  have hmaxTiles : Placement.maxTiles = 128 := rfl
  have hcolumnsLe := Nat.le_trans hcolumns (ctbsFor_le _ _)
  have hrowsLe := Nat.le_trans hrows (ctbsFor_le _ _)
  have hcolumnsEq : p.columns = max p.column 1 := rfl
  have hrowsEq : p.rows = max p.row 1 := rfl
  refine ⟨⟨by omega, Nat.le_trans hwidth hmax⟩, ⟨by omega, Nat.le_trans hheight hmax⟩, ?_⟩
  exact ⟨⟨by omega, by omega⟩, by omega, by omega⟩

namespace BitStream

variable {s : BitStream} {unitType : UnitType}

/-- A parameter set that has a code is written behind what is in the stream. -/
theorem parameterSet_ok (hs : s.Whole) (unitType : UnitType) {code : Code} {bits : BitString}
    (hbits : code.closed = .ok bits) :
    ∃ s', s.parameterSet unitType code.closed = .ok s' ∧ s'.Whole ∧
      s'.out.bytes = s.out.bytes ++ framedAll [nalBytes unitType 0 (Bits.toBytes bits)] ∧
      Solid (nalBytes unitType 0 (Bits.toBytes bits)) := by
  refine ⟨s.withUnit unitType 0 (Bits.toBytes bits), ?_, hs.withUnit _ _, ?_,
    solid_nalBytes _ (by decide) (getLast?_toBytes_closed hbits)⟩
  · rw [parameterSet_eq hs.pending, hbits]
    rfl
  · simp [framedAll, framedBytes]

end BitStream

namespace Placer

variable {p : Placement} {d c ctx : Context}

/-! ## Parameter sets -/

/-- What a unit says for the larger picture, if it is a parameter set. -/
def placedContent (p : Placement) : DecodedUnit → List UnitContent
  | .vps set => [.vps set]
  | .sps sps => [.sps (sps.resized p.width p.height).asWritten]
  | .pps pps => [.pps (pps.asWritten p.tiles)]
  | .slice _ | .other _ => []

/-- The sets of a decoder `d` are those that a placer has, as they are written for the larger
picture. -/
structure Mirrors (p : Placement) (d c : Context) : Prop where
  sps : ∀ id s, c.spsById id = some s →
    d.spsById id = some (s.resized p.width p.height).asWritten
  pps : ∀ id q, c.ppsById id = some q → d.ppsById id = some (q.asWritten p.tiles)

theorem Mirrors.empty (p : Placement) : Mirrors p .empty .empty := by
  refine ⟨fun id s h => ?_, fun id q h => ?_⟩
  · simp at h
  · simp at h

theorem Mirrors.putSps (h : Mirrors p d c) (s : Sps) :
    Mirrors p (d.putSps (s.resized p.width p.height).asWritten) (c.putSps s) := by
  refine ⟨fun id t ht => ?_, h.pps⟩
  rw [Context.spsById_putSps] at ht ⊢
  by_cases hid : s.id = id
  · rw [if_pos hid] at ht
    cases ht
    exact if_pos hid
  · rw [if_neg hid] at ht
    rw [if_neg (show (s.resized p.width p.height).asWritten.id ≠ id from hid)]
    exact h.sps id t ht

theorem Mirrors.putPps (h : Mirrors p d c) (q : Pps) :
    Mirrors p (d.putPps (q.asWritten p.tiles)) (c.putPps q) := by
  refine ⟨h.sps, fun id r hr => ?_⟩
  rw [Context.ppsById_putPps] at hr ⊢
  by_cases hid : q.id = id
  · rw [if_pos hid] at hr
    cases hr
    exact if_pos hid
  · rw [if_neg hid] at hr
    rw [if_neg (show (q.asWritten p.tiles).id ≠ id from hid)]
    exact h.pps id r hr

/-- A parameter set can be written for the larger picture: nothing in it is not supported, and the
sequence parameter set of a picture parameter set has blocks that the grid fits. -/
def CanWrite (p : Placement) (ctx : Context) : DecodedUnit → Prop
  | .vps set => set.hasExtension = false
  | .sps sps => sps.longTerm = none
  | .pps pps => ∃ sps, ctx.spsOf pps = some sps ∧ p.checkGrid sps.log2Ctb = .ok ()
  | .slice _ | .other _ => True

/-- No picture parameter set refers to another sequence parameter set after the units than at its
place among them. -/
def Settled (ctx : Context) : DecoderState → List DecodedUnit → Prop
  | _, [] => True
  | s, unit :: rest =>
    (∀ pps, unit.pps? = some pps → s.ctx.spsOf pps = ctx.spsOf pps) ∧
      Settled ctx (s.after unit) rest

theorem settled_append {s : DecoderState} {a b : List DecodedUnit} :
    Settled ctx s (a ++ b) ↔ Settled ctx s a ∧ Settled ctx (a.foldl DecoderState.after s) b := by
  induction a generalizing s with
  | nil => exact ⟨fun h => ⟨trivial, h⟩, fun h => h.2⟩
  | cons unit a ih =>
    rw [List.cons_append, Settled, ih, Settled, List.foldl_cons, and_assoc]

theorem settled_of_noPps {s : DecoderState} {units : List DecodedUnit}
    (h : ∀ unit ∈ units, unit.pps? = none) : Settled ctx s units := by
  induction units generalizing s with
  | nil => trivial
  | cons unit rest ih =>
    refine ⟨fun pps hpps => ?_, ih fun u hu => h u (List.mem_cons_of_mem _ hu)⟩
    rw [h unit List.mem_cons_self] at hpps
    cases hpps

/-- A parameter set that can be written is read back for the larger picture. -/
theorem writeUnit_decoded (hp : p.check = .ok ()) {s e : DecoderState} {unit : DecodedUnit}
    (hyields : s.Yields unit) (hwrite : CanWrite p ctx unit)
    (hsettled : ∀ pps, unit.pps? = some pps → s.ctx.spsOf pps = ctx.spsOf pps)
    (h : Mirrors p e.ctx s.ctx) {stream : BitStream} (hs : stream.Whole) :
    ∃ stream' bytes nals sets e', writeUnit p ctx stream unit = .ok stream' ∧ stream'.Whole ∧
      stream'.out.bytes = stream.out.bytes ++ bytes ∧
      Decodes e bytes (placedContent p unit) nals sets e' ∧
      Mirrors p e'.ctx (s.after unit).ctx := by
  obtain ⟨hwidth, hheight, htiles⟩ := Placement.bounds_of_check hp
  cases unit with
  | vps v =>
    have hv := Vps.reads hyields hwrite
    obtain ⟨bits, hbits, -⟩ := hv.decode
    obtain ⟨stream', hstream, hwhole, hbytes, hsolid⟩ := BitStream.parameterSet_ok hs .vps hbits
    exact ⟨stream', _, _, _, _, mapError_eq_ok_iff.2 hstream, hwhole, hbytes,
      .single hsolid (DecoderState.decodeNal_vps hv hbits) trivial, h.sps, h.pps⟩
  | sps sps =>
    have hsps := Sps.reads_resized hyields hwrite hwidth hheight
    obtain ⟨bits, hbits, -⟩ := hsps.decode
    obtain ⟨stream', hstream, hwhole, hbytes, hsolid⟩ := BitStream.parameterSet_ok hs .sps hbits
    exact ⟨stream', _, _, _, _, mapError_eq_ok_iff.2 hstream, hwhole, hbytes,
      .single hsolid (DecoderState.decodeNal_sps hsps hbits) trivial, h.putSps sps⟩
  | pps pps =>
    obtain ⟨sps, hsps, hgrid⟩ := hwrite
    have hknown : s.ctx.spsById pps.spsId = some sps := (hsettled pps rfl).trans hsps
    obtain ⟨sps', hknown', hpartition⟩ := Pps.known_of_produces hyields
    obtain rfl : sps = sps' := Option.some.inj (hknown.symm.trans hknown')
    obtain ⟨hcolumns, hrows⟩ : p.columns ≤ (sps.resized p.width p.height).asWritten.widthInCtbs ∧
        p.rows ≤ (sps.resized p.width p.height).asWritten.heightInCtbs :=
      Placement.checkGrid_eq_ok_iff.1 hgrid
    have hfits : ∀ g, (p.tiles.apply pps.partition).tiles = some g →
        g.Fits (sps.resized p.width p.height).asWritten ∧ g.Codable := by
      intro g hg
      refine ⟨?_, htiles.grid hpartition hg⟩
      obtain ⟨⟨hcolumnsPos, -⟩, hrowsPos, -⟩ := htiles
      exact TileOverride.fits_uniform ⟨hcolumnsPos, hcolumns⟩ ⟨hrowsPos, hrows⟩ hg
    have hpps : (Pps.parse e.ctx.spsById).ReadsPayload (pps.encode p.tiles)
        (pps.asWritten p.tiles) :=
      Pps.reads hyields hknown (h.sps _ _ hknown) rfl htiles.check hfits
    obtain ⟨bits, hbits, -⟩ := hpps.decode
    obtain ⟨stream', hstream, hwhole, hbytes, hsolid⟩ := BitStream.parameterSet_ok hs .pps hbits
    refine ⟨stream', _, _, _, _, ?_, hwhole, hbytes,
      .single hsolid (DecoderState.decodeNal_pps hpps hbits) trivial, h.putPps pps⟩
    simp only [writeUnit, hsps, hgrid]
    exact mapError_eq_ok_iff.2 hstream
  | slice segment =>
    refine ⟨stream, [], _, _, _, rfl, hs, (List.append_nil _).symm, .nothing, ?_⟩
    rw [DecoderState.after_slice_ctx]
    exact h
  | other header => exact ⟨stream, [], _, _, _, rfl, hs, (List.append_nil _).symm, .nothing, h⟩

/-- Parameter sets that can be written are read back for the larger picture. -/
theorem writeUnits_decoded (hp : p.check = .ok ()) {s e : DecoderState} {units : List DecodedUnit}
    (hyields : s.YieldsAll units) (hwrite : ∀ unit ∈ units, CanWrite p ctx unit)
    (hsettled : Settled ctx s units) (h : Mirrors p e.ctx s.ctx) {stream : BitStream}
    (hs : stream.Whole) :
    ∃ stream' bytes nals sets e', units.foldlM (writeUnit p ctx) stream = .ok stream' ∧
      stream'.Whole ∧ stream'.out.bytes = stream.out.bytes ++ bytes ∧
      Decodes e bytes (units.flatMap (placedContent p)) nals sets e' ∧
      Mirrors p e'.ctx (units.foldl DecoderState.after s).ctx := by
  induction units generalizing s e stream with
  | nil => exact ⟨stream, [], _, _, _, rfl, hs, (List.append_nil _).symm, .nothing, h⟩
  | cons unit rest ih =>
    obtain ⟨stream₁, a, nals₁, us, e₁, hfirst, hs₁, hbytes₁, h₁, hmirrors₁⟩ :=
      writeUnit_decoded hp hyields.1 (hwrite unit List.mem_cons_self) hsettled.1 h hs
    obtain ⟨stream₂, b, nals₂, vs, e₂, hrest, hs₂, hbytes₂, h₂, hmirrors₂⟩ :=
      ih hyields.2 (fun u hu => hwrite u (List.mem_cons_of_mem _ hu)) hsettled.2 hmirrors₁ hs₁
    refine ⟨stream₂, a ++ b, nals₁ ++ nals₂, us ++ vs, e₂, ?_, hs₂, ?_, h₁.append h₂, hmirrors₂⟩
    · exact bind_eq_ok_iff.2 ⟨stream₁, hfirst, hrest⟩
    · rw [hbytes₂, hbytes₁, List.append_assoc]

/-! ## Slices -/

/-- A slice can be written for a larger picture: nothing in it is not supported, it has no more entry
points than the picture has blocks, and its data do not hide where it ends. -/
structure Placeable (p : Placement) (segment : SliceUnit) (sps : Sps) (pps : Pps) : Prop where
  unitType : segment.nalHeader.layerId = 0 ∧ segment.nalHeader.unitType.isSlice = true
  legible : segment.header.Legible segment.nalHeader.unitType sps pps
  noOutput : pps.outputFlagPresent = false
  noPlanes : sps.format.separatePlanes = false
  noLongTerm : sps.longTerm = none
  entryPoints : (segment.header.entryPoints.getD .none).offsetsMinus1.length ≤
    (sps.resized p.width p.height).sizeInCtbs
  data : segment.data.getLast? ≠ some 0

/-- A slice that can be written is read back at its place, by any decoder that knows its parameter
sets as they are written for the larger picture. -/
theorem writeSlice_decoded (hp : p.check = .ok ()) (hx : p.x < p.width) (hy : p.y < p.height)
    {segment : SliceUnit} {sps : Sps} {pps : Pps}
    (hpps : ctx.ppsById segment.header.ppsId = some pps) (hsps : ctx.spsOf pps = some sps)
    (h : Placeable p segment sps pps) (hmirrors : Mirrors p d ctx) {stream : BitStream}
    (hs : stream.Whole) :
    ∃ stream' nal, writeSlice p ctx stream segment = .ok stream' ∧ stream'.Whole ∧
      stream'.out.bytes = stream.out.bytes ++ framedAll [nal] ∧ Solid nal ∧
      ∀ e : DecoderState, e.ctx.ppsById segment.header.ppsId = some (pps.asWritten p.tiles) →
        e.ctx.spsOf (pps.asWritten p.tiles) = some (sps.resized p.width p.height).asWritten →
        ∃ got, e.decodeNal nal = .ok (.slice got) ∧ (DecodedUnit.slice got).content =
          .slice segment.nalHeader (segment.header.asWritten sps pps p.target) segment.data := by
  obtain ⟨⟨-, hwidth⟩, ⟨-, hheight⟩, -⟩ := Placement.bounds_of_check hp
  have hread : ∀ e : DecoderState,
      e.ctx.ppsById segment.header.ppsId = some (pps.asWritten p.tiles) →
      e.ctx.spsOf (pps.asWritten p.tiles) = some (sps.resized p.width p.height).asWritten →
      (SliceHeader.parse e.ctx segment.nalHeader.unitType e.lastIndependent).ReadsFront
        (segment.header.encode segment.nalHeader.unitType sps pps p.target)
        (segment.header.asWritten sps pps p.target) := fun e hpps' hsps' =>
    SliceHeader.reads h.legible (t := p.target) ⟨hx, hy, hwidth, hheight⟩ rfl h.noOutput h.noPlanes
      h.noLongTerm hpps' hsps' fun _ => h.entryPoints
  have hknown := hread (.start d) (hmirrors.pps _ _ hpps) (hmirrors.sps _ _ hsps)
  obtain ⟨bits, hbits, -⟩ := hknown.decodeFront
  have hsolid := (slice_decoded h.unitType h.data hknown hbits).1
  refine ⟨stream.withUnit segment.nalHeader.unitType segment.nalHeader.temporalId.val
    (Bits.toBytes bits ++ segment.data), _, ?_, hs.withUnit _ _, ?_, hsolid, fun e hpps' hsps' =>
      (slice_decoded h.unitType h.data (hread e hpps' hsps') hbits).2⟩
  · refine bind_eq_ok_iff.2 ⟨pps, elim_eq_ok_iff.2 hpps, bind_eq_ok_iff.2 ⟨sps,
      elim_eq_ok_iff.2 hsps, mapError_eq_ok_iff.2 ?_⟩⟩
    rw [BitStream.slice_eq hs.pending, hbits]
    rfl
  · simp [framedAll, framedBytes]

/-! ## Packets -/

theorem place_eq_ok_false_iff {au : AccessUnit} {stream stream' : BitStream} :
    place p ctx stream au = .ok (stream', false) ↔
      au.slices.head? = none ∧ au.units.foldlM (writeUnit p ctx) stream = .ok stream' := by
  rw [place, bind_eq_ok_iff]
  cases au.slices.head? with
  | none => simp [pure, Except.pure]
  | some segment => simp [bind_eq_ok_iff, pure, Except.pure]

theorem place_eq_ok_true_iff {au : AccessUnit} {stream stream' : BitStream} :
    place p ctx stream au = .ok (stream', true) ↔
      ∃ segment stream₁, au.slices.head? = some segment ∧
        au.units.foldlM (writeUnit p ctx) stream = .ok stream₁ ∧
        writeSlice p ctx stream₁ segment = .ok stream' := by
  rw [place, bind_eq_ok_iff]
  cases au.slices.head? with
  | none => simp [pure, Except.pure]
  | some segment => simp [bind_eq_ok_iff, pure, Except.pure]

/-- An access unit whose parameter sets and first slice can be written makes a packet: what the sets
say for the larger picture, and the slice at its place. -/
theorem filter_ok (hp : p.check = .ok ()) (hx : p.x < p.width) (hy : p.y < p.height)
    {packet : Packet} {au : AccessUnit} (hdecode : AccessUnit.decode c packet.data = .ok (au, ctx))
    (hwrite : ∀ unit ∈ au.units, CanWrite p ctx unit)
    (hsettled : Settled ctx (.start c) au.units) (hmirrors : Mirrors p d c)
    {segment : SliceUnit} (hfirst : au.slices.head? = some segment) {sps : Sps} {pps : Pps}
    (hpps : ctx.ppsById segment.header.ppsId = some pps) (hsps : ctx.spsOf pps = some sps)
    (h : Placeable p segment sps pps) :
    ∃ bytes nals sets e nal,
      filter ⟨p, c, .empty⟩ packet =
        (.ok (some (packet.derive (bytes ++ framedAll [nal]))), ⟨p, ctx, .empty⟩) ∧
      Decodes (.start d) bytes (au.units.flatMap (placedContent p)) nals sets e ∧
      Mirrors p e.ctx ctx ∧ Solid nal ∧
      ∀ e : DecoderState, e.ctx.ppsById segment.header.ppsId = some (pps.asWritten p.tiles) →
        e.ctx.spsOf (pps.asWritten p.tiles) = some (sps.resized p.width p.height).asWritten →
        ∃ got, e.decodeNal nal = .ok (.slice got) ∧ (DecodedUnit.slice got).content =
          .slice segment.nalHeader (segment.header.asWritten sps pps p.target) segment.data := by
  obtain ⟨hyields, hctx⟩ := AccessUnit.yieldsAll_of_decode hdecode
  obtain ⟨stream₁, bytes, nals, sets, e, hsets, hwhole₁, hbytes₁, hdecodes, hmirrors₁⟩ :=
    writeUnits_decoded hp hyields hwrite hsettled (e := .start d) hmirrors BitStream.whole_empty
  rw [← hctx] at hmirrors₁
  obtain ⟨stream₂, nal, hslice, hwhole₂, hbytes₂, hsolid, hread⟩ :=
    writeSlice_decoded hp hx hy hpps hsps h hmirrors₁ hwhole₁
  have hplace : place p ctx .empty au = .ok (stream₂, true) :=
    place_eq_ok_true_iff.2 ⟨segment, stream₁, hfirst, hsets, hslice⟩
  have hdata : stream₂.packetData .ample = .ok (bytes ++ framedAll [nal]) := by
    rw [BitStream.packetData_ample hwhole₂, hbytes₂, hbytes₁]
    rfl
  refine ⟨bytes, nals, sets, e, nal, ?_, hdecodes, hmirrors₁, hsolid, hread⟩
  simp only [filter, hdecode, hplace, hdata, BitStream.reset_eq]

end Placer

end TiledVideo
