import TiledVideo.Engine.Relay
import TiledVideo.Proofs.Mosaic.Place

/-!
# Putting a mosaic together again

A mosaic goes through all engines: a splitter gives out its tiles, placers put them where they were,
and an assembler gets them in any order.

Results:

* `decode_placed`: what the units of placed tiles are read as.
* `push_placed`: what an assembler makes of placed tiles.
* `relayed`: all calls succeed, and the picture that comes out is read as the mosaic restored.
-/

namespace TiledVideo.Mosaic

open Assembler ByteStream

variable {m : Mosaic} {au : AccessUnit} {ctx : Context} {front back : List DecodedUnit}
  {packet : Packet}

theorem tileCount_pos (hm : m.Regular) : 0 < m.tileCount :=
  Nat.mul_pos hm.columns.1 hm.rows.1

/-- Each tile has a slice. -/
theorem exists_slice (hm : m.Regular) {tile : Nat} (htile : tile < m.tileCount) :
    ∃ segment, m.slices[tile]? = some segment :=
  ⟨_, List.getElem?_eq_getElem (length_slices hm ▸ htile)⟩

/-! ## Placed tiles -/

section Placed

variable {nals : Nat → List Bytes} {slices : Nat → Bytes}

/-- Slices are read one after the other, since they leave the parameter sets as they are. -/
theorem decodeNals_slices {e : DecoderState} {nals : List Bytes} {contents : List UnitContent}
    (hctx : m.Restores e.ctx) (h : List.Forall₂ m.ReadAs nals contents) :
    ∃ units last, e.decodeNals nals = .ok (units, last) ∧
      units.map (·.content) = contents := by
  induction h generalizing e with
  | nil => exact ⟨[], e, rfl, rfl⟩
  | cons hnal _ ih =>
    obtain ⟨got, hgot, hcontent⟩ := hnal e hctx
    have hctx' : m.Restores (e.after (.slice got)).ctx := by
      rwa [DecoderState.after_slice_ctx]
    obtain ⟨units, last, hunits, hcontents⟩ := ih hctx'
    refine ⟨.slice got :: units, last, ?_, by rw [List.map_cons, hcontent, hcontents]⟩
    exact bind_eq_ok_iff.2 ⟨_, hgot, bind_eq_ok_iff.2 ⟨_, hunits, rfl⟩⟩

variable (h : ∀ tile segment, m.slices[tile]? = some segment →
  m.Placed au tile segment (nals tile) (slices tile))
include h

/-- The parameter sets of the first tile and the slices of all are read as the mosaic restored. -/
theorem decode_placed (hm : m.Regular) :
    ∃ au' ctx', AccessUnit.decode .empty
        (framedAll (nals 0 ++ (List.range m.tileCount).map slices)) = .ok (au', ctx') ∧
      au'.units.map (·.content) = m.restored au := by
  obtain ⟨first, hfirst⟩ := exists_slice hm (tileCount_pos hm)
  have hplaced := h 0 first hfirst
  obtain ⟨sets, e, hsets, -, hcontents, hrestores⟩ := hplaced.sets
  have hread : List.Forall₂ m.ReadAs ((List.range m.tileCount).map slices)
      (m.slices.mapIdx restoredSlice) := by
    refine List.forall₂_iff_get.2 ⟨by simp [length_slices hm], fun tile htile htile' => ?_⟩
    rw [List.length_map, List.length_range] at htile
    obtain ⟨segment, hsegment⟩ := exists_slice hm htile
    have hslice := (h tile segment hsegment).slice
    obtain ⟨hbound, rfl⟩ := List.getElem?_eq_some_iff.1 hsegment
    simpa using hslice
  obtain ⟨units, last, hunits, hslices⟩ := decodeNals_slices hrestores hread
  have hall : (DecoderState.start .empty).decodeNals
      (nals 0 ++ (List.range m.tileCount).map slices) = .ok (sets ++ units, last) := by
    rw [DecoderState.decodeNals_append, hsets]
    show (e.decodeNals _ >>= _) = _
    rw [hunits]
    rfl
  refine ⟨⟨sets ++ units⟩, last.ctx, AccessUnit.decode_framedAll ?_ ?_ hall, ?_⟩
  · have hpos := tileCount_pos hm
    simp [Nat.ne_of_gt hpos]
  · intro nal hnal
    obtain hnal | hnal := List.mem_append.1 hnal
    · exact hplaced.solid nal (List.mem_append_left _ hnal)
    · obtain ⟨tile, htile, rfl⟩ := List.mem_map.1 hnal
      obtain ⟨segment, hsegment⟩ := exists_slice hm (List.mem_range.1 htile)
      exact (h tile segment hsegment).solid _ (List.mem_append_right _ (List.mem_singleton_self _))
  · rw [List.map_append, hcontents, hslices, restored]

/-- The packets of all placed tiles are put together in any order: the parameter sets of the first,
and the slices of all. -/
theorem push_placed (hm : m.Regular) {order : List Nat} (hperm : order.Perm (List.range m.tileCount)) :
    (empty m.tileCount).pushAll (order.map fun tile =>
        { packet.derive (framedAll (nals tile ++ [slices tile])) with tile := some tile }) =
      (List.replicate (m.tileCount - 1) (.ok none) ++ [.ok (some (packet.derive
        (framedAll (nals 0 ++ (List.range m.tileCount).map slices))))], empty m.tileCount) := by
  let tiles : Nat → Packet := fun tile =>
    { packet.derive (framedAll (nals tile ++ [slices tile])) with tile := some tile }
  have htile : ∀ tile < m.tileCount, IsTile (tiles tile) (nals tile) (slices tile) :=
    fun tile htile => by
      obtain ⟨segment, hsegment⟩ := exists_slice hm htile
      have hplaced := h tile segment hsegment
      obtain ⟨units, e, hunits, hset, -, hrestores⟩ := hplaced.sets
      obtain ⟨got, hgot, -⟩ := hplaced.slice e hrestores
      exact ⟨rfl, hplaced.solid, isVcl_of_decodeNals hunits hset, (isVcl_of_decodeNal hgot).2 rfl⟩
  have hbase : ∀ tile < m.tileCount, (tiles tile).derive [] = packet.derive [] := fun _ _ => rfl
  have hpushed := pushAll_perm (fun _ _ => rfl) hbase (tileCount_pos hm) hperm
  rw [assemble_tiles (tileCount_pos hm) htile] at hpushed
  exact hpushed

end Placed

/-! ## All engines -/

/-- A picture is what comes out when a packet with a mosaic goes through new engines. A splitter gives
out the packets of the tiles; a placer for each tile puts it where it was; and an assembler gets them
in any order, tagged as tiles. -/
structure Relayed (m : Mosaic) (packet picture : Packet) (tiles placed : Nat → Packet) : Prop where
  split : ∃ splitter read, Splitter.Run.calls .empty
    (.send packet :: List.replicate m.tileCount .receive) =
      .ok ⟨splitter, [⟨read, (List.range m.tileCount).map tiles⟩]⟩
  tagged : ∀ tile < m.tileCount, (tiles tile).tile = some tile
  place : ∀ tile < m.tileCount, ∃ placer, Placer.ofPlacement (m.placement tile) = .ok placer ∧
    (placer.filter (tiles tile)).1 = .ok (some (placed tile))
  assemble : ∃ assembler, ofTileCount m.tileCount = .ok assembler ∧
    ∀ order : List Nat, order.Perm (List.range m.tileCount) →
      assembler.pushAll (order.map fun tile => { placed tile with tile := some tile }) =
        (List.replicate (m.tileCount - 1) (.ok none) ++ [.ok (some picture)], assembler)

/-- The packets that a splitter gives out for the tiles of a mosaic can be placed. -/
theorem Laid.place_all (h : m.Laid au ctx front back) (hm : m.Regular) (hassumed : m.FitsAssumed)
    (hdecode : AccessUnit.decode .empty packet.data = .ok (au, ctx)) {tiles : Nat → Packet}
    (htiles : ∀ tile segment, m.slices[tile]? = some segment → ∃ bytes d own,
      TileStreams.setBytes tile au.units = .ok bytes ∧ TileStreams.destination ctx segment = .ok d ∧
      TileStreams.ownSlice segment d = .ok own ∧
      tiles tile = { packet.derive (bytes ++ own) with tile := some tile }) :
    ∃ (nals : Nat → List Bytes) (slices : Nat → Bytes), ∀ tile segment,
      m.slices[tile]? = some segment → (tiles tile).tile = some tile ∧
      (Placer.filter ⟨m.placement tile, .empty, .empty⟩ (tiles tile)).1 =
        .ok (some (packet.derive (framedAll (nals tile ++ [slices tile])))) ∧
      m.Placed au tile segment (nals tile) (slices tile) := by
  have hplace : ∀ tile, ∃ nals nal, ∀ segment, m.slices[tile]? = some segment →
      (tiles tile).tile = some tile ∧
      (Placer.filter ⟨m.placement tile, .empty, .empty⟩ (tiles tile)).1 =
        .ok (some (packet.derive (framedAll (nals ++ [nal])))) ∧
      m.Placed au tile segment nals nal := by
    intro tile
    cases hsegment : m.slices[tile]? with
    | none => exact ⟨[], [], fun _ hnone => absurd hnone (Option.some_ne_none _).symm⟩
    | some segment =>
      obtain ⟨bytes, d, own, hset, hd, hown, htile⟩ := htiles tile segment hsegment
      obtain ⟨width, height, got, ctx', hread, hcontent, htracks⟩ :=
        h.tile_decoded hm hdecode (List.mem_of_getElem? hsegment) hset hd hown
      have hdata : (tiles tile).data = bytes ++ own := by rw [htile, Packet.derive]
      obtain ⟨placer, nals, nal, hfilter, hplaced⟩ :=
        h.place_ok hm hassumed hsegment (hdata ▸ hread) hcontent htracks
      refine ⟨nals, nal, fun other hother => ?_⟩
      obtain rfl := Option.some.inj hother
      refine ⟨by rw [htile], ?_, hplaced⟩
      rw [hfilter, htile]
      rfl
  choose nals slices hplace using hplace
  exact ⟨nals, slices, hplace⟩

/-- A packet with a regular mosaic goes through all engines, and the picture that comes out is read
as the mosaic restored. -/
theorem relayed (hdecode : AccessUnit.decode .empty packet.data = .ok (au, ctx)) (hshows : m.Shows au)
    (hm : m.Regular) (hpair : [.sps m.sps, .pps m.pps] <:+: au.units) (hassumed : m.FitsAssumed) :
    ∃ picture tiles placed au' ctx', m.Relayed packet picture tiles placed ∧
      picture = packet.derive picture.data ∧
      AccessUnit.decode .empty picture.data = .ok (au', ctx') ∧
      au'.units.map (·.content) = m.restored au := by
  obtain ⟨front, back, h⟩ := laid_of_decode hdecode hshows hm hpair
  obtain ⟨splitter, tiles, hcalls, htiles⟩ := h.split_ok hm hdecode
  obtain ⟨nals, slices, hplace⟩ := h.place_all hm hassumed hdecode htiles
  have hplaced := fun tile segment hsegment => (hplace tile segment hsegment).2.2
  obtain ⟨au', ctx', hau', hcontents⟩ := decode_placed hplaced hm
  have hcount : ofTileCount m.tileCount = .ok (empty m.tileCount) := by
    have hpos := tileCount_pos hm
    have hmax : m.tileCount ≤ maxTiles := hm.tiles
    rw [ofTileCount, if_neg (by omega)]
  refine ⟨packet.derive (framedAll (nals 0 ++ (List.range m.tileCount).map slices)), tiles,
    fun tile => packet.derive (framedAll (nals tile ++ [slices tile])), au', ctx',
    ⟨⟨_, _, hcalls⟩, fun tile htile => ?_, fun tile htile => ?_, _, hcount, fun order hperm => ?_⟩,
    rfl, hau', hcontents⟩
  · obtain ⟨segment, hsegment⟩ := exists_slice hm htile
    exact (hplace tile segment hsegment).1
  · obtain ⟨segment, hsegment⟩ := exists_slice hm htile
    refine ⟨_, bind_eq_ok_iff.2 ⟨(), h.check_placement hm hassumed htile, rfl⟩, ?_⟩
    exact (hplace tile segment hsegment).2.1
  · exact push_placed hplaced hm hperm

theorem relayed_sample : AccessUnit.decode .empty Sample.picture =
      .ok ((Sample.read Sample.picture).1, (Sample.read Sample.picture).2) ∧
    (Sample.mosaic Sample.picture).Shows (Sample.read Sample.picture).1 ∧
    (Sample.mosaic Sample.picture).Regular ∧
    [.sps (Sample.mosaic Sample.picture).sps, .pps (Sample.mosaic Sample.picture).pps] <:+:
      (Sample.read Sample.picture).1.units ∧
    (Sample.mosaic Sample.picture).FitsAssumed ∧
    ∃ picture tiles placed au' ctx',
      (Sample.mosaic Sample.picture).Relayed { data := Sample.picture } picture tiles placed ∧
      picture = Packet.derive { data := Sample.picture } picture.data ∧
      AccessUnit.decode .empty picture.data = .ok (au', ctx') ∧
      au'.units.map (·.content) =
        (Sample.mosaic Sample.picture).restored (Sample.read Sample.picture).1 := by
  obtain ⟨hdecode, hshows, hm⟩ : Sample.IsRegular Sample.picture := by decide +kernel
  have hpair : [.sps (Sample.mosaic Sample.picture).sps, .pps (Sample.mosaic Sample.picture).pps] <:+:
      (Sample.read Sample.picture).1.units := by decide +kernel
  have hassumed : (Sample.mosaic Sample.picture).FitsAssumed := by decide +kernel
  exact ⟨hdecode, hshows, hm, hpair, hassumed,
    @relayed _ _ _ { data := Sample.picture } hdecode hshows hm hpair hassumed⟩

/-! ## Mosaics that are not restored -/

/-- Passes a packet through engines in a row for a mosaic. -/
def relay (m : Mosaic) (packet : Packet) : Except EngineError (Option Packet) := do
  let engines ← Relay.ofPlacements ((List.range m.tileCount).map m.placement)
  match engines.process packet with
  | .ok picture _ => pure picture
  | .error e _ => throw e

/-- A picture whose two tiles are single blocks of 8 samples on each side. -/
def smallBlocks : Bytes := [
  0, 0, 0, 1, 64, 1, 12, 1, 255, 255, 1, 96, 0, 0, 3, 0, 144, 0, 0, 3, 0, 0, 3, 0, 123, 149, 152, 9,
  0, 0, 0, 1, 66, 1, 1, 1, 96, 0, 0, 3, 0, 144, 0, 0, 3, 0, 0, 3, 0, 123, 160, 136, 150, 89, 89,
  191, 43, 32,
  0, 0, 0, 1, 68, 1, 192, 113, 132, 188, 72,
  0, 0, 0, 1, 38, 1, 175, 47, 175, 18, 0, 0, 3, 1, 128,
  0, 0, 0, 1, 38, 1, 55, 151, 128, 192, 255, 238, 1]

/-- The sample with its video parameter set behind the sequence parameter set. -/
def setsApart : Bytes := [
  0, 0, 0, 1, 66, 1, 1, 1, 96, 0, 0, 3, 0, 144, 0, 0, 3, 0, 0, 3, 0, 123, 160, 3, 192, 128, 17, 7,
  203, 150, 86, 105, 36, 72, 172, 128,
  0, 0, 0, 1, 64, 1, 12, 1, 255, 255, 1, 96, 0, 0, 3, 0, 144, 0, 0, 3, 0, 0, 3, 0, 123, 149, 152, 9,
  0, 0, 0, 1, 68, 1, 192, 113, 132, 188, 72,
  0, 0, 0, 1, 38, 1, 175, 47, 175, 18, 0, 0, 3, 1, 128,
  0, 0, 0, 1, 38, 1, 32, 247, 151, 128, 192, 255, 238, 1]

/-- The sample with its video parameter set between the slices. -/
def setBetween : Bytes := [
  0, 0, 0, 1, 66, 1, 1, 1, 96, 0, 0, 3, 0, 144, 0, 0, 3, 0, 0, 3, 0, 123, 160, 3, 192, 128, 17, 7,
  203, 150, 86, 105, 36, 72, 172, 128,
  0, 0, 0, 1, 68, 1, 192, 113, 132, 188, 72,
  0, 0, 0, 1, 38, 1, 175, 47, 175, 18, 0, 0, 3, 1, 128,
  0, 0, 0, 1, 64, 1, 12, 1, 255, 255, 1, 96, 0, 0, 3, 0, 144, 0, 0, 3, 0, 0, 3, 0, 123, 149, 152, 9,
  0, 0, 0, 1, 38, 1, 32, 247, 151, 128, 192, 255, 238, 1]

/-- The sample with its video parameter set behind the other parameter sets. -/
def setBefore : Bytes := [
  0, 0, 0, 1, 66, 1, 1, 1, 96, 0, 0, 3, 0, 144, 0, 0, 3, 0, 0, 3, 0, 123, 160, 3, 192, 128, 17, 7,
  203, 150, 86, 105, 36, 72, 172, 128,
  0, 0, 0, 1, 68, 1, 192, 113, 132, 188, 72,
  0, 0, 0, 1, 64, 1, 12, 1, 255, 255, 1, 96, 0, 0, 3, 0, 144, 0, 0, 3, 0, 0, 3, 0, 123, 149, 152, 9,
  0, 0, 0, 1, 38, 1, 175, 47, 175, 18, 0, 0, 3, 1, 128,
  0, 0, 0, 1, 38, 1, 32, 247, 151, 128, 192, 255, 238, 1]

/-- Regular mosaics do not go through all engines if their tiles are too small for the placers, or if
the picture parameter set does not directly follow its sequence parameter set. A parameter set that
is between slices comes out before them. -/
theorem not_relayed_of_regular :
    (Sample.IsRegular smallBlocks ∧ ¬∃ picture tiles placed,
      (Sample.mosaic smallBlocks).Relayed { data := smallBlocks } picture tiles placed) ∧
    (Sample.IsRegular setsApart ∧ ¬∃ picture tiles placed,
      (Sample.mosaic setsApart).Relayed { data := setsApart } picture tiles placed) ∧
    Sample.IsRegular setBetween ∧
      (Sample.mosaic setBetween).relay { data := setBetween } = .ok (some { data := setBefore }) ∧
      AccessUnit.decode .empty setBefore =
        .ok ((Sample.read setBefore).1, (Sample.read setBefore).2) ∧
      (Sample.read setBefore).1.units.map (·.slice?.isSome) ≠
        (Sample.read setBetween).1.units.map (·.slice?.isSome) := by
  refine ⟨⟨by decide +kernel, ?_⟩, ⟨by decide +kernel, ?_⟩, by decide +kernel, by decide +kernel,
    by decide +kernel, by decide +kernel⟩
  · rintro ⟨picture, tiles, placed, h⟩
    obtain ⟨placer, hplacer, -⟩ := h.place 0 (by decide)
    have hsmall : Placer.ofPlacement ((Sample.mosaic smallBlocks).placement 0) =
        .error (.invalidOption "column" 2) := by decide +kernel
    cases hsmall.symm.trans hplacer
  · rintro ⟨picture, tiles, placed, h⟩
    obtain ⟨splitter, read, hcalls⟩ := h.split
    obtain ⟨r, hsend, -⟩ := bind_eq_ok_iff.1 hcalls
    have hrefused : Splitter.Run.call ⟨.empty, []⟩ (.send { data := setsApart }) =
        .error .spsWithoutPps := by decide +kernel
    cases hrefused.symm.trans hsend

end TiledVideo.Mosaic
