import TiledVideo.Proofs.Engine.Assembling
import TiledVideo.Proofs.Engine.Placing
import TiledVideo.Proofs.Mosaic.Split

/-!
# Placing the tiles of a mosaic

A tile is placed where it was in the mosaic. Then its parameter sets are those of the mosaic again,
and so is the header of its slice.

Results:

* `check_placement`: a placer takes the place of a tile.
* `place_ok`: what it gives for the packet of the tile.
-/

namespace TiledVideo.Mosaic

open TileStreams Placer ByteStream
open DecodedUnit (IsSet)

variable {m : Mosaic} {au : AccessUnit} {ctx ctx' : Context} {front back : List DecodedUnit}
  {tile width height : Nat} {segment got : SliceUnit}

/-! ## Places -/

/-- A placer takes only grids that could have a block of 16 samples on each side for each tile. -/
def FitsAssumed (m : Mosaic) : Prop :=
  m.columns ≤ ctbsFor m.sps.format.width 4 ∧ m.rows ≤ ctbsFor m.sps.format.height 4

instance (m : Mosaic) : Decidable m.FitsAssumed :=
  inferInstanceAs (Decidable (_ ∧ _))

theorem placement_tiles (hm : m.Regular) (tile : Nat) :
    (m.placement tile).tiles = .uniform m.columns m.rows := by
  show TileOverride.uniform (max m.columns 1) (max m.rows 1) = _
  rw [Nat.max_eq_left hm.columns.1, Nat.max_eq_left hm.rows.1]

theorem Laid.check_placement (h : m.Laid au ctx front back) (hm : m.Regular)
    (hassumed : m.FitsAssumed) (htile : tile < m.tileCount) :
    (m.placement tile).check = .ok () := by
  obtain ⟨hx, hy⟩ := TileLayout.uniformOrigin_lt h.sps htile
  obtain ⟨hwidth, hheight⟩ := hm.size
  refine Placement.check_eq_ok_iff.2 ⟨⟨hwidth, hheight⟩, ⟨hm.columns.2, hm.rows.2⟩,
    ⟨Nat.le_of_lt (Nat.lt_of_lt_of_le hx hwidth), Nat.le_of_lt (Nat.lt_of_lt_of_le hy hheight)⟩, ?_⟩
  show max m.columns 1 ≤ _ ∧ max m.rows 1 ≤ _
  rw [Nat.max_eq_left hm.columns.1, Nat.max_eq_left hm.rows.1]
  exact hassumed

/-! ## Parameter sets -/

/-- The parameter sets of the mosaic are in force again. -/
structure Restores (m : Mosaic) (c : Context) : Prop where
  sps : c.spsById m.sps.id = some m.restoredSps
  pps : c.ppsById m.pps.id = some m.restoredPps

theorem restoredSps_eq (width height tile : Nat) :
    ((m.sps.resized width height).asWritten.resized (m.placement tile).width
      (m.placement tile).height).asWritten = m.restoredSps := by
  rw [restoredSps, placement, Sps.asWritten, Sps.resized, Sps.asWritten, Sps.resized]

theorem restoredPps_eq (hm : m.Regular) (tile : Nat) :
    (m.pps.asWritten .remove).asWritten (m.placement tile).tiles = m.restoredPps := by
  rw [placement_tiles hm]
  rfl

theorem placedContent_vps {units : List DecodedUnit} (h : ∀ unit ∈ units, unit = .vps m.vps)
    (p : Placement) : units.flatMap (placedContent p) = units.map m.restoredSet := by
  induction units with
  | nil => rfl
  | cons unit units ih =>
    rw [List.flatMap_cons, List.map_cons, ih fun u hu => h u (List.mem_cons_of_mem _ hu),
      h unit List.mem_cons_self]
    rfl

theorem Laid.filter_back (h : m.Laid au ctx front back) :
    ∀ unit ∈ back.filter (·.IsSet), unit = .vps m.vps := by
  intro unit hunit
  obtain ⟨hmem, hset⟩ := List.mem_filter.1 hunit
  obtain rfl | ⟨_, -, rfl⟩ := h.back unit hmem
  · rfl
  · cases of_decide_eq_true hset

theorem Laid.filter_units (h : m.Laid au ctx front back) :
    au.units.filter (·.IsSet) = front ++ .sps m.sps :: .pps m.pps :: back.filter (·.IsSet) := by
  have hfront : front.filter (·.IsSet) = front := List.filter_eq_self.2 fun u hu => by
    rw [h.front u hu]
    rfl
  rw [h.units, List.filter_append, hfront]
  rfl

/-- The parameter sets in the packet of a tile say again what they said of the mosaic. -/
theorem Laid.placedContent_tileSets (h : m.Laid au ctx front back) (hm : m.Regular) :
    (m.tileSets front back width height ++ [DecodedUnit.slice got]).flatMap
        (placedContent (m.placement tile)) =
      (au.units.filter (·.IsSet)).map m.restoredSet := by
  rw [h.filter_units, tileSets, List.flatMap_append, List.flatMap_append, List.flatMap_cons,
    List.flatMap_cons, placedContent_vps h.front, placedContent_vps h.filter_back,
    List.map_append, List.map_cons, List.map_cons, List.flatMap_singleton]
  simp only [placedContent, restoredPps_eq hm, restoredSps_eq]
  simp [restoredSet]

/-! ## Packets of tiles -/

/-- The parameter sets of a tile are in force with its slice. -/
theorem Laid.known (h : m.Laid au ctx front back) (htracks : Tracks ctx' ctx) :
    ctx'.ppsById m.pps.id = some (m.pps.asWritten .remove) ∧
      ∃ width height, ctx'.spsOf (m.pps.asWritten .remove) =
        some (m.sps.resized width height).asWritten := by
  obtain ⟨width, height, -, -, hsps⟩ := htracks.sps m.pps.spsId m.sps (by
    rw [h.spsById, if_pos h.spsId.symm])
  exact ⟨htracks.pps m.pps.id m.pps (by rw [h.ppsById, if_pos rfl]), width, height, hsps⟩

theorem Laid.canWrite (h : m.Laid au ctx front back) (hm : m.Regular) (htracks : Tracks ctx' ctx) :
    ∀ unit ∈ m.tileSets front back width height ++ [DecodedUnit.slice got],
      CanWrite (m.placement tile) ctx' unit := by
  intro unit hunit
  simp only [tileSets, List.append_assoc, List.cons_append, List.mem_append, List.mem_cons,
    List.not_mem_nil, or_false] at hunit
  obtain hunit | rfl | rfl | hunit | rfl := hunit
  · rw [h.front unit hunit]
    exact hm.noVpsExtension
  · exact hm.noLongTerm
  · obtain ⟨-, width', height', hsps⟩ := h.known htracks
    refine ⟨_, hsps, Placement.checkGrid_eq_ok_iff.2 ?_⟩
    show max m.columns 1 ≤ _ ∧ max m.rows 1 ≤ _
    rw [Nat.max_eq_left hm.columns.1, Nat.max_eq_left hm.rows.1]
    exact h.fits hm
  · rw [h.filter_back unit hunit]
    exact hm.noVpsExtension
  · trivial

/-- Behind a picture parameter set that directly follows its sequence parameter set, no unit changes
which one that is. -/
theorem settled_pair {s : DecoderState} {sps : Sps} {pps : Pps} {rest : List DecodedUnit}
    (hrest : ∀ unit ∈ rest, (∃ v, unit = .vps v) ∨ ∃ segment, unit = .slice segment) :
    Settled (rest.foldl DecoderState.after ((s.after (.sps sps)).after (.pps pps))).ctx s
      (.sps sps :: .pps pps :: rest) := by
  obtain ⟨hsps, -⟩ := foldl_after_beside (s := (s.after (.sps sps)).after (.pps pps)) hrest
  have hlater : ∀ unit ∈ rest, unit.pps? = none := fun unit hunit => by
    obtain ⟨v, rfl⟩ | ⟨segment, rfl⟩ := hrest unit hunit
    · rfl
    · rfl
  refine ⟨fun q hq => ?_, fun q _ => ?_, settled_of_noPps hlater⟩
  · cases hq
  · rw [Context.spsOf, Context.spsOf, hsps]
    rfl

theorem Laid.settled (h : m.Laid au ctx front back) {c : Context} {bytes : Bytes}
    (hdecode : AccessUnit.decode c bytes =
      .ok (⟨m.tileSets front back width height ++ [.slice got]⟩, ctx')) :
    Settled ctx' (.start c) (m.tileSets front back width height ++ [.slice got]) := by
  obtain ⟨-, hctx⟩ := AccessUnit.yieldsAll_of_decode hdecode
  have hvps : ∀ unit ∈ front, unit.pps? = none := fun u hu => by
    rw [h.front u hu]
    rfl
  have hbehind : ∀ unit ∈ back.filter (·.IsSet) ++ [.slice got],
      (∃ v, unit = .vps v) ∨ ∃ segment, unit = .slice segment := fun u hu => by
    obtain hu | hu := List.mem_append.1 hu
    · exact .inl ⟨_, h.filter_back u hu⟩
    · exact .inr ⟨_, List.mem_singleton.1 hu⟩
  simp only [tileSets, List.append_assoc, List.cons_append] at hctx ⊢
  rw [List.foldl_append, List.foldl_cons, List.foldl_cons] at hctx
  rw [hctx]
  exact settled_append.2 ⟨settled_of_noPps hvps, settled_pair hbehind⟩

/-- The slice of a tile can be written again. -/
theorem Laid.placeable (h : m.Laid au ctx front back) (tile : Nat) (hm : m.Regular)
    (hsegment : segment ∈ m.slices) {bytes : Bytes} (hdecode : AccessUnit.decode .empty bytes =
      .ok (⟨m.tileSets front back width height ++ [.slice got]⟩, ctx'))
    (hcontent : (DecodedUnit.slice got).content = sliceContent segment) (htracks : Tracks ctx' ctx) :
    ∃ width height,
      ctx'.spsOf (m.pps.asWritten .remove) = some (m.sps.resized width height).asWritten ∧
      Placeable (m.placement tile) got (m.sps.resized width height).asWritten
        (m.pps.asWritten .remove) := by
  obtain ⟨hyields, hctx⟩ := AccessUnit.yieldsAll_of_decode hdecode
  obtain ⟨-, ⟨hunit, hproduces⟩, -⟩ := DecoderState.yieldsAll_append.1 hyields
  rw [List.foldl_append, List.foldl_cons, List.foldl_nil, DecoderState.after_slice_ctx] at hctx
  rw [← hctx] at hproduces
  obtain ⟨hnal, hheader, hdata⟩ := UnitContent.slice.inj hcontent
  obtain ⟨hpps, width', height', hsps⟩ := h.known htracks
  obtain ⟨pps, sps, hppsGot, hspsGot, -, -, hfields, hlegible⟩ :=
    SliceHeader.legible_of_produces hproduces
  obtain ⟨-, hid, -⟩ := h.slice segment hsegment
  obtain rfl : m.pps.asWritten .remove = pps := by
    rw [hheader] at hppsGot
    rw [← hid] at hpps
    exact Option.some.inj (hpps.symm.trans hppsGot)
  obtain rfl := Option.some.inj (hsps.symm.trans hspsGot)
  refine ⟨width', height', hsps, hunit, hlegible (hfields (by rw [hheader])), hm.noOutput,
    hm.noPlanes, hm.noLongTerm, ?_, by rw [hdata]; exact hm.data segment hsegment⟩
  rw [hheader]
  exact Nat.zero_le _

/-! ## Placed tiles -/

/-- The header of the slice of a tile is that of the mosaic again. -/
theorem Laid.restoredSlice_eq (h : m.Laid au ctx front back) (hm : m.Regular)
    (hsegment : m.slices[tile]? = some segment)
    (hcontent : (DecodedUnit.slice got).content = sliceContent segment) :
    UnitContent.slice got.nalHeader (got.header.asWritten (m.sps.resized width height).asWritten
      (m.pps.asWritten .remove) (m.placement tile).target) got.data =
        restoredSlice tile segment := by
  obtain ⟨htile, haddress⟩ := address_of_getElem? hm hsegment
  obtain ⟨hcolumns, hrows⟩ := h.fits hm
  have hindependent := hm.independent segment (List.mem_of_getElem? hsegment)
  obtain ⟨hnal, hheader, hdata⟩ := UnitContent.slice.inj hcontent
  have hfirst : (m.placement tile).target.isFirst = (tile == 0) := by
    rw [Bool.eq_iff_iff, SliceHeader.Target.isFirst, Bool.and_eq_true, beq_iff_eq, beq_iff_eq,
      beq_iff_eq]
    exact TileLayout.uniformOrigin_eq_zero_iff hcolumns hrows htile
  have hplace : (m.placement tile).target.address (m.sps.resized width height).asWritten.log2Ctb =
      segment.header.address := haddress.symm
  rw [restoredSlice, hnal, hheader, hdata, SliceHeader.asWritten, hfirst, hplace, ← hindependent]
  rfl

/-- A unit is read as a slice by any decoder with the parameter sets of the mosaic. -/
def ReadAs (m : Mosaic) (nal : Bytes) (content : UnitContent) : Prop :=
  ∀ e : DecoderState, m.Restores e.ctx → ∃ got, e.decodeNal nal = .ok (.slice got) ∧
    (DecodedUnit.slice got).content = content

/-- Units are those of a placed tile: parameter sets that say again what they said of the mosaic, and
a slice that says what that of the tile said. -/
structure Placed (m : Mosaic) (au : AccessUnit) (tile : Nat) (segment : SliceUnit)
    (nals : List Bytes) (nal : Bytes) : Prop where
  solid : ∀ unit ∈ nals ++ [nal], Solid unit
  sets : ∃ sets e, (DecoderState.start .empty).decodeNals nals = .ok (sets, e) ∧
    (∀ unit ∈ sets, unit.IsSet) ∧
    sets.map (·.content) = (au.units.filter (·.IsSet)).map m.restoredSet ∧ m.Restores e.ctx
  slice : m.ReadAs nal (restoredSlice tile segment)

theorem Laid.slices_tile (h : m.Laid au ctx front back) :
    AccessUnit.slices ⟨m.tileSets front back width height ++ [.slice got]⟩ = [got] := by
  have hsets : (m.tileSets front back width height).filterMap DecodedUnit.slice? = [] := by
    refine List.filterMap_eq_nil_iff.2 fun unit hunit => ?_
    simp only [tileSets, List.mem_append, List.mem_cons] at hunit
    obtain hunit | rfl | rfl | hunit := hunit
    · rw [h.front unit hunit]
      rfl
    · rfl
    · rfl
    · rw [h.filter_back unit hunit]
      rfl
  rw [AccessUnit.slices, List.filterMap_append, hsets]
  rfl

/-- A new placer takes the packet of a tile. -/
theorem Laid.place_ok (h : m.Laid au ctx front back) (hm : m.Regular) (hassumed : m.FitsAssumed)
    (hsegment : m.slices[tile]? = some segment) {packet : Packet}
    (hdecode : AccessUnit.decode .empty packet.data =
      .ok (⟨m.tileSets front back width height ++ [.slice got]⟩, ctx'))
    (hcontent : (DecodedUnit.slice got).content = sliceContent segment)
    (htracks : Tracks ctx' ctx) :
    ∃ placer nals nal, filter ⟨m.placement tile, .empty, .empty⟩ packet =
        (.ok (some (packet.derive (framedAll (nals ++ [nal])))), placer) ∧
      m.Placed au tile segment nals nal := by
  have hmem := List.mem_of_getElem? hsegment
  obtain ⟨htile, -⟩ := address_of_getElem? hm hsegment
  obtain ⟨hx, hy⟩ := TileLayout.uniformOrigin_lt h.sps htile
  obtain ⟨width', height', hsps, hplaceable⟩ :=
    h.placeable tile hm hmem hdecode hcontent htracks
  obtain ⟨hknown, -⟩ := h.known htracks
  obtain ⟨-, hheader, -⟩ := UnitContent.slice.inj hcontent
  obtain ⟨-, hid, -⟩ := h.slice segment hmem
  have hgot : got.header.ppsId = m.pps.id := by rw [hheader, ← hid]
  have hfirst : (AccessUnit.slices ⟨m.tileSets front back width height ++ [.slice got]⟩).head? =
      some got := by rw [h.slices_tile, List.head?_singleton]
  obtain ⟨bytes, nals, sets, e, nal, hfilter, hdecodes, hmirrors, hsolid, hread⟩ :=
    filter_ok (h.check_placement hm hassumed htile) hx hy hdecode (h.canWrite hm htracks)
      (h.settled hdecode) (Mirrors.empty _) hfirst (hgot ▸ hknown) hsps hplaceable
  have hrestores : m.Restores e.ctx := by
    have hspsId : ctx'.spsById m.sps.id = some (m.sps.resized width' height').asWritten :=
      h.spsId ▸ hsps
    have hrestored := hmirrors.sps _ _ hspsId
    rw [restoredSps_eq] at hrestored
    exact ⟨hrestored, restoredPps_eq hm tile ▸ hmirrors.pps _ _ hknown⟩
  have hdata : bytes ++ framedAll [nal] = framedAll (nals ++ [nal]) := by
    rw [hdecodes.bytes, framedAll, framedAll, framedAll, List.flatMap_append]
  refine ⟨_, nals, nal, hdata ▸ hfilter, ?_,
    ⟨sets, e, hdecodes.decodeNals, hdecodes.isSet, ?_, hrestores⟩, ?_⟩
  · intro unit hunit
    obtain hunit | hunit := List.mem_append.1 hunit
    · exact hdecodes.solid unit hunit
    · rwa [List.mem_singleton.1 hunit]
  · rw [hdecodes.contents]
    exact h.placedContent_tileSets hm
  · intro d hd
    have hspsOf : d.ctx.spsOf m.restoredPps = some m.restoredSps := by
      rw [← hd.sps, ← h.spsId]
      rfl
    rw [hgot, restoredPps_eq hm, restoredSps_eq] at hread
    obtain ⟨again, hagain, hsays⟩ := hread d hd.pps hspsOf
    exact ⟨again, hagain, hsays.trans (h.restoredSlice_eq hm hsegment hcontent)⟩

end TiledVideo.Mosaic
