import TiledVideo.Proofs.Engine.SplitterSuccess
import TiledVideo.Proofs.Engine.TileDecoding
import TiledVideo.Proofs.Mosaic.Basic

/-!
# Splitting a mosaic

A new splitter gives out the tiles of a mosaic one after the other, each with its own copy of the
parameter sets.

Results:

* `split_ok`: all calls succeed, and each tile comes with what it gets.
* `tile_decoded`: the packet of a tile is read as a picture of its own.
-/

namespace TiledVideo.Mosaic

open TileStreams Splitter ByteStream
open DecodedUnit (IsSet)

variable {m : Mosaic} {au : AccessUnit} {ctx : Context} {front back : List DecodedUnit}
  {tile : Nat} {segment : SliceUnit}

/-! ## Tiles -/

/-- The layout of the picture. -/
def layout (m : Mosaic) : TileLayout :=
  TileLayout.uniformLayout m.sps m.columns m.rows

theorem layout_eq (hm : m.Regular) : TileLayout.ofParamSets m.sps m.pps = .ok m.layout :=
  TileLayout.ofParamSets_uniform hm.columns.1 hm.rows.1 hm.grid

theorem Laid.fits (h : m.Laid au ctx front back) (hm : m.Regular) :
    m.columns ≤ m.sps.widthInCtbs ∧ m.rows ≤ m.sps.heightInCtbs := by
  obtain ⟨known, hknown, hpps⟩ := h.pps
  obtain ⟨sps, hsps, hpartition⟩ := Pps.known_of_produces hpps
  obtain rfl : m.sps = sps := Option.some.inj (hknown.symm.trans hsps)
  obtain ⟨⟨hcolumns, hrows⟩, -⟩ :=
    TileGrid.fits_codable_of_produces (Partition.produces_tiles hpartition hm.grid)
  have hcolumnsPos := hm.columns.1
  have hrowsPos := hm.rows.1
  simp only at hcolumns hrows
  omega

/-- Each tile has a size that pictures can have. -/
theorem Laid.tileSize (h : m.Laid au ctx front back) (hm : m.Regular) (htile : tile < m.tileCount) :
    ∃ width height, m.layout.tileSize tile = some (width, height) ∧ IsSize width ∧
      IsSize height := by
  obtain ⟨width, height, hsize⟩ : ∃ width height, m.layout.tileSize tile = some (width, height) :=
    TileLayout.tileSize_uniform htile
  obtain ⟨known, hknown, hpps⟩ := h.pps
  obtain ⟨sps, hsps, hpartition⟩ := Pps.known_of_produces hpps
  obtain rfl : m.sps = sps := Option.some.inj (hknown.symm.trans hsps)
  obtain ⟨hfits, -⟩ :=
    TileGrid.fits_codable_of_produces (Partition.produces_tiles hpartition hm.grid)
  obtain ⟨⟨hwidth, hwidthLe⟩, hheight, hheightLe⟩ :=
    TileLayout.tileSize_bounds h.sps hm.grid hfits trivial (layout_eq hm) hsize
  obtain ⟨⟨-, hmaxWidth⟩, -, hmaxHeight⟩ := PictureFormat.bounds (Sps.produces_parts h.sps).1
  exact ⟨width, height, hsize, ⟨hwidth, Nat.le_trans hwidthLe hmaxWidth⟩, hheight,
    Nat.le_trans hheightLe hmaxHeight⟩

theorem address_of_getElem? (hm : m.Regular) (hsegment : m.slices[tile]? = some segment) :
    tile < m.tileCount ∧
      segment.header.address = TileLayout.uniformFirstCtb m.sps m.columns m.rows tile := by
  have hlen := congrArg List.length hm.addresses
  rw [List.length_map, List.length_map, List.length_range] at hlen
  have htile := hlen ▸ (List.getElem?_eq_some_iff.1 hsegment).1
  have haddress := congrArg (·[tile]?) hm.addresses
  simp only [List.getElem?_map, hsegment, List.getElem?_range htile, Option.map_some,
    Option.some.injEq] at haddress
  exact ⟨htile, haddress⟩

theorem length_slices (hm : m.Regular) : m.slices.length = m.tileCount := by
  have hlen := congrArg List.length hm.addresses
  rwa [List.length_map, List.length_map, List.length_range] at hlen

/-- Each slice goes to its tile. -/
theorem Laid.destination (h : m.Laid au ctx front back) (hm : m.Regular)
    (hsegment : m.slices[tile]? = some segment) :
    ∃ width height, TileStreams.destination ctx segment =
      .ok ⟨m.sps, m.pps, tile, ⟨width, height, .remove, 0, 0, true⟩⟩ := by
  obtain ⟨htile, haddress⟩ := address_of_getElem? hm hsegment
  obtain ⟨width, height, hsize, -⟩ := h.tileSize hm htile
  obtain ⟨hcolumns, hrows⟩ := h.fits hm
  obtain ⟨-, hid, -⟩ := h.slice segment (List.mem_of_getElem? hsegment)
  refine ⟨width, height, destination_eq_ok_iff.2 ⟨?_, ?_, m.layout, width, height, layout_eq hm, ?_,
    hsize, rfl⟩⟩
  · rw [h.ppsById, if_pos hid.symm]
  · rw [Context.spsOf, h.spsById, if_pos h.spsId.symm]
  · rw [haddress]
    exact TileLayout.tileIndex_firstCtb hcolumns hrows htile

theorem Laid.ready (h : m.Laid au ctx front back) (hm : m.Regular) (hsegment : segment ∈ m.slices) :
    Ready ctx segment := by
  obtain ⟨hunit, hid, hlegible⟩ := h.slice segment hsegment
  refine ⟨hunit, ⟨m.pps, m.sps, ?_, ?_, hm.noSync, hlegible⟩, hm.data segment hsegment⟩
  · rw [h.ppsById, if_pos hid.symm]
  · rw [Context.spsOf, h.spsById, if_pos h.spsId.symm]

/-! ## Calls -/

theorem Laid.distribute_ok (h : m.Laid au ctx front back) (hm : m.Regular) :
    ∃ t, distributeAll .ample au .empty = .ok () t ∧ t.Expects m.pps m.layout := by
  obtain ⟨known, hknown, hpps⟩ := h.pps
  obtain ⟨vpsBits, hvpsBits, -⟩ := (Vps.reads h.vps hm.noVpsExtension).decode
  have hremoved : (Pps.parse known).ReadsPayload (m.pps.encode .remove) (m.pps.asWritten .remove) :=
    Pps.reads hpps hknown hknown rfl rfl nofun
  obtain ⟨ppsBits, hppsBits, -⟩ := hremoved.decode
  have hplain : ∀ unit, m.Beside unit → Plain unit := fun unit hunit => by
    obtain rfl | ⟨_, -, rfl⟩ := hunit
    · exact ⟨vpsBits, hvpsBits⟩
    · trivial
  obtain ⟨units⟩ := au
  obtain rfl := h.units
  refine distributeAll_ok (layout_eq hm) (fun u hu => hplain u (.inl (h.front u hu)))
    (fun u hu => hplain u (h.back u hu)) h.spsId (fun tile htile => ?_) hppsBits
  obtain ⟨width, height, hsize, hwidth, hheight⟩ := h.tileSize hm htile
  obtain ⟨bits, hbits, -⟩ := (Sps.reads_resized h.sps hm.noLongTerm hwidth hheight).decode
  exact ⟨width, height, bits, hsize, hbits⟩

theorem leaveRest_beside {plain rest : List DecodedUnit} (h : ∀ unit ∈ plain, m.Beside unit)
    (hrest : LeaveRest rest) : LeaveRest (plain ++ rest) := by
  induction plain with
  | nil => exact hrest
  | cons unit plain ih =>
    have hlater := ih fun u hu => h u (List.mem_cons_of_mem _ hu)
    obtain rfl | ⟨segment, -, rfl⟩ := h unit List.mem_cons_self
    · exact hlater
    · exact hlater

theorem Laid.leaveRest (h : m.Laid au ctx front back) (hm : m.Regular) : LeaveRest au.units := by
  have hback : LeaveRest back := by
    rw [← List.append_nil back]
    exact leaveRest_beside h.back trivial
  rw [h.units]
  refine leaveRest_beside (fun u hu => .inl (h.front u hu)) ⟨fun pps hpps grid hgrid => ?_, hback⟩
  obtain ⟨_, hpps, -⟩ := ppsAfter_eq_some hpps
  cases hpps
  obtain rfl := Option.some.inj (hm.grid.symm.trans hgrid)
  trivial

/-- What a tile gets of the parameter sets brings a decoder of the tile on the track of the
splitter. -/
theorem Laid.sets_decoded (h : m.Laid au ctx front back) (hm : m.Regular) {bytes : Bytes}
    (hdecode : AccessUnit.decode .empty bytes = .ok (au, ctx)) {setBytes : Bytes}
    (hset : TileStreams.setBytes tile au.units = .ok setBytes) :
    ∃ contents nals sets d, setContents tile au.units = .ok contents ∧
      Decodes (.start .empty) setBytes contents nals sets d ∧ Tracks d.ctx ctx := by
  obtain ⟨hyields, hctx⟩ := AccessUnit.yieldsAll_of_decode hdecode
  rw [hctx]
  exact setBytes_decoded hyields (h.leaveRest hm) hset Tracks.empty

/-- A new splitter takes a mosaic and gives out one tile after the other: what the tile gets of the
parameter sets, and its slice. -/
theorem Laid.split_ok (h : m.Laid au ctx front back) (hm : m.Regular) {packet : Packet}
    (hdecode : AccessUnit.decode .empty packet.data = .ok (au, ctx)) :
    ∃ (s : Splitter) (tiles : Nat → Packet),
      Run.calls .empty (.send packet :: List.replicate m.tileCount .receive) =
        .ok ⟨s, [⟨some (au, ctx), (List.range m.tileCount).map tiles⟩]⟩ ∧
      ∀ tile segment, m.slices[tile]? = some segment → ∃ bytes d own,
        setBytes tile au.units = .ok bytes ∧ TileStreams.destination ctx segment = .ok d ∧
        ownSlice segment d = .ok own ∧
        tiles tile = { packet.derive (bytes ++ own) with tile := some tile } := by
  obtain ⟨t, hdistribute, hexpects⟩ := h.distribute_ok hm
  have hadds := distributeAll_spec TileStreams.whole_empty hdistribute
  have hwaiting : ∀ tile < m.tileCount, ∃ bytes, setBytes tile au.units = .ok bytes ∧
      t.waiting tile = bytes := fun tile htile => by
    obtain ⟨bytes, hbytes, hwaiting⟩ := hadds.waiting tile fun _ => hexpects.count ▸ htile
    exact ⟨bytes, hbytes, hwaiting⟩
  have hslices : ∀ i segment, m.slices[i]? = some segment → ∃ d own,
      TileStreams.destination ctx segment = .ok d ∧
      TileLayout.ofParamSets d.sps d.pps = .ok m.layout ∧ d.pps = m.pps ∧ d.tile = 0 + i ∧
      ownSlice segment d = .ok own := fun i segment hsegment => by
    obtain ⟨htile, -⟩ := address_of_getElem? hm hsegment
    obtain ⟨width, height, hdest⟩ := h.destination hm hsegment
    obtain ⟨bytes, hbytes, -⟩ := hwaiting i htile
    obtain ⟨_, _, _, d, -, -, htracks⟩ := h.sets_decoded hm hdecode hbytes
    obtain ⟨own, hown⟩ := ownSlice_ok (h.ready hm (List.mem_of_getElem? hsegment)) hdest
      hm.noOutput hm.noPlanes hm.noLongTerm htracks
    exact ⟨_, own, hdest, layout_eq hm, rfl, (Nat.zero_add i).symm, hown⟩
  obtain ⟨packets, t', hcalls, hlen, hpackets⟩ :=
    Run.receives_ok packet (some (au, ctx)) [] [] hexpects hslices
  rw [length_slices hm] at hcalls hlen
  refine ⟨⟨ctx, t', .idle⟩, fun tile => packets[tile]?.getD default, ?_, fun tile segment hsegment => ?_⟩
  · refine bind_eq_ok_iff.2 ⟨_, Run.send_ok rfl hdecode hdistribute, ?_⟩
    have hall : (List.range m.tileCount).map (fun tile => packets[tile]?.getD default) = packets := by
      refine List.ext_getElem (by simp [hlen]) fun i hi hi' => ?_
      simp [hi']
    rw [h.slices, hall]
    exact hcalls
  · obtain ⟨htile, -⟩ := address_of_getElem? hm hsegment
    obtain ⟨bytes, hbytes, hwaiting⟩ := hwaiting tile htile
    obtain ⟨d, own, hd, hown, hpacket⟩ := hpackets tile segment hsegment
    refine ⟨bytes, d, own, hbytes, hd, hown, ?_⟩
    rw [Nat.zero_add, hwaiting] at hpacket
    exact congrArg (·.getD default) hpacket

/-! ## Tiles on their own -/

/-- Parameter sets that say the same are the same. -/
theorem eq_of_map_content {a b : List DecodedUnit} (ha : ∀ unit ∈ a, unit.IsSet)
    (h : a.map (·.content) = b.map (·.content)) : a = b := by
  induction a generalizing b with
  | nil => exact (List.map_eq_nil_iff.1 h.symm).symm
  | cons unit a ih =>
    cases b with
    | nil => cases h
    | cons other b =>
      obtain ⟨hhead, htail⟩ := List.cons.inj h
      rw [ih (fun u hu => ha u (List.mem_cons_of_mem _ hu)) htail]
      have hunit := ha unit List.mem_cons_self
      cases unit with
      | slice segment => cases hunit
      | other header => cases hunit
      | _ =>
        cases other with
        | _ => cases hhead <;> rfl

/-- Units beside the sequence and picture parameter sets go to all tiles if they are sets. -/
theorem setContents_beside {plain rest : List DecodedUnit} {contents : List UnitContent}
    (hplain : ∀ unit ∈ plain, m.Beside unit)
    (h : setContents tile (plain ++ rest) = .ok contents) :
    ∃ later, setContents tile rest = .ok later ∧
      contents = (plain.filter (·.IsSet)).map (·.content) ++ later := by
  induction plain generalizing contents with
  | nil => exact ⟨contents, h, rfl⟩
  | cons unit plain ih =>
    obtain ⟨own, hown, h⟩ := bind_eq_ok_iff.1 h
    obtain ⟨after, hafter, h⟩ := bind_eq_ok_iff.1 h
    cases h
    obtain ⟨later, hlater, rfl⟩ := ih (fun u hu => hplain u (List.mem_cons_of_mem _ hu)) hafter
    refine ⟨later, hlater, ?_⟩
    obtain rfl | ⟨segment, -, rfl⟩ := hplain unit List.mem_cons_self
    · cases hown
      rfl
    · cases hown
      rfl

/-- The parameter sets in the packet of a tile of a given size. -/
def tileSets (m : Mosaic) (front back : List DecodedUnit) (width height : Nat) :
    List DecodedUnit :=
  front ++ .sps (m.sps.resized width height).asWritten :: .pps (m.pps.asWritten .remove) ::
    back.filter (·.IsSet)

/-- The packet of a tile is read as a picture of its own. -/
theorem Laid.tile_decoded (h : m.Laid au ctx front back) (hm : m.Regular) {bytes : Bytes}
    (hdecode : AccessUnit.decode .empty bytes = .ok (au, ctx))
    (hsegment : segment ∈ m.slices) {setBytes own : Bytes} {d : Destination}
    (hset : TileStreams.setBytes tile au.units = .ok setBytes)
    (hd : TileStreams.destination ctx segment = .ok d) (hown : ownSlice segment d = .ok own) :
    ∃ width height got ctx', AccessUnit.decode .empty (setBytes ++ own) =
        .ok (⟨m.tileSets front back width height ++ [.slice got]⟩, ctx') ∧
      (DecodedUnit.slice got).content = sliceContent segment ∧ Tracks ctx' ctx := by
  obtain ⟨contents, nals, sets, e, hcontents, hdecodes, htracks⟩ := h.sets_decoded hm hdecode hset
  obtain ⟨nal, got, rfl, hsolid, hgot, hcontent⟩ :=
    ownSlice_decoded (h.ready hm hsegment) hd hown htracks
  have hfront : front.filter (·.IsSet) = front := List.filter_eq_self.2 fun u hu => by
    rw [h.front u hu]
    rfl
  rw [h.units] at hcontents
  obtain ⟨later, hlater, hall⟩ := setContents_beside (fun u hu => .inl (h.front u hu)) hcontents
  obtain ⟨spsContents, hsps, hlater⟩ := bind_eq_ok_iff.1 hlater
  obtain ⟨behind, hbehind, hlater⟩ := bind_eq_ok_iff.1 hlater
  cases hlater
  obtain ⟨pps, hpps, hsps⟩ := bind_eq_ok_iff.1 hsps
  obtain ⟨⟨width, height⟩, -, hsps⟩ := bind_eq_ok_iff.1 hsps
  cases hsps
  obtain ⟨ppsContents, hpps, hbehind⟩ := bind_eq_ok_iff.1 hbehind
  obtain ⟨last, hlast, hbehind⟩ := bind_eq_ok_iff.1 hbehind
  cases hbehind
  cases hpps
  rw [← List.append_nil back] at hlast
  obtain ⟨_, hnil, rfl⟩ := setContents_beside h.back hlast
  cases hnil
  have hsets : sets = m.tileSets front back width height := by
    refine eq_of_map_content hdecodes.isSet ?_
    rw [hdecodes.contents, hall, hfront]
    simp [tileSets, DecodedUnit.content]
  exact ⟨width, height, got, e.ctx, hsets ▸ AccessUnit.decode_slice hdecodes hsolid hgot, hcontent,
    htracks⟩

end TiledVideo.Mosaic
