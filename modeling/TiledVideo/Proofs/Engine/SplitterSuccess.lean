import TiledVideo.Proofs.Engine.SplitterRun

/-!
# Access units that can be split

A new splitter takes an access unit whose parameter sets and slices have codes, if the picture
parameter set directly follows the sequence parameter set and each slice is in a tile of its own.

Results:

* `Expects`: the streams are for the tiles of a layout, and no other layout is in use.
* `distributeAll_ok`: the parameter sets of an access unit are distributed.
* `Run.receives_ok`: the slices are given out one after the other.
-/

namespace TiledVideo

namespace TileStreams

/-- Streams of whole units for the tiles of a layout, which is that of all picture parameter sets
with the number of `pps` so far. -/
structure Expects (t : TileStreams) (pps : Pps) (l : TileLayout) : Prop where
  whole : t.Whole
  count : t.streams.length = l.tileCount
  pos : 0 < l.tileCount
  held : ∀ held, t.layouts.get? pps.id = some held → held = l

variable {t : TileStreams} {sps : Sps} {pps : Pps} {l : TileLayout}

/-! ## Parameter sets -/

theorem Expects.streams_ne_nil (h : t.Expects pps l) : t.streams ≠ [] := by
  rw [← List.length_pos_iff_ne_nil, h.count]
  exact h.pos

/-- A parameter set that has a code goes to all streams. -/
theorem writeAll_ok (h : t.Expects pps l) (unitType : UnitType) {code : Code}
    {bits : BitString} (hbits : code.closed = .ok bits) :
    ∃ t', writeAll unitType code.closed t = .ok () t' ∧ t'.Expects pps l := by
  obtain ⟨streams, hstreams⟩ : ∃ streams,
      t.streams.mapM (·.parameterSet unitType code.closed) = .ok streams :=
    exists_mapM_eq_ok fun s hs => by
      rw [BitStream.parameterSet_eq (h.whole.streams s hs).pending, hbits]
      exact ⟨_, rfl⟩
  have hlen := (mapM_eq_ok_iff.1 hstreams).length_eq
  have hwrite : writeAll unitType code.closed t = .ok () ⟨t.layouts, streams⟩ :=
    writeAll_eq_ok_iff.2 ⟨h.streams_ne_nil, streams, hstreams, rfl⟩
  exact ⟨_, hwrite, (writeAll_spec h.whole hwrite).whole, hlen.symm.trans h.count, h.pos, h.held⟩

/-- A sequence parameter set that has a code for each size goes to all streams. -/
theorem writeSps_ok (hl : TileLayout.ofParamSets sps pps = .ok l) (h : t.Expects pps l)
    (hcodes : ∀ tile < l.tileCount, ∃ width height bits, l.tileSize tile = some (width, height) ∧
      (sps.resized width height).encode = .ok bits) :
    ∃ t', writeSps sps pps t = .ok () t' ∧ t'.Expects pps l := by
  obtain ⟨layouts, hresolve, hheld⟩ := LayoutTable.resolve_ok hl h.held
  obtain ⟨streams, hwritten⟩ : ∃ streams,
      t.streams.zipIdx.mapM (writeSized sps l) = .ok streams := by
    refine exists_mapM_eq_ok fun ⟨s, tile⟩ hmem => ?_
    obtain ⟨-, htile, hs⟩ := List.mem_zipIdx hmem
    rw [Nat.zero_add, h.count] at htile
    obtain ⟨width, height, bits, hsize, hbits⟩ := hcodes tile htile
    have hwhole := h.whole.streams s (hs ▸ List.getElem_mem _)
    simp only [writeSized, hsize]
    rw [show (sps.resized width height).encode = Code.closed _ from rfl,
      BitStream.parameterSet_eq hwhole.pending,
      show Code.closed _ = .ok bits from hbits]
    exact ⟨_, rfl⟩
  have hlen := (mapM_eq_ok_iff.1 hwritten).length_eq
  rw [List.length_zipIdx] at hlen
  have hwrite : writeSps sps pps t = .ok () ⟨layouts, streams⟩ :=
    writeSps_eq_ok_iff.2 ⟨l, layouts, streams, hresolve, h.count, hwritten, rfl⟩
  exact ⟨_, hwrite, (writeSps_spec h.whole hwrite).whole, hlen.symm.trans h.count, h.pos, hheld⟩

/-- Units that come between others without a part in how these are distributed: video parameter sets
that have a code, and slices. -/
def Plain : DecodedUnit → Prop
  | .vps set => ∃ bits, set.encode = .ok bits
  | .slice _ => True
  | _ => False

theorem distribute_plain {plain : List DecodedUnit} (h : t.Expects pps l)
    (hplain : ∀ unit ∈ plain, Plain unit) :
    ∃ t', t'.Expects pps l ∧ ∀ rest, distribute (plain ++ rest) t = distribute rest t' := by
  induction plain generalizing t with
  | nil => exact ⟨t, h, fun _ => rfl⟩
  | cons unit plain ih =>
    have hunit := hplain unit List.mem_cons_self
    have hlater := fun u hu => hplain u (List.mem_cons_of_mem unit hu)
    cases unit with
    | vps set =>
      obtain ⟨bits, hbits⟩ := hunit
      obtain ⟨t₁, hwrite, h₁⟩ := writeAll_ok h .vps hbits
      obtain ⟨t', h', hrest⟩ := ih h₁ hlater
      refine ⟨t', h', fun rest => ?_⟩
      rw [← hrest]
      show EStateM.bind (writeAll .vps set.encode) _ t = _
      rw [EStateM.bind, show writeAll .vps set.encode t = .ok () t₁ from hwrite]
      rfl
    | slice segment => exact ih h hlater
    | _ => cases hunit

/-- The units of an access unit that are not plain are a sequence parameter set and the picture
parameter set that directly follows it. -/
theorem distribute_ok {front back : List DecodedUnit}
    (hl : TileLayout.ofParamSets sps pps = .ok l) (h : t.Expects pps l)
    (hfront : ∀ unit ∈ front, Plain unit) (hback : ∀ unit ∈ back, Plain unit)
    (hid : pps.spsId = sps.id)
    (hcodes : ∀ tile < l.tileCount, ∃ width height bits, l.tileSize tile = some (width, height) ∧
      (sps.resized width height).encode = .ok bits)
    {bits : BitString} (hbits : pps.encode .remove = .ok bits) :
    ∃ t', distribute (front ++ .sps sps :: .pps pps :: back) t = .ok () t' ∧
      t'.Expects pps l := by
  obtain ⟨t₁, h₁, hrest₁⟩ := distribute_plain h hfront
  obtain ⟨t₂, hsps, h₂⟩ := writeSps_ok hl h₁ hcodes
  obtain ⟨t₃, hpps, h₃⟩ := writeAll_ok h₂ .pps hbits
  obtain ⟨t₄, h₄, hrest₄⟩ := distribute_plain h₃ hback
  refine ⟨t₄, ?_, h₄⟩
  have hafter : ppsAfter sps (.pps pps :: back) = some pps := if_pos hid
  have hlast := hrest₄ []
  rw [List.append_nil] at hlast
  rw [hrest₁, distribute_sps hafter]
  exact step_bind_eq_ok.2 ⟨(), t₂, hsps, step_bind_eq_ok.2 ⟨(), t₃, hpps, hlast⟩⟩

/-- The parameter sets of an access unit are distributed to new streams. -/
theorem distributeAll_ok {front back : List DecodedUnit}
    (hl : TileLayout.ofParamSets sps pps = .ok l)
    (hfront : ∀ unit ∈ front, Plain unit) (hback : ∀ unit ∈ back, Plain unit)
    (hid : pps.spsId = sps.id)
    (hcodes : ∀ tile < l.tileCount, ∃ width height bits, l.tileSize tile = some (width, height) ∧
      (sps.resized width height).encode = .ok bits)
    {bits : BitString} (hbits : pps.encode .remove = .ok bits) :
    ∃ t', distributeAll .ample ⟨front ++ .sps sps :: .pps pps :: back⟩ empty = .ok () t' ∧
      t'.Expects pps l := by
  have hfirst : AccessUnit.firstPps ⟨front ++ .sps sps :: .pps pps :: back⟩ = some pps := by
    have hnone : front.findSome? DecodedUnit.pps? = none := List.findSome?_eq_none_iff.2 fun u hu => by
      have hplain := hfront u hu
      cases u with
      | pps set => cases hplain
      | _ => rfl
    rw [AccessUnit.firstPps, List.findSome?_append, hnone]
    rfl
  have htiles : pps.partition.tiles.isSome = true := by
    obtain ⟨grid, _, _, hgrid, -⟩ := TileLayout.ofParamSets_eq_ok_iff.1 hl
    rw [hgrid]
    rfl
  have hprepare : prepare .ample ⟨front ++ .sps sps :: .pps pps :: back⟩ empty =
      .ok () ⟨.empty, fresh l.tileCount⟩ := by
    refine step_bind_eq_ok.2 ⟨empty, empty, rfl, ?_⟩
    rw [hfirst, TileLayout.tileCount_of_ofParamSets hl]
    simp only [empty, htiles, if_true]
    rfl
  have hfresh : Expects ⟨.empty, fresh l.tileCount⟩ pps l :=
    ⟨⟨LayoutTable.worked_empty, fun _ => whole_fresh⟩, List.length_replicate,
      TileLayout.tileCount_pos hl, fun held hheld => by
        simp [LayoutTable.get?, LayoutTable.empty] at hheld⟩
  obtain ⟨t', hdistribute, h'⟩ := distribute_ok hl hfresh hfront hback hid hcodes hbits
  exact ⟨t', step_bind_eq_ok.2 ⟨(), _, hprepare, hdistribute⟩, h'⟩

/-! ## Slices -/

/-- A slice that has a code is given out for its tile. -/
theorem writeSlice_ok {ctx : Context} {segment : SliceUnit} {d : Destination} {own : Bytes}
    (hd : destination ctx segment = .ok d) (hown : ownSlice segment d = .ok own)
    (hl : TileLayout.ofParamSets d.sps d.pps = .ok l) (h : t.Expects d.pps l) :
    ∃ data t', writeSlice .ample ctx segment t = .ok (d.tile, data) t' ∧ t'.Expects d.pps l := by
  obtain ⟨layouts, hresolve, hheld⟩ := LayoutTable.resolve_ok hl h.held
  have hworked := (LayoutTable.resolve_spec h.whole.layouts hresolve).2
  have hlt : d.tile < t.streams.length := by
    obtain ⟨-, -, layout, -, -, hlayout, htile, -, -⟩ := destination_eq_ok_iff.1 hd
    obtain rfl : l = layout := Except.ok.inj (hl.symm.trans hlayout)
    obtain ⟨-, _, _, -, -, -, hlt⟩ := TileLayout.tileIndex_eq_some_iff.1 htile
    rwa [h.count]
  have hwhole := h.whole.streams _ (List.getElem_mem hlt)
  obtain ⟨written, hwritten, hwrittenWhole⟩ : ∃ written,
      t.streams[d.tile].slice segment d.sps d.pps d.target = .ok written ∧ written.Whole := by
    obtain ⟨_, hslice, -⟩ := map_eq_ok_iff.1 hown
    have hslice := mapError_eq_ok_iff.1 hslice
    rw [BitStream.slice_eq rfl] at hslice
    obtain ⟨bits, hbits, -⟩ := map_eq_ok_iff.1 hslice
    rw [BitStream.slice_eq hwhole.pending, hbits]
    exact ⟨_, rfl, hwhole.withUnit _ _⟩
  have hopened := opened_of_ne_nil h.streams_ne_nil l.tileCount
  refine ⟨written.out.bytes, ⟨layouts, t.streams.set d.tile .empty⟩,
    (writeSlice_eq_ok_iff h.whole).2 ⟨d, l, layouts, t.streams[d.tile], written, hd, rfl, hresolve,
      fun _ => rfl, ?_, ?_, hwritten, BitStream.packetData_ample hwrittenWhole, ?_⟩,
    ⟨hworked, fun s hs => ?_⟩, by rw [List.length_set, h.count], h.pos, hheld⟩
  · rw [hopened, h.count]
  · rw [hopened, List.getElem?_eq_getElem hlt]
  · rw [hopened]
  · obtain hs | rfl := List.mem_or_eq_of_mem_set hs
    · exact h.whole.streams s hs
    · exact BitStream.whole_empty

end TileStreams

namespace Splitter.Run

open TileStreams

variable {pps : Pps} {l : TileLayout} {ctx : Context}

/-! ## Calls -/

/-- An access unit that is read and distributed is taken. -/
theorem send_ok {r : Run} {packet : Packet} {au : AccessUnit} {tiles : TileStreams}
    (hidle : r.splitter.phase = .idle)
    (hdecode : AccessUnit.decode r.splitter.ctx packet.data = .ok (au, ctx))
    (hdistribute : distributeAll .ample au r.splitter.tiles = .ok () tiles) :
    r.call (.send packet) =
      .ok ⟨⟨ctx, tiles, .ofSlices packet au.slices⟩, ⟨some (au, ctx), []⟩ :: r.sent⟩ := by
  obtain ⟨⟨ctx₀, tiles₀, phase⟩, sent⟩ := r
  obtain rfl : phase = .idle := hidle
  simp only at hdecode hdistribute
  simp only [call, send, hdecode, hdistribute]
  rfl

/-- A slice that is written is given out. -/
theorem receive_ok {input : Packet} {next : SliceUnit} {later : List SliceUnit} {tile : Nat}
    {data : Bytes} {t t' : TileStreams} (sent : List Sent)
    (hwrite : writeSlice .ample ctx next t = .ok (tile, data) t') :
    call ⟨⟨ctx, t, .distributing input next later⟩, sent⟩ .receive =
      .ok ⟨⟨ctx, t', .ofSlices input later⟩,
        received { input.derive data with tile := some tile } sent⟩ := by
  simp only [call, receive, hwrite]

/-- Slices that have codes and belong to one tile after the other are given out, each with what
waits for its tile. -/
theorem receives_ok (input : Packet) (parsed : Option (AccessUnit × Context))
    (earlier : List Sent) (done : List Packet) {slices : List SliceUnit} {t : TileStreams}
    {first : Nat} (h : t.Expects pps l)
    (hslices : ∀ i segment, slices[i]? = some segment → ∃ d own,
      destination ctx segment = .ok d ∧ TileLayout.ofParamSets d.sps d.pps = .ok l ∧
      d.pps = pps ∧ d.tile = first + i ∧ ownSlice segment d = .ok own) :
    ∃ packets t', (List.replicate slices.length Call.receive).foldlM call
        ⟨⟨ctx, t, .ofSlices input slices⟩, ⟨parsed, done⟩ :: earlier⟩ =
          .ok ⟨⟨ctx, t', .idle⟩, ⟨parsed, done ++ packets⟩ :: earlier⟩ ∧
      packets.length = slices.length ∧
      ∀ i segment, slices[i]? = some segment → ∃ d own, destination ctx segment = .ok d ∧
        ownSlice segment d = .ok own ∧
        packets[i]? = some { input.derive (t.waiting (first + i) ++ own) with
          tile := some (first + i) } := by
  induction slices generalizing t first done with
  | nil =>
    refine ⟨[], t, ?_, rfl, fun i segment hi => absurd hi (by rw [List.getElem?_nil]; nofun)⟩
    rw [List.append_nil]
    rfl
  | cons next later ih =>
    obtain ⟨d, own, hd, hlayout, rfl, htile, hown⟩ := hslices 0 next List.getElem?_cons_zero
    obtain ⟨data, t₁, hwrite, h₁⟩ := writeSlice_ok hd hown hlayout h
    have hgives := writeSlice_spec h.whole hwrite
    have hlater : ∀ i segment, later[i]? = some segment → ∃ d' own', destination ctx segment = .ok d' ∧
        TileLayout.ofParamSets d'.sps d'.pps = .ok l ∧ d'.pps = d.pps ∧ d'.tile = first + 1 + i ∧
        ownSlice segment d' = .ok own' := fun i segment hi => by
      rw [Nat.add_assoc, Nat.add_comm 1]
      exact hslices (i + 1) segment hi
    obtain ⟨packets, t', hcalls, hlen, hpackets⟩ :=
      ih (done ++ [{ input.derive data with tile := some d.tile }]) h₁ hlater
    refine ⟨{ input.derive data with tile := some d.tile } :: packets, t', ?_,
      congrArg (· + 1) hlen, fun i segment hi => ?_⟩
    · rw [List.length_cons, List.replicate_succ, List.foldlM_cons]
      refine bind_eq_ok_iff.2 ⟨_, receive_ok _ hwrite, ?_⟩
      rw [received, hcalls, List.append_assoc, List.singleton_append]
    · cases i with
      | zero =>
        cases hi
        obtain ⟨d', own', hd', htile', hown', hdata⟩ := hgives.data
        refine ⟨d', own', hd', hown', ?_⟩
        rw [Nat.add_zero] at htile ⊢
        rw [List.getElem?_cons_zero, hdata, htile]
      | succ i =>
        obtain ⟨d', own', hd', hown', hpacket⟩ := hpackets i segment hi
        refine ⟨d', own', hd', hown', ?_⟩
        have hother : first + 1 + i ≠ d.tile := by omega
        rw [List.getElem?_cons_succ, hpacket, hgives.others _ hother, Nat.add_assoc,
          Nat.add_comm 1]

end Splitter.Run

end TiledVideo
