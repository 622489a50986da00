import TiledVideo.Proofs.Engine.Reachable

/-!
# Slice data in packets

Whoever reads the packet of a slice with the parameter sets that the slice was written for gets its
data, except for zero bytes at their end: those that no byte `03` closes are lost.

Results:

* `readsBack_slices`: what is read back of the slices that a splitter and a placer give out, from any
  state that they can be in.
* `zeros_lost`: a picture whose slice ends in zero bytes.
-/

namespace TiledVideo

open ByteStream

/-- A decoder that reads what is in front of a slice in a packet, and then has the parameter sets in
force for which the slice was written, reads the packet to its end. It gets the slice with `data`. -/
def ReadsBack (packet front : Bytes) (segment : SliceUnit) (sps : Sps) (pps : Pps)
    (t : SliceHeader.Target) (data : Bytes) : Prop :=
  ∀ c c' units, AccessUnit.Reads c front units c' → AccessUnit.Holds c' segment sps pps t →
    ∃ got, AccessUnit.decode c packet = .ok (⟨units ++ [.slice got]⟩, c') ∧
      got.nalHeader = segment.nalHeader ∧ got.header = segment.header.asWritten sps pps t ∧
      got.data = data

theorem readsBack_of_slice {front : Bytes} (hfront : Framed front) {segment : SliceUnit}
    (hunit : segment.nalHeader.layerId = 0 ∧ segment.nalHeader.unitType.isSlice = true)
    {sps : Sps} {pps : Pps} {t : SliceHeader.Target} (hindependent : t.independent = true)
    {own : BitStream} (hown : BitStream.empty.slice segment sps pps t = .ok own) :
    ReadsBack (front ++ own.out.bytes) front segment sps pps t (kept segment.data) := by
  intro c c' units hreads hholds
  obtain ⟨got, hdecode, hcontent⟩ :=
    AccessUnit.decode_readBack hfront hreads hunit hindependent hholds hown
  injection hcontent with hnalHeader hheader hdata
  exact ⟨got, hdecode, hnalHeader, hheader, hdata⟩

namespace Splitter

variable {s : Splitter} {input packet : Packet} {next : SliceUnit} {later : List SliceUnit}

theorem Reachable.readsBack (h : s.Reachable) (hphase : s.phase = .distributing input next later)
    (hreceive : s.receive.1 = .ok (some packet)) :
    ∃ d, TileStreams.destination s.ctx next = .ok d ∧ packet.tile = some d.tile ∧
      ReadsBack packet.data (s.tiles.waiting d.tile) next d.sps d.pps d.target (kept next.data) := by
  have hleft := h.sound.left
  rw [hphase] at hleft
  obtain ⟨c, au, given, hdecode, hslices⟩ := hleft
  have hnext : next ∈ au.slices := by
    rw [hslices]
    simp
  have hunit := (AccessUnit.yieldsAll_of_decode hdecode).1.slice_unitType
    (AccessUnit.mem_slices_iff.1 hnext)
  obtain ⟨d, own, hd, htile, hown, hdata, hframed⟩ := h.receive_slice hphase hreceive
  obtain ⟨-, -, _, width, height, -, -, -, htarget⟩ := TileStreams.destination_eq_ok_iff.1 hd
  refine ⟨d, hd, htile, ?_⟩
  rw [hdata]
  exact readsBack_of_slice hframed hunit (by rw [htarget]) hown

end Splitter

namespace Placer

variable {s : Placer} {packet output : Packet} {au : AccessUnit} {ctx : Context}
  {segment : SliceUnit}

theorem Reachable.readsBack (h : s.Reachable)
    (hdecode : AccessUnit.decode s.ctx packet.data = .ok (au, ctx))
    (hfirst : au.slices.head? = some segment)
    (hfilter : (s.filter packet).1 = .ok (some output)) :
    ∃ stream sps pps, au.units.foldlM (writeUnit s.placement ctx) s.stream = .ok stream ∧
      ctx.paramSets segment.header.ppsId = some (sps, pps) ∧
      ReadsBack output.data stream.out.bytes segment sps pps s.placement.target
        (kept segment.data) := by
  have hnext : segment ∈ au.slices := List.mem_of_head? hfirst
  have hunit := (AccessUnit.yieldsAll_of_decode hdecode).1.slice_unitType
    (AccessUnit.mem_slices_iff.1 hnext)
  obtain ⟨stream, sps, pps, own, hwrite, hsets, hown, hdata, hframed⟩ :=
    h.filter_slice hdecode hfirst hfilter
  refine ⟨stream, sps, pps, hwrite, hsets, ?_⟩
  rw [hdata]
  exact readsBack_of_slice hframed hunit rfl hown

end Placer

/-- The packet of each slice that a splitter or a placer gives out is read back with what is kept of
the data of the slice. That is all of them exactly if they do not end in a zero byte. -/
theorem readsBack_slices {s : Splitter} {p : Placer} (hs : s.Reachable) (hp : p.Reachable) :
    (∀ (input packet : Packet) (next : SliceUnit) (later : List SliceUnit),
      s.phase = .distributing input next later → s.receive.1 = .ok (some packet) →
      ∃ d, TileStreams.destination s.ctx next = .ok d ∧ packet.tile = some d.tile ∧
        ReadsBack packet.data (s.tiles.waiting d.tile) next d.sps d.pps d.target
          (kept next.data)) ∧
    (∀ (packet output : Packet) (au : AccessUnit) (ctx : Context) (segment : SliceUnit),
      AccessUnit.decode p.ctx packet.data = .ok (au, ctx) → au.slices.head? = some segment →
      (p.filter packet).1 = .ok (some output) →
      ∃ stream sps pps,
        au.units.foldlM (Placer.writeUnit p.placement ctx) p.stream = .ok stream ∧
        ctx.paramSets segment.header.ppsId = some (sps, pps) ∧
        ReadsBack output.data stream.out.bytes segment sps pps p.placement.target
          (kept segment.data)) ∧
    ∀ data, kept data = data ↔ data.getLast? ≠ some 0 := by
  refine ⟨?_, ?_, fun data => kept_eq_self_iff⟩
  · intro input packet next later hphase hreceive
    exact hs.readsBack hphase hreceive
  · intro packet output au ctx segment hdecode hfirst hfilter
    exact hp.readsBack hdecode hfirst hfilter

/-! ## A picture of two tiles -/

namespace Sample

/-- The access unit of the picture. -/
def accessUnit : AccessUnit :=
  match AccessUnit.decode .empty picture with
  | .ok (au, _) => au
  | .error _ => ⟨[]⟩

/-- The first slice of the picture. -/
def firstSlice : SliceUnit :=
  accessUnit.slices.headD ⟨⟨.vps, ⟨0, by decide⟩, ⟨0, by decide⟩⟩, default, [], 0⟩

/-- A splitter that has taken the picture. -/
def splitter : Splitter :=
  (Splitter.empty.send { data := picture }).2

/-- The packet of the first tile. -/
def firstPacket : Packet :=
  match splitter.receive.1 with
  | .ok (some packet) => packet
  | _ => default

/-- Where the slice of the first tile goes. -/
def firstDestination : TileStreams.Destination :=
  ⟨sps, pps, 0, { width := 960, height := 1088, tiles := .remove, x := 0, y := 0 }⟩

/-- The parameter sets in front of the slice in that packet, and those in force behind them. -/
def firstSets : AccessUnit × Context :=
  match AccessUnit.decode .empty (splitter.tiles.waiting 0) with
  | .ok sets => sets
  | .error _ => (⟨[]⟩, .empty)

/-- A placer that makes the picture the upper right tile of a larger one. -/
def placer : Placer :=
  ⟨Placer.samplePlacement, .empty, .empty⟩

/-- The packet that it makes of the picture. -/
def placedPacket : Packet :=
  match (placer.filter { data := picture }).1 with
  | .ok (some packet) => packet
  | _ => default

end Sample

deriving instance DecidableEq for TileStreams.Destination

open Sample in
theorem readsBack_slices_sample :
    (splitter.Reachable ∧
      splitter.phase = .distributing { data := picture } firstSlice (accessUnit.slices.drop 1) ∧
      splitter.receive.1 = .ok (some firstPacket) ∧
      TileStreams.destination splitter.ctx firstSlice = .ok firstDestination ∧
      firstPacket.tile = some firstDestination.tile ∧
      AccessUnit.Reads .empty (splitter.tiles.waiting firstDestination.tile) firstSets.1.units
        firstSets.2 ∧
      AccessUnit.Holds firstSets.2 firstSlice firstDestination.sps firstDestination.pps
        firstDestination.target ∧
      ∃ got, AccessUnit.decode .empty firstPacket.data =
          .ok (⟨firstSets.1.units ++ [.slice got]⟩, firstSets.2) ∧
        got.nalHeader = firstSlice.nalHeader ∧
        got.header = firstSlice.header.asWritten firstDestination.sps firstDestination.pps
          firstDestination.target ∧
        got.data = kept firstSlice.data) ∧
    (placer.Reachable ∧ AccessUnit.decode placer.ctx picture = .ok (accessUnit, Sample.ctx) ∧
      accessUnit.slices.head? = some firstSlice ∧
      (placer.filter { data := picture }).1 = .ok (some placedPacket) ∧
      ∃ stream sps pps,
        accessUnit.units.foldlM (Placer.writeUnit placer.placement Sample.ctx) placer.stream =
          .ok stream ∧
        Sample.ctx.paramSets firstSlice.header.ppsId = some (sps, pps) ∧
        ReadsBack placedPacket.data stream.out.bytes firstSlice sps pps placer.placement.target
          (kept firstSlice.data)) := by
  have hphase : splitter.phase =
      .distributing { data := picture } firstSlice (accessUnit.slices.drop 1) := by decide +kernel
  have hreceive : splitter.receive.1 = .ok (some firstPacket) := by decide +kernel
  have hdecode : AccessUnit.decode placer.ctx picture = .ok (accessUnit, Sample.ctx) := by
    decide +kernel
  have hfirst : accessUnit.slices.head? = some firstSlice := by decide +kernel
  have hfilter : (placer.filter { data := picture }).1 = .ok (some placedPacket) := by
    decide +kernel
  have hsplitter : splitter.Reachable := .send .empty { data := picture }
  have hplacer : placer.Reachable :=
    .ofPlacement (p := Placer.samplePlacement) (by decide +kernel)
  have hdestination : TileStreams.destination splitter.ctx firstSlice = .ok firstDestination := by
    decide +kernel
  have hreads : AccessUnit.Reads .empty (splitter.tiles.waiting firstDestination.tile)
      firstSets.1.units firstSets.2 := by
    refine .inr ?_
    decide +kernel
  -- the slice was read with the parameter sets of the picture
  have horder : accessUnit.units.Pairwise Placer.MayPrecede := by decide +kernel
  have hsets : Sample.ctx.paramSets firstSlice.header.ppsId =
      some (firstDestination.sps, firstDestination.pps) := by decide +kernel
  have hlegible : firstSlice.header.Legible firstSlice.nalHeader.unitType
      firstDestination.sps firstDestination.pps :=
    Placer.legible_of_decode hdecode horder hfirst hsets
  have hholds : AccessUnit.Holds firstSets.2 firstSlice firstDestination.sps firstDestination.pps
        firstDestination.target :=
    ⟨by decide +kernel, by decide +kernel, hlegible,
      ⟨by decide, by decide, by decide, by decide⟩, by decide +kernel⟩
  have hboth := readsBack_slices hsplitter hplacer
  obtain ⟨d, hd, htile, hback⟩ := hboth.1 { data := picture } firstPacket firstSlice
    (accessUnit.slices.drop 1) hphase hreceive
  have hd' : d = firstDestination := Except.ok.inj (hd.symm.trans hdestination)
  rw [hd'] at htile hback
  exact ⟨⟨hsplitter, hphase, hreceive, hdestination, htile, hreads, hholds,
      hback .empty firstSets.2 firstSets.1.units hreads hholds⟩, hplacer, hdecode, hfirst, hfilter,
    hboth.2.1 { data := picture } placedPacket accessUnit Sample.ctx firstSlice hdecode hfirst
      hfilter⟩

/-! ## A picture whose slice ends in zero bytes -/

namespace Sample

/-- The parameter sets of the picture with a slice whose data end in two zero bytes, closed by a byte
`03`. -/
def zerosPicture : Bytes :=
  picture.take 75 ++ [0, 0, 0, 1, 38, 1, 175, 47, 175, 18, 128, 0, 0, 3]

/-- The packet of its slice. -/
def zerosPacket : Packet :=
  match (Splitter.empty.send { data := zerosPicture }).2.receive.1 with
  | .ok (some packet) => packet
  | _ => default

/-- The data of the slices that a decoder without any parameter sets reads. -/
def sliceData (bytes : Bytes) : Except UnitError (List Bytes) :=
  (fun r => r.1.slices.map (·.data)) <$> AccessUnit.decode .empty bytes

end Sample

open Sample in
/-- The packet brings all parameter sets along, but the two zero bytes are not in the slice that is
read back. -/
theorem zeros_lost :
    sliceData zerosPicture = .ok [[175, 18, 128, 0, 0]] ∧
      (Splitter.empty.send { data := zerosPicture }).2.receive.1 = .ok (some zerosPacket) ∧
      sliceData zerosPacket.data = .ok [[175, 18, 128]] := by
  decide +kernel

end TiledVideo
