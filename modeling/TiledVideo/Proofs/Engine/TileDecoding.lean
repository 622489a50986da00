import TiledVideo.Proofs.Engine.SplitterRun
import TiledVideo.Proofs.Engine.TileContext

/-!
# Decoding the stream of a tile

Whoever decodes the packets of one tile, and no others, gets the parameter sets of the source sized
for the tile and the slices of the tile, each as a picture of its own.

Results:

* `Rebuilt.sets`, `Rebuilt.slice`: a decoder of the packets of a tile follows what the tile gets.
* `decodes_packets`: the packets of a tile are decoded in any run.
-/

namespace TiledVideo

namespace AccessUnit

/-- Reads access units one after the other. -/
def decodeAll (ctx : Context) : List Bytes → Except UnitError (List AccessUnit × Context)
  | [] => pure ([], ctx)
  | data :: later => do
    let (au, ctx) ← decode ctx data
    let (aus, ctx) ← decodeAll ctx later
    pure (au :: aus, ctx)

theorem decodeAll_concat {ctx c c' : Context} {datas : List Bytes} {data : Bytes}
    {aus : List AccessUnit} {au : AccessUnit} (h : decodeAll ctx datas = .ok (aus, c))
    (hau : decode c data = .ok (au, c')) :
    decodeAll ctx (datas ++ [data]) = .ok (aus ++ [au], c') := by
  induction datas generalizing ctx aus with
  | nil =>
    cases h
    rw [List.nil_append, decodeAll, hau]
    rfl
  | cons first datas ih =>
    obtain ⟨⟨au₁, c₁⟩, hfirst, h⟩ := bind_eq_ok_iff.1 h
    obtain ⟨⟨aus', c₂⟩, hlater, h⟩ := bind_eq_ok_iff.1 h
    cases h
    rw [List.cons_append, decodeAll, hfirst]
    show (decodeAll c₁ (datas ++ [data]) >>= _) = _
    rw [ih hlater]
    rfl

end AccessUnit

namespace Splitter

open TileStreams

/-! ## A decoder of the packets of a tile -/

/-- An access unit is some parameter sets and one slice. -/
def EndsInSlice (au : AccessUnit) : Prop :=
  ∃ sets segment, au.units = sets ++ [.slice segment] ∧ ∀ unit ∈ sets, unit.slice? = none

/-- The packets of a tile are decoded one after the other. They say what `contents` says, up to what
waits in the stream of the tile, and with that the decoder is on the track of the splitter. -/
def Rebuilt (packets : List Bytes) (waiting : Bytes) (c : Context)
    (contents : List UnitContent) : Prop :=
  ∃ aus ctx later nals sets d, AccessUnit.decodeAll .empty packets = .ok (aus, ctx) ∧
    (∀ au ∈ aus, EndsInSlice au) ∧ Decodes (.start ctx) waiting later nals sets d ∧
    Tracks d.ctx c ∧ contents = aus.flatMap (fun au => au.units.map (·.content)) ++ later

variable {packets : List Bytes} {waiting : Bytes} {c c' : Context} {contents : List UnitContent}
  {tile : Nat}

theorem Rebuilt.start : Rebuilt [] [] .empty [] :=
  ⟨[], .empty, _, _, _, _, rfl, by simp, .nothing, Tracks.empty, rfl⟩

/-- Parameter sets wait in the stream. -/
theorem Rebuilt.sets (h : Rebuilt packets waiting c contents) {data : Bytes} {au : AccessUnit}
    (hau : AccessUnit.decode c data = .ok (au, c')) (hrest : LeaveRest au.units) {bytes : Bytes}
    (hbytes : setBytes tile au.units = .ok bytes) :
    ∃ own, setContents tile au.units = .ok own ∧
      Rebuilt packets (waiting ++ bytes) c' (contents ++ own) := by
  obtain ⟨aus, ctx, later, nals, sets, d, hpackets, haus, hwaiting, htracks, rfl⟩ := h
  obtain ⟨hyields, rfl⟩ := AccessUnit.yieldsAll_of_decode hau
  obtain ⟨own, nals', sets', d', hown, hdecodes, htracks⟩ :=
    setBytes_decoded hyields hrest hbytes htracks
  exact ⟨own, hown, aus, ctx, later ++ own, _, _, _, hpackets, haus, hwaiting.append hdecodes,
    htracks, List.append_assoc _ _ _⟩

/-- A slice takes all that waits with it. -/
theorem Rebuilt.slice (h : Rebuilt packets waiting c contents) {segment : SliceUnit}
    (hready : Ready c segment) {dest : Destination} (hdest : destination c segment = .ok dest)
    {own : Bytes} (hown : ownSlice segment dest = .ok own) :
    Rebuilt (packets ++ [waiting ++ own]) [] c (contents ++ [sliceContent segment]) := by
  obtain ⟨aus, ctx, later, nals, sets, d, hpackets, haus, hwaiting, htracks, rfl⟩ := h
  obtain ⟨nal, got, rfl, hsolid, hgot, hcontent⟩ := ownSlice_decoded hready hdest hown htracks
  refine ⟨aus ++ [⟨sets ++ [.slice got]⟩], d.ctx, [], _, _, _,
    AccessUnit.decodeAll_concat hpackets (AccessUnit.decode_slice hwaiting hsolid hgot),
    fun au hmem => ?_, .nothing, htracks, ?_⟩
  · obtain hmem | hmem := List.mem_append.1 hmem
    · exact haus au hmem
    · rw [List.mem_singleton.1 hmem]
      exact ⟨sets, got, rfl, hwaiting.noSlice⟩
  · simp [hwaiting.contents, hcontent]

/-! ## Runs -/

namespace Run

/-- The packets of each tile are decoded as what there is for the tile. -/
structure Decodable (r : Run) : Prop where
  invariant : r.Invariant
  ready : ∀ p ∈ parsed r.sent, ∀ segment ∈ p.1.slices, Ready p.2 segment
  tiles : ∀ tile, r.splitter.tiles.Serves tile → ∃ contents,
    shares (setContents tile) (sliceContents tile) r.sent = .ok contents ∧
      Rebuilt ((packetsFor r.sent tile).map (·.data)) (r.splitter.tiles.waiting tile)
        r.splitter.ctx contents

theorem decodable_start : Decodable ⟨empty, []⟩ :=
  ⟨invariant_start (.inl rfl), by simp [parsed], fun _ _ => ⟨[], rfl, .start⟩⟩

theorem Decodable.step {r r' : Run} (hr : r.Decodable) (h : Step r r')
    (horder : ∀ p ∈ parsed r'.sent, Orderly p.1 p.2) : r'.Decodable := by
  have hinvariant := hr.invariant.step h
  have hwhole := hr.invariant.whole
  cases effect_of_step hr.invariant.follows h with
  | quiet ctx tiles parsed_eq given adds =>
    refine ⟨hinvariant, by rw [parsed_eq]; exact hr.ready, fun tile htile => ?_⟩
    rw [tiles] at htile
    obtain ⟨contents, hcontents, hrebuilt⟩ := hr.tiles tile htile
    rw [given, tiles, ctx]
    exact ⟨contents, adds hcontents, hrebuilt⟩
  | @sets packet au decode distribute parsed_eq given adds =>
    have horderly : Orderly au r'.splitter.ctx :=
      horder (au, _) (by rw [parsed_eq]; exact List.mem_cons_self)
    refine ⟨hinvariant, ?_, fun tile htile => ?_⟩
    · rw [parsed_eq]
      exact List.forall_mem_cons.2 ⟨fun _ => ready_of_decode decode horderly, hr.ready⟩
    · have hadds := distributeAll_spec hwhole distribute
      obtain ⟨contents, hcontents, hrebuilt⟩ := hr.tiles tile (hadds.serves tile htile)
      obtain ⟨bytes, hbytes, hwaiting⟩ := hadds.waiting tile htile
      obtain ⟨own, hown, hrebuilt⟩ := hrebuilt.sets decode horderly.sizes hbytes
      rw [given, hwaiting]
      exact ⟨contents ++ own, adds hcontents hown, hrebuilt⟩
  | @slice input au next tile data ctx write parsed_eq last next_mem given adds =>
    have hgives := writeSlice_spec hwhole write
    have hready := hr.ready _ last next next_mem
    obtain ⟨d, own, hd, htile, hown, hdata⟩ := hgives.data
    refine ⟨hinvariant, by rw [parsed_eq]; exact hr.ready, fun other hother => ?_⟩
    obtain ⟨contents, hcontents, hrebuilt⟩ := hr.tiles other (hgives.serves other hother)
    rw [given, ctx]
    by_cases hsame : tile = other
    · subst hsame
      rw [if_pos rfl, hgives.emptied]
      refine ⟨_, adds hcontents (bind_eq_ok_iff.2 ⟨d, hd, if_pos htile⟩), ?_⟩
      have hslice := hrebuilt.slice hready hd hown
      rw [← hdata] at hslice
      simpa [Packet.derive] using hslice
    · rw [if_neg hsame, List.append_nil, hgives.others other (Ne.symm hsame)]
      refine ⟨_, adds hcontents (bind_eq_ok_iff.2 ⟨d, hd, if_neg (by rwa [htile])⟩), ?_⟩
      rwa [List.append_nil]

theorem parsed_subset_of_step {r r' : Run} (h : Step r r') : parsed r.sent ⊆ parsed r'.sent := by
  cases h with
  | unread idle => exact fun p hp => by simpa [parsed] using hp
  | read idle decode distribute => exact fun p hp => by simp [parsed] at hp ⊢; exact .inr hp
  | nothing => exact fun p hp => hp
  | back phase => rw [parsed_received]; exact fun p hp => hp
  | slice phase write => rw [parsed_received]; exact fun p hp => hp

/-- In any run of a new splitter whose access units are in order, the packets of a tile are decoded
one after the other without any others. Each is some parameter sets and one slice, and together
they say what there is for the tile, up to parameter sets that still wait. -/
theorem decodes_packets {cs : List Call} {r : Run} (h : calls empty cs = .ok r)
    (horder : ∀ p ∈ parsed r.sent, Orderly p.1 p.2) {tile : Nat}
    (htile : tile < r.splitter.tileCount) :
    ∃ aus ctx later,
      AccessUnit.decodeAll .empty ((packetsFor r.sent tile).map (·.data)) = .ok (aus, ctx) ∧
      (∀ au ∈ aus, EndsInSlice au) ∧ (∀ unit ∈ later, unit.slice? = none) ∧
      shares (setContents tile) (sliceContents tile) r.sent =
        .ok ((aus.flatMap (·.units) ++ later).map (·.content)) := by
  have hr : (∀ p ∈ parsed r.sent, Orderly p.1 p.2) → r.Decodable :=
    calls_induction (P := fun r => (∀ p ∈ parsed r.sent, Orderly p.1 p.2) → r.Decodable)
      (fun _ => decodable_start)
      (fun _ _ hr hstep horder =>
        (hr fun p hp => horder p (parsed_subset_of_step hstep hp)).step hstep horder) h
  obtain ⟨contents, hcontents, aus, ctx, _, nals, sets, d, hpackets, haus, hwaiting, -, rfl⟩ :=
    (hr horder).tiles tile fun _ => htile
  refine ⟨aus, ctx, sets, hpackets, haus, hwaiting.noSlice, ?_⟩
  rw [hcontents, ← hwaiting.contents, List.map_append, List.map_flatMap]

theorem decodes_packets_sample : calls empty sampleCalls = .ok sampleRun ∧
    (∀ p ∈ parsed sampleRun.sent, Orderly p.1 p.2) ∧ 1 < sampleRun.splitter.tileCount ∧
    ∃ aus ctx later,
      AccessUnit.decodeAll .empty ((packetsFor sampleRun.sent 1).map (·.data)) = .ok (aus, ctx) ∧
      (∀ au ∈ aus, EndsInSlice au) ∧ (∀ unit ∈ later, unit.slice? = none) ∧
      shares (setContents 1) (sliceContents 1) sampleRun.sent =
        .ok ((aus.flatMap (·.units) ++ later).map (·.content)) := by
  have hrun : calls empty sampleCalls = .ok sampleRun := by decide +kernel
  have horder : ∀ p ∈ parsed sampleRun.sent, Orderly p.1 p.2 := by decide +kernel
  have htile : 1 < sampleRun.splitter.tileCount := by decide +kernel
  exact ⟨hrun, horder, htile, decodes_packets hrun horder htile⟩

end Run

end Splitter

end TiledVideo
