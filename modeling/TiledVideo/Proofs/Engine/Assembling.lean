import TiledVideo.Proofs.Engine.Collecting
import TiledVideo.Proofs.Nal.DecodedSets
import TiledVideo.Proofs.Nal.Seams

/-!
# Pictures from tiles

A picture is the packet of its first tile and behind it the slices of the others, in the order of
their tiles. Each slice is cut out with its start code and without what surrounds it in its packet, so
none is lost where two packets meet and none comes out twice.

Results:

* `units_picture`: the units of a picture are those of its first tile and the slices of the others.
* `assemble_tiles`: the picture of tiles that have one slice each.
-/

namespace TiledVideo.Assembler

open ByteStream

/-! ## Slices -/

/-- The unit has a header, with one of the types that are for slices. -/
def HasSliceType (nal : Bytes) : Prop :=
  ∃ header, NalHeader.ofBytes nal = .ok header ∧ header.unitType.id.val ≤ 31

theorem isVcl_iff {nal : Bytes} : isVcl nal = true ↔ HasSliceType nal := by
  unfold isVcl HasSliceType
  cases NalHeader.ofBytes nal with
  | error e => exact ⟨nofun, nofun⟩
  | ok header => simp [UnitType.isVcl, Nat.lt_succ_iff]

instance : DecidablePred HasSliceType := fun _ => decidable_of_iff _ isVcl_iff

theorem slicesOf_eq_ok_iff {packet : Packet} {slices : Bytes} : slicesOf packet = .ok slices ↔
    ∃ us, units packet.data = .ok us ∧
      (us.filter fun u => HasSliceType u.nal).flatMap (·.framed) = slices := by
  rw [slicesOf, bind_eq_ok_iff]
  simp only [mapError_eq_ok_iff, pure, Except.pure, Except.ok.injEq, ← isVcl_iff,
    Bool.decide_eq_true]

/-- The slices of tiles behind the units of a byte stream are found there, each of them once. -/
theorem nals_append_slices (front : Bytes) {tiles : List Packet} {slices : List Bytes}
    (h : tiles.mapM slicesOf = .ok slices) :
    ∃ theirs : List (List FramedUnit),
      List.Forall₂ (fun tile us => units tile.data = .ok us) tiles theirs ∧
      nals (front ++ slices.flatten) =
        nals front ++ theirs.flatMap fun us => (us.map (·.nal)).filter HasSliceType := by
  rw [mapM_eq_ok_iff] at h
  induction h generalizing front with
  | nil => exact ⟨[], .nil, by simp⟩
  | @cons tile own tiles slices hown _ ih =>
    obtain ⟨us, hus, rfl⟩ := slicesOf_eq_ok_iff.1 hown
    have hfound : ∀ u ∈ us.filter fun u => HasSliceType u.nal,
        Solid u.nal ∧ ∃ n, u = behindZeros (n, u.nal) :=
      fun u hu => mem_units hus (List.mem_of_mem_filter hu)
    obtain ⟨theirs, htheirs, hnals⟩ :=
      ih (front ++ (us.filter fun u => HasSliceType u.nal).flatMap (·.framed))
    refine ⟨us :: theirs, .cons hus htheirs, ?_⟩
    rw [List.flatten_cons, ← List.append_assoc, hnals, nals_append_framed front hfound,
      List.flatMap_cons, List.filter_map, List.append_assoc]
    rfl

/-! ## The picture -/

/-- When a picture comes out and the data of its first tile is a byte stream, then so is that of the
picture and of all tiles. Its units are those of the first tile and behind them, tile for tile, the
slices of the others. -/
theorem units_picture {s : Assembler} (hs : s.Reachable) {packet out : Packet}
    (h : (s.push packet).1 = .ok (some out)) :
    ∃ (tile : Nat) (first : Packet) (others : List Packet),
      s.check packet = .ok tile ∧
      s.tiles.set tile (some packet) = (first :: others).map some ∧
      (first :: others).map (·.tile) = (List.range s.tileCount).map some ∧
      ∀ own, units first.data = .ok own →
        ∃ (theirs : List (List FramedUnit)) (all : List FramedUnit),
          List.Forall₂ (fun other us => units other.data = .ok us) others theirs ∧
          units out.data = .ok all ∧
          all.map (·.nal) = own.map (·.nal) ++
            theirs.flatMap fun us => (us.map (·.nal)).filter HasSliceType := by
  obtain ⟨n, come, rfl, hcome, hlt⟩ := hs.exists_holding
  cases hcheck : (holding n come).check packet with
  | error e =>
    rw [push_refused hcheck] at h
    cases h
  | ok tile =>
    obtain ⟨htag, -, hnew, -⟩ := check_holding_iff.1 hcheck
    rw [push_holding hcome hcheck] at h
    split at h
    · next hlast =>
      obtain ⟨tiles, htiles, htags⟩ :=
        (hcome.concat hcheck).exists_tiles (by rwa [List.length_append])
      obtain ⟨data, hdata, hout⟩ := map_eq_ok_iff.1 h
      rw [htiles, List.filterMap_map, Function.id_comp, List.filterMap_some] at hdata
      have hne : tiles ≠ [] := by
        rintro rfl
        have hlen := congrArg List.length htags
        rw [List.length_map, List.length_map, List.length_range, List.length_nil] at hlen
        omega
      obtain ⟨first, others, rfl⟩ := List.exists_cons_of_ne_nil hne
      refine ⟨tile, first, others, rfl, by rw [set_holding htag hnew, htiles],
        by rw [tileCount_holding, htags], fun own hown => ?_⟩
      obtain ⟨slices, hslices, hdata⟩ := bind_eq_ok_iff.1 hdata
      cases hdata
      obtain rfl := Option.some.inj hout
      obtain ⟨theirs, htheirs, hnals⟩ := nals_append_slices first.data hslices
      obtain ⟨hstart, rfl⟩ := units_eq_ok_iff.1 hown
      exact ⟨theirs, _, htheirs, units_eq_ok_iff.2 ⟨hasStartCode_append hstart _, rfl⟩, hnals⟩
    · cases h

/-- Data of the first tile: a parameter set and a slice, with an empty unit and zero bytes between them
and zero bytes at the end. -/
def sampleFirst : Packet :=
  { samplePacket 0 with data := [0, 0, 0, 1, 66, 1, 7, 0, 0, 0, 0, 1, 0, 0, 1, 2, 1, 4, 0, 0] }

/-- Data of the second tile: a parameter set and a slice, with zero bytes in front. -/
def sampleSecond : Packet :=
  { samplePacket 1 with data := [0, 0, 0, 0, 1, 68, 1, 9, 0, 0, 0, 1, 2, 1, 5, 0] }

theorem units_picture_sample :
    (((empty 2).push sampleSecond).2.push sampleFirst).1 = .ok (some (sampleFirst.derive
      (sampleFirst.data ++ [0, 0, 0, 1, 2, 1, 5]))) ∧
    ∃ (tile : Nat) (first : Packet) (others : List Packet),
      ((empty 2).push sampleSecond).2.check sampleFirst = .ok tile ∧
      ((empty 2).push sampleSecond).2.tiles.set tile (some sampleFirst) =
        (first :: others).map some ∧
      (first :: others).map (·.tile) = (List.range 2).map some ∧
      ∀ own, units first.data = .ok own →
        ∃ (theirs : List (List FramedUnit)) (all : List FramedUnit),
          List.Forall₂ (fun other us => units other.data = .ok us) others theirs ∧
          units (sampleFirst.data ++ [0, 0, 0, 1, 2, 1, 5]) = .ok all ∧
          all.map (·.nal) = own.map (·.nal) ++
            theirs.flatMap fun us => (us.map (·.nal)).filter HasSliceType := by
  have hout : (((empty 2).push sampleSecond).2.push sampleFirst).1 = .ok (some (sampleFirst.derive
      (sampleFirst.data ++ [0, 0, 0, 1, 2, 1, 5]))) := by decide
  exact ⟨hout, units_picture (.push (.ofTileCount (n := 2) rfl) sampleSecond) hout⟩

theorem isVcl_of_decodeNal {s : DecoderState} {nal : Bytes} {unit : DecodedUnit}
    (h : s.decodeNal nal = .ok unit) :
    (unit.IsSet → isVcl nal = false) ∧ (unit.slice?.isSome = true → isVcl nal = true) := by
  obtain ⟨header, hheader, hunit⟩ := DecoderState.decodeNal_eq_ok_iff.1 h
  have hvcl : isVcl nal = header.unitType.isVcl := by rw [isVcl, hheader]
  rw [hvcl]
  obtain ⟨-, hbase⟩ | ⟨-, rfl⟩ := hunit
  · cases hbase with
    | vps htype hpayload hset => exact ⟨fun _ => by rw [htype]; rfl, nofun⟩
    | sps htype hpayload hset => exact ⟨fun _ => by rw [htype]; rfl, nofun⟩
    | pps htype hpayload hset => exact ⟨fun _ => by rw [htype]; rfl, nofun⟩
    | slice htype hpayload hsegment => exact ⟨nofun, fun _ => (Bool.and_eq_true_iff.1 htype).1⟩
    | other htype => exact ⟨nofun, nofun⟩
  · exact ⟨nofun, nofun⟩

theorem isVcl_of_decodeNals {d e : DecoderState} {nals : List Bytes} {sets : List DecodedUnit}
    (h : d.decodeNals nals = .ok (sets, e)) (hsets : ∀ unit ∈ sets, unit.IsSet) :
    ∀ nal ∈ nals, isVcl nal = false := by
  induction nals generalizing d sets with
  | nil => simp
  | cons first later ih =>
    obtain ⟨unit, hunit, h⟩ := bind_eq_ok_iff.1 h
    obtain ⟨⟨units, last⟩, hlater, h⟩ := bind_eq_ok_iff.1 h
    cases h
    intro nal hnal
    obtain rfl | hnal := List.mem_cons.1 hnal
    · exact (isVcl_of_decodeNal hunit).1 (hsets unit List.mem_cons_self)
    · exact ih hlater (fun u hu => hsets u (List.mem_cons_of_mem _ hu)) nal hnal

/-- The packet of a tile is some units that are not slices, and a slice. -/
structure IsTile (packet : Packet) (sets : List Bytes) (slice : Bytes) : Prop where
  data : packet.data = framedAll (sets ++ [slice])
  solid : ∀ nal ∈ sets ++ [slice], Solid nal
  sets : ∀ nal ∈ sets, isVcl nal = false
  slice : isVcl slice = true

theorem slicesOf_tile {packet : Packet} {sets : List Bytes} {slice : Bytes}
    (h : IsTile packet sets slice) : slicesOf packet = .ok (framedAll [slice]) := by
  have hunits := units_framedAll (by simp) h.solid
  rw [← h.data] at hunits
  refine bind_eq_ok_iff.2 ⟨_, mapError_eq_ok_iff.2 hunits, congrArg Except.ok ?_⟩
  have hsets : (sets.map fun nal => (⟨0 :: startCode ++ nal, nal⟩ : FramedUnit)).filter
      (isVcl ·.nal) = [] := by
    rw [List.filter_eq_nil_iff]
    rintro _ hunit
    obtain ⟨nal, hnal, rfl⟩ := List.mem_map.1 hunit
    simp [h.sets nal hnal]
  rw [List.map_append, List.filter_append, hsets, List.map_singleton]
  simp [h.slice, framedAll]

/-- The picture is the packet of the first tile and behind it the slices of the others. -/
theorem assemble_tiles {f : Nat → Packet} {n : Nat} {sets : Nat → List Bytes} {slices : Nat → Bytes}
    (hn : 0 < n) (h : ∀ tile < n, IsTile (f tile) (sets tile) (slices tile)) :
    assemble ((List.range n).map f) = .ok (framedAll (sets 0 ++ (List.range n).map slices)) := by
  obtain ⟨m, rfl⟩ : ∃ m, n = m + 1 := ⟨n - 1, by omega⟩
  have hslices : (((List.range m).map Nat.succ).map f).mapM slicesOf =
      .ok (((List.range m).map Nat.succ).map fun tile => framedAll [slices tile]) := by
    refine mapM_eq_ok_iff.2 ?_
    rw [List.forall₂_map_left_iff, List.forall₂_map_right_iff, List.forall₂_same]
    intro tile htile
    obtain ⟨i, hi, rfl⟩ := List.mem_map.1 htile
    have hi := List.mem_range.1 hi
    exact slicesOf_tile (h (i + 1) (by omega))
  rw [List.range_succ_eq_map, List.map_cons, List.map_cons, assemble, hslices, (h 0 hn).data]
  refine congrArg Except.ok ?_
  simp [framedAll, List.flatMap_append, ← List.flatMap_def, List.flatMap_map, Function.comp_def]

end TiledVideo.Assembler
