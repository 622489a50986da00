import TiledVideo.Proofs.Engine.Assembling

/-!
# Pictures that are lost

A packet that is checked and refused leaves the packets that have come. They are put together with the
last packet of a picture, and only then are the data of the tiles read. If those of a tile are no byte
stream, all packets of the picture are lost, even if the last one alone is at fault.

Results:

* `assemble_eq_error_iff`: the one reason why a picture cannot be put together.
* `push_eq_error_iff`: a packet fails because it is refused or because it completes such a picture.
* `kept_of_push_eq_error`: what is left after a packet that fails, and what completes the picture then.
-/

namespace TiledVideo.Assembler

open ByteStream

/-! ## Pictures that cannot be put together -/

/-- The slices of a tile are not found exactly if its data are no byte stream. -/
theorem slicesOf_eq_error_iff {packet : Packet} {e : EngineError} :
    slicesOf packet = .error e ↔ e = .notByteStream ∧ hasStartCode packet.data = false := by
  unfold slicesOf units
  cases hasStartCode packet.data with
  | true => exact ⟨nofun, nofun⟩
  | false =>
    constructor
    · rintro ⟨⟩
      exact ⟨rfl, rfl⟩
    · rintro ⟨rfl, -⟩
      rfl

/-- A picture cannot be put together exactly if the data of a tile other than the first are no byte
stream. -/
theorem assemble_eq_error_iff {first : Packet} {others : List Packet} {e : EngineError} :
    assemble (first :: others) = .error e ↔
      e = .notByteStream ∧ ∃ other ∈ others, hasStartCode other.data = false := by
  rw [assemble, bind_eq_error_iff]
  constructor
  · rintro (h | ⟨_, -, h⟩)
    · obtain ⟨other, hother, h⟩ := exists_of_mapM_eq_error h
      obtain ⟨rfl, hdata⟩ := slicesOf_eq_error_iff.1 h
      exact ⟨rfl, other, hother, hdata⟩
    · cases h
  · rintro ⟨rfl, other, hother, hdata⟩
    cases hall : others.mapM slicesOf with
    | error e =>
      obtain ⟨_, -, h⟩ := exists_of_mapM_eq_error hall
      exact .inl (congrArg _ (slicesOf_eq_error_iff.1 h).1)
    | ok slices =>
      obtain ⟨i, hi, rfl⟩ := List.getElem_of_mem hother
      have heach := mapM_eq_ok_iff.1 hall
      have hok := heach.get hi (heach.length_eq ▸ hi)
      rw [List.get_eq_getElem, slicesOf_eq_error_iff.2 ⟨rfl, hdata⟩] at hok
      cases hok

/-- The packet completes a picture, but the data of a tile other than the first are no byte stream. -/
def Loses (s : Assembler) (packet : Packet) : Prop :=
  ∃ (tile : Nat) (first : Packet) (others : List Packet), s.check packet = .ok tile ∧
    s.tiles.set tile (some packet) = (first :: others).map some ∧
    ∃ other ∈ others, hasStartCode other.data = false

section Failing

variable {s : Assembler} {packet : Packet} {e : EngineError}

theorem exists_map_some {entries : List (Option Packet)} (h : entries.all Option.isSome = true) :
    ∃ packets : List Packet, entries = packets.map some := by
  refine ⟨entries.map (·.getD default), ?_⟩
  rw [List.map_map]
  refine (List.map_id _).symm.trans (List.map_congr_left fun entry hentry => ?_)
  obtain ⟨packet, rfl⟩ := Option.isSome_iff_exists.1 (List.all_eq_true.1 h entry hentry)
  rfl

theorem getElem?_of_check {tile : Nat} (h : s.check packet = .ok tile) :
    s.tiles[tile]? = some none := by
  unfold check at h
  split at h
  · cases h
  · split at h <;> try cases h
    split at h <;> cases h
    assumption

/-- A packet fails because it is refused, or because it completes a picture that cannot be put
together. -/
theorem push_eq_error_iff : (s.push packet).1 = .error e ↔
    s.check packet = .error e ∨ e = .notByteStream ∧ s.Loses packet := by
  unfold Loses
  cases hcheck : s.check packet with
  | error e' => simp [push_refused hcheck]
  | ok tile =>
    obtain ⟨htile, -⟩ := List.getElem?_eq_some_iff.1 (getElem?_of_check hcheck)
    simp only [push, hcheck, Except.ok.injEq, reduceCtorEq, false_or]
    split
    · next hall =>
      obtain ⟨tiles, htiles⟩ := exists_map_some hall
      have hne : tiles ≠ [] := by
        rintro rfl
        have hlen := congrArg List.length htiles
        simp only [List.map_nil, List.length_nil, List.length_set] at hlen
        omega
      obtain ⟨first, others, rfl⟩ := List.exists_cons_of_ne_nil hne
      rw [htiles, List.filterMap_map, Function.id_comp, List.filterMap_some, map_eq_error_iff,
        repack_ample, map_eq_error_iff, assemble_eq_error_iff]
      refine and_congr_right fun _ => ⟨fun h => ⟨tile, first, others, rfl, htiles, h⟩, ?_⟩
      rintro ⟨_, first', others', rfl, htiles', h⟩
      rw [htiles, List.map_inj_right fun _ _ => Option.some.inj] at htiles'
      obtain ⟨rfl, rfl⟩ := List.cons.inj htiles'
      exact h
    · next hmissing =>
      constructor
      · intro h
        cases h
      · rintro ⟨-, _, first, others, rfl, htiles, -⟩
        simp [htiles] at hmissing

/-! ## What is left -/

theorem ne_notByteStream_of_check (h : s.check packet = .error e) : e ≠ .notByteStream := by
  unfold check at h
  split at h
  · cases h
    decide
  · split at h
    · cases h
      decide
    · cases h
      decide
    · split at h <;> cases h
      decide

theorem tile_of_push_eq_ok {out : Option Packet} (h : (s.push packet).1 = .ok out) :
    ∃ tile, s.check packet = .ok tile := by
  cases hcheck : s.check packet with
  | error e =>
    rw [push_refused hcheck] at h
    cases h
  | ok tile => exact ⟨tile, rfl⟩

/-- A packet that is kept completes no picture of several tiles of which no packet has come. -/
theorem push_empty {n tile : Nat} (hn : 1 < n) (htag : packet.tile = some tile) (htile : tile < n) :
    ((empty n).push packet).1 = .ok none := by
  have hnone : OfPicture n [] := ⟨nofun, List.nodup_nil, nofun⟩
  have hcheck : (holding n []).check packet = .ok tile :=
    check_holding_iff.2 ⟨htag, htile, nofun, nofun⟩
  rw [← holding_nil, push_holding hnone hcheck, if_neg (by rw [List.length_nil]; omega)]

/-- A packet that is refused leaves those that have come, so the picture can still be completed. If a
packet completes a picture that cannot be put together, none is left, and a packet that would have
completed the picture in its place does not. -/
theorem kept_of_push_eq_error (hs : s.Reachable) (h : (s.push packet).1 = .error e) :
    (e ≠ .notByteStream → s.check packet = .error e ∧ (s.push packet).2 = s) ∧
    (e = .notByteStream →
      s.Loses packet ∧ (s.push packet).2 = empty s.tileCount ∧ (s.push packet).2 ≠ s ∧
        ∀ other out, (s.push other).1 = .ok (some out) →
          ((s.push packet).2.push other).1 = .ok none) := by
  obtain hcheck | ⟨rfl, hloses⟩ := push_eq_error_iff.1 h
  · exact ⟨fun _ => ⟨hcheck, by rw [push_refused hcheck]⟩,
      fun he => absurd he (ne_notByteStream_of_check hcheck)⟩
  · refine ⟨fun he => absurd rfl he, fun _ => ⟨hloses, ?_⟩⟩
    obtain ⟨n, come, rfl, hcome, hlt⟩ := hs.exists_holding
    obtain ⟨tile, first, others, hcheck, htiles, other, hother, -⟩ := hloses
    -- the picture has the first tile and at least one other
    have hn : 1 < n := by
      have hlen := congrArg List.length htiles
      have hpos := List.length_pos_of_mem hother
      simp only [List.length_set, List.length_map, List.length_cons] at hlen
      have hcount : (holding n come).tiles.length = n := tileCount_holding
      omega
    obtain ⟨htag, htile, hnew, -⟩ := check_holding_iff.1 hcheck
    rw [set_holding htag hnew] at htiles
    have hlast : (come ++ [packet]).length = n :=
      (hcome.concat hcheck).all_iff.1 (by simp [htiles])
    rw [List.length_append, List.length_singleton] at hlast
    rw [push_holding hcome hcheck, if_pos hlast, tileCount_holding]
    refine ⟨rfl, fun hsame => ?_, fun later out hlater => ?_⟩
    · have hfirst := congrArg Assembler.first hsame
      cases come with
      | nil =>
        rw [List.length_nil] at hlast
        omega
      | cons => cases hfirst
    · obtain ⟨tile', hcheck'⟩ := tile_of_push_eq_ok hlater
      obtain ⟨htag', htile', -⟩ := check_holding_iff.1 hcheck'
      exact push_empty hn htag' htile'

end Failing

/-- The packet of the second tile, with data that are no byte stream. -/
def sampleBroken : Packet :=
  { samplePacket 1 with data := [255] }

theorem kept_of_push_eq_error_sample :
    (((empty 2).push (samplePacket 0)).2.push sampleBroken).1 = .error .notByteStream ∧
    ((empty 2).push (samplePacket 0)).2.Loses sampleBroken ∧
    (((empty 2).push (samplePacket 0)).2.push sampleBroken).2 = empty 2 ∧
    (((empty 2).push (samplePacket 0)).2.push sampleBroken).2 ≠
      ((empty 2).push (samplePacket 0)).2 ∧
    ∀ other out, (((empty 2).push (samplePacket 0)).2.push other).1 = .ok (some out) →
      ((((empty 2).push (samplePacket 0)).2.push sampleBroken).2.push other).1 = .ok none := by
  have herror : (((empty 2).push (samplePacket 0)).2.push sampleBroken).1 =
      .error .notByteStream := by decide
  have hs : ((empty 2).push (samplePacket 0)).2.Reachable :=
    .push (.ofTileCount (n := 2) rfl) (samplePacket 0)
  exact ⟨herror, (kept_of_push_eq_error hs herror).2 rfl⟩

/-- A packet fails and takes with it the one that came before. Then the right packet for its tile does
not complete the picture, as it would have without the one that failed. -/
theorem come_before_lost :
    ((empty 2).push (samplePacket 0)).2.Reachable ∧
    (((empty 2).push (samplePacket 0)).2.push sampleBroken).1 = .error .notByteStream ∧
    (((empty 2).push (samplePacket 0)).2.push sampleBroken).2 ≠
      ((empty 2).push (samplePacket 0)).2 ∧
    (((empty 2).push (samplePacket 0)).2.push (samplePacket 1)).1 =
      .ok (some ((samplePacket 0).derive [0, 0, 1, 2, 1, 4, 0, 0, 1, 2, 1, 5])) ∧
    ((((empty 2).push (samplePacket 0)).2.push sampleBroken).2.push (samplePacket 1)).1 =
      .ok none :=
  ⟨.push (.ofTileCount (n := 2) rfl) _, by decide, by decide, by decide, by decide⟩

end TiledVideo.Assembler
