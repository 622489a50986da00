import Mathlib.Data.List.Nodup
import Mathlib.Data.List.Perm.Subperm
import TiledVideo.Engine.Assembler
import TiledVideo.Proofs.Success

/-!
# Collecting the tiles of a picture

An assembler holds the packets that have come for a picture: of different tiles, and with the same
timing and flags. All others are refused and change nothing. So what comes out with the last packet
depends on the packets alone, not on their order or on what came between them.

Results:

* `push_holding`: what a packet does to those that have come before.
* `pushAll_stored`: refused packets leave no trace.
* `pushAll_holding`: nothing comes out before the last packet of a picture, and nothing is left then.
* `results_any_order`: the same packets give the same results in any order.
-/

namespace TiledVideo.Assembler

/-- Pushes packets one after the other and gives all results. -/
def pushAll (s : Assembler) : List Packet →
    List (Except EngineError (Option Packet)) × Assembler
  | [] => ([], s)
  | packet :: later =>
    let (result, s) := s.push packet
    let (results, s) := pushAll s later
    (result :: results, s)

/-- The packets that are kept of those pushed one after the other, each with what its push gives. The
others are refused. -/
def stored (s : Assembler) : List Packet → List (Packet × Except EngineError (Option Packet))
  | [] => []
  | packet :: later =>
    let (result, s') := s.push packet
    match s.check packet with
    | .error _ => s'.stored later
    | .ok _ => (packet, result) :: s'.stored later

theorem pushAll_cons (s : Assembler) (packet : Packet) (later : List Packet) :
    s.pushAll (packet :: later) = ((s.push packet).1 :: ((s.push packet).2.pushAll later).1,
      ((s.push packet).2.pushAll later).2) :=
  rfl

/-! ## Refused packets -/

section Refused

variable {s : Assembler} {packet : Packet} {later : List Packet}

theorem push_refused {e : EngineError} (h : s.check packet = .error e) :
    s.push packet = (.error e, s) := by
  simp only [push, h]

/-- What there is room for matters only to a packet that completes a picture. If there is no room for the
picture, it fails, and nothing is left of the picture. -/
theorem push_eq_or_no_room (s : Assembler) (packet : Packet) (memory : Memory) :
    s.push packet memory = s.push packet ∨
      s.push packet memory = (.error .outOfMemory, empty s.tileCount) := by
  unfold push
  split
  · exact .inl rfl
  · dsimp only
    split
    · rw [repack, repack]
      cases halloc : memory.alloc _ with
      | ok _ => exact .inl rfl
      | error e =>
        obtain ⟨-, rfl⟩ := Memory.alloc_eq_error_iff.1 halloc
        exact .inr rfl
    · exact .inl rfl

theorem stored_refused {e : EngineError} (h : s.check packet = .error e) :
    s.stored (packet :: later) = s.stored later := by
  simp only [stored, h, push_refused h]

theorem stored_kept {tile : Nat} (h : s.check packet = .ok tile) :
    s.stored (packet :: later) =
      (packet, (s.push packet).1) :: (s.push packet).2.stored later := by
  simp only [stored, h]

/-- Refused packets leave no trace: those that are kept give the same results without them. -/
theorem pushAll_stored (s : Assembler) (packets : List Packet) :
    s.pushAll ((s.stored packets).map Prod.fst) =
      ((s.stored packets).map Prod.snd, (s.pushAll packets).2) := by
  induction packets generalizing s with
  | nil => rfl
  | cons packet later ih =>
    cases h : s.check packet with
    | error e =>
      rw [stored_refused h, ih, pushAll_cons, push_refused h]
    | ok tile =>
      rw [stored_kept h, List.map_cons, List.map_cons, pushAll_cons, pushAll_cons, ih]

end Refused

/-! ## Packets that have come -/

/-- An assembler for `n` tiles to which some packets have come. -/
def holding (n : Nat) (come : List Packet) : Assembler where
  tiles := (List.range n).map fun tile => come.find? (·.tile == some tile)
  first := come.head?.map (·.derive [])

/-- Packets for the same picture of `n` tiles, no two of them for the same tile. -/
structure OfPicture (n : Nat) (come : List Packet) : Prop where
  tagged : ∀ p ∈ come, ∃ tile < n, p.tile = some tile
  nodup : (come.map (·.tile)).Nodup
  timing : ∀ p ∈ come, ∀ q ∈ come, p.derive [] = q.derive []

/-- What comes out when the packets of all tiles have come. -/
def picture (n : Nat) (come : List Packet) : Except EngineError (Option Packet) :=
  (some ∘ (come.headD default).derive) <$> assemble ((holding n come).tiles.filterMap id)

section Holding

variable {n : Nat} {come later : List Packet} {p : Packet} {tile : Nat}

theorem holding_nil : holding n [] = empty n := by
  simp [holding, empty, List.map_const']

theorem tileCount_holding : (holding n come).tileCount = n := by
  simp [tileCount, holding]

theorem sameTiming_iff {p q : Packet} : p.sameTiming q = true ↔ p.derive [] = q.derive [] := by
  simp [Packet.sameTiming, Packet.derive, and_assoc]

theorem getElem?_holding (htile : tile < n) :
    (holding n come).tiles[tile]? = some (come.find? (·.tile == some tile)) := by
  simp only [holding, List.getElem?_map, List.getElem?_range htile, Option.map_some]

theorem find?_eq_none_iff :
    come.find? (·.tile == some tile) = none ↔ ∀ q ∈ come, q.tile ≠ some tile := by
  simp

/-- A packet is kept if it is for a tile that is missing and has the timing of the first one. -/
theorem check_holding_iff : (holding n come).check p = .ok tile ↔
    p.tile = some tile ∧ tile < n ∧ (∀ q ∈ come, q.tile ≠ some tile) ∧
      ∀ q ∈ come.head?, p.derive [] = q.derive [] := by
  have htiming : (holding n come).first.all (p.sameTiming ·) = true ↔
      ∀ q ∈ come.head?, p.derive [] = q.derive [] := by
    cases come with
    | nil => simp [holding]
    | cons q come => simp [holding, sameTiming_iff, Packet.derive]
  rw [← htiming, ← find?_eq_none_iff]
  unfold check
  cases htag : p.tile with
  | none => simp
  | some other =>
    by_cases hother : other < n
    · dsimp only
      rw [getElem?_holding hother]
      cases hfind : come.find? (·.tile == some other) with
      | none =>
        dsimp only
        split
        · next h => exact ⟨by rintro ⟨⟩; exact ⟨rfl, hother, hfind, h⟩, fun h => by simpa using h.1⟩
        · next h => exact ⟨nofun, fun hall => absurd hall.2.2.2 h⟩
      | some q =>
        refine ⟨nofun, ?_⟩
        rintro ⟨⟨⟩, -, hnone, -⟩
        rw [hfind] at hnone
        cases hnone
    · have hnone : (holding n come).tiles[other]? = none := by simp [holding, hother]
      dsimp only
      rw [hnone]
      refine ⟨nofun, ?_⟩
      rintro ⟨⟨⟩, hlt, -⟩
      exact absurd hlt hother

theorem set_holding (htag : p.tile = some tile) (hnew : ∀ q ∈ come, q.tile ≠ some tile) :
    (holding n come).tiles.set tile (some p) = (holding n (come ++ [p])).tiles := by
  refine List.ext_getElem? fun other => ?_
  by_cases hother : other < n
  · rw [getElem?_holding hother, List.getElem?_set, getElem?_holding hother, List.find?_append]
    by_cases hsame : tile = other
    · subst hsame
      simp [find?_eq_none_iff.2 hnew, holding, hother, htag]
    · simp [hsame, htag]
  · simp [holding, hother]

namespace OfPicture

theorem concat (h : OfPicture n come) (hcheck : (holding n come).check p = .ok tile) :
    OfPicture n (come ++ [p]) := by
  obtain ⟨htag, htile, hnew, hfirst⟩ := check_holding_iff.1 hcheck
  have hsame : ∀ q ∈ come, p.derive [] = q.derive [] := by
    intro q hq
    obtain ⟨first, rest, rfl⟩ := List.exists_cons_of_ne_nil (List.ne_nil_of_mem hq)
    exact (hfirst first rfl).trans (h.timing first List.mem_cons_self q hq)
  refine ⟨?_, ?_, ?_⟩
  · simp only [List.forall_mem_append, List.forall_mem_singleton]
    exact ⟨h.tagged, tile, htile, htag⟩
  · rw [List.map_append, List.map_singleton, List.nodup_append]
    refine ⟨h.nodup, List.nodup_singleton _, ?_⟩
    rintro _ hq _ hp rfl
    obtain ⟨q, hq, hqp⟩ := List.mem_map.1 hq
    exact hnew q hq (hqp.trans ((List.mem_singleton.1 hp).trans htag))
  · intro q hq r hr
    obtain hq | hq := List.mem_append.1 hq <;> obtain hr | hr := List.mem_append.1 hr
    · exact h.timing q hq r hr
    · exact List.mem_singleton.1 hr ▸ (hsame q hq).symm
    · exact List.mem_singleton.1 hq ▸ hsame r hr
    · rw [List.mem_singleton.1 hq, List.mem_singleton.1 hr]

/-- The packets behind some that have come are kept. -/
theorem check (h : OfPicture n (come ++ p :: later)) :
    ∃ tile, (holding n come).check p = .ok tile := by
  obtain ⟨tile, htile, htag⟩ := h.tagged p (by simp)
  refine ⟨tile, check_holding_iff.2 ⟨htag, htile, fun q hq hsame => ?_, fun q hq => ?_⟩⟩
  · have hnodup := h.nodup
    rw [List.map_append, List.map_cons, List.nodup_append] at hnodup
    exact hnodup.2.2 q.tile (List.mem_map_of_mem hq) p.tile List.mem_cons_self
      (hsame.trans htag.symm)
  · exact h.timing p (by simp) q (List.mem_append_left _ (List.mem_of_mem_head? hq))

theorem subset (h : OfPicture n come) : come.map (·.tile) ⊆ (List.range n).map some := by
  intro tag htag
  obtain ⟨p, hp, rfl⟩ := List.mem_map.1 htag
  obtain ⟨tile, htile, htag⟩ := h.tagged p hp
  exact List.mem_map.2 ⟨tile, List.mem_range.2 htile, htag.symm⟩

theorem length_le (h : OfPicture n come) : come.length ≤ n := by
  simpa using (List.subperm_of_subset h.nodup h.subset).length_le

/-- All packets have come if there are as many as tiles. -/
theorem perm (h : OfPicture n come) (hlen : come.length = n) :
    (come.map (·.tile)).Perm ((List.range n).map some) :=
  (List.subperm_of_subset h.nodup h.subset).perm_of_length_le (by simp [hlen])

theorem find?_of_mem (h : OfPicture n come) (hp : p ∈ come) (htag : p.tile = some tile) :
    come.find? (·.tile == some tile) = some p := by
  cases hfind : come.find? (·.tile == some tile) with
  | none => exact absurd htag (find?_eq_none_iff.1 hfind p hp)
  | some q =>
    have hq : q.tile = some tile := by simpa using List.find?_some hfind
    exact congrArg some
      (List.inj_on_of_nodup_map h.nodup (List.mem_of_find?_eq_some hfind) hp (hq.trans htag.symm))

theorem all_iff (h : OfPicture n come) :
    (holding n come).tiles.all Option.isSome = true ↔ come.length = n := by
  have hall : (holding n come).tiles.all Option.isSome = true ↔
      (List.range n).map some ⊆ come.map (·.tile) := by
    simp only [holding, List.all_map, List.all_eq_true, List.mem_range, Function.comp_apply,
      List.find?_isSome, beq_iff_eq]
    constructor
    · intro hcome tag htag
      obtain ⟨tile, htile, rfl⟩ := List.mem_map.1 htag
      exact List.mem_map.2 (hcome tile (List.mem_range.1 htile))
    · exact fun hsub tile htile => List.mem_map.1
        (hsub (List.mem_map_of_mem (List.mem_range.2 htile)))
  rw [hall]
  constructor
  · intro hsub
    have hrange : ((List.range n).map some).Nodup := List.nodup_range.map fun _ _ => Option.some.inj
    have hle := (List.subperm_of_subset hrange hsub).length_le
    simp only [List.length_map, List.length_range] at hle
    exact Nat.le_antisymm h.length_le hle
  · exact fun hlen => (h.perm hlen).symm.subset

/-- Once all packets have come, they are held in the order of their tiles. -/
theorem exists_tiles (h : OfPicture n come) (hlen : come.length = n) :
    ∃ tiles : List Packet, (holding n come).tiles = tiles.map some ∧
      tiles.map (·.tile) = (List.range n).map some := by
  have hcome : ∀ tile ∈ List.range n, ∃ p, come.find? (·.tile == some tile) = some p ∧
      p.tile = some tile := by
    intro tile htile
    have htag : some tile ∈ come.map (·.tile) :=
      (h.perm hlen).mem_iff.2 (List.mem_map_of_mem htile)
    obtain ⟨p, hp, hptag⟩ := List.mem_map.1 htag
    exact ⟨p, h.find?_of_mem hp hptag, hptag⟩
  refine ⟨(List.range n).map fun tile => (come.find? (·.tile == some tile)).getD default, ?_, ?_⟩
  · rw [holding, List.map_map]
    refine List.map_congr_left fun tile htile => ?_
    obtain ⟨p, hp, -⟩ := hcome tile htile
    simp [hp]
  · rw [List.map_map]
    refine List.map_congr_left fun tile htile => ?_
    obtain ⟨p, hp, htag⟩ := hcome tile htile
    simp [hp, htag]

end OfPicture

/-- A packet that is kept completes the picture or is held with the others. -/
theorem push_holding (h : OfPicture n come) (hcheck : (holding n come).check p = .ok tile) :
    (holding n come).push p =
      if come.length + 1 = n then (picture n (come ++ [p]), empty n)
      else (.ok none, holding n (come ++ [p])) := by
  obtain ⟨htag, -, hnew, -⟩ := check_holding_iff.1 hcheck
  have hfirst : (holding n come).first.getD (p.derive []) =
      ((come ++ [p]).headD default).derive [] := by
    cases come <;> rfl
  have hheld : some (((come ++ [p]).headD default).derive []) = (holding n (come ++ [p])).first := by
    cases come <;> rfl
  have hall := (h.concat hcheck).all_iff
  rw [List.length_append, List.length_singleton] at hall
  simp only [push, hcheck, set_holding htag hnew, hall, hfirst, tileCount_holding, hheld,
    repack_ample, Functor.map_map]
  rfl

/-! ## All packets of a picture -/

/-- Nothing comes out before the last packet of a picture. Then the picture does, and nothing is left.
-/
theorem pushAll_holding (h : OfPicture n (come ++ later)) (hlen : (come ++ later).length = n)
    (hne : later ≠ []) : (holding n come).pushAll later =
      (List.replicate (later.length - 1) (.ok none) ++ [picture n (come ++ later)], empty n) := by
  induction later generalizing come with
  | nil => exact absurd rfl hne
  | cons p later ih =>
    obtain ⟨tile, hcheck⟩ := h.check
    have hcome : OfPicture n come := by
      obtain ⟨htagged, hnodup, htiming⟩ := h
      rw [List.map_append, List.nodup_append] at hnodup
      exact ⟨fun q hq => htagged q (List.mem_append_left _ hq), hnodup.1, fun q hq r hr =>
        htiming q (List.mem_append_left _ hq) r (List.mem_append_left _ hr)⟩
    rw [List.length_append, List.length_cons] at hlen
    rw [pushAll, push_holding hcome hcheck]
    cases later with
    | nil =>
      rw [if_pos (by simpa using hlen)]
      rfl
    | cons next later =>
      rw [List.length_cons] at hlen
      have hsplit : come ++ p :: next :: later = come ++ [p] ++ next :: later := by simp
      rw [if_neg (by omega), hsplit]
      rw [hsplit] at h
      simp only [ih h (by simp; omega) (List.cons_ne_nil _ _)]
      rfl

/-- The packets that are kept, up to the last one of a picture, are for the same picture. -/
theorem ofPicture_stored (h : OfPicture n come) (hlt : come.length < n) {packets : List Packet}
    (hlen : come.length + ((holding n come).stored packets).length ≤ n) :
    OfPicture n (come ++ ((holding n come).stored packets).map Prod.fst) := by
  induction packets generalizing come with
  | nil => simpa [stored] using h
  | cons p packets ih =>
    cases hcheck : (holding n come).check p with
    | error e =>
      rw [stored_refused hcheck] at hlen ⊢
      exact ih h hlt hlen
    | ok tile =>
      have hnext := h.concat hcheck
      rw [stored_kept hcheck, push_holding h hcheck] at hlen ⊢
      rw [List.length_cons] at hlen
      by_cases hlast : come.length + 1 = n
      · -- the picture is complete, so no further packet is kept
        rw [if_pos hlast] at hlen ⊢
        have hnone : (empty n).stored packets = [] := by
          rw [← List.length_eq_zero_iff]
          dsimp only at hlen
          omega
        simpa [hnone] using hnext
      · rw [if_neg hlast] at hlen ⊢
        rw [List.map_cons, List.append_cons]
        dsimp only at hlen ⊢
        have hlen' : (come ++ [p]).length = come.length + 1 := by simp
        exact ih hnext (by omega) (by omega)

theorem OfPicture.of_perm (h : OfPicture n come) (hperm : come.Perm later) : OfPicture n later where
  tagged p hp := h.tagged p (hperm.mem_iff.2 hp)
  nodup := (hperm.map _).nodup_iff.1 h.nodup
  timing p hp q hq := h.timing p (hperm.mem_iff.2 hp) q (hperm.mem_iff.2 hq)

theorem picture_perm (h : OfPicture n come) (hperm : come.Perm later) :
    picture n come = picture n later := by
  have hlater := h.of_perm hperm
  have htiles : (holding n come).tiles = (holding n later).tiles := by
    refine List.map_congr_left fun tile _ => ?_
    cases hfind : come.find? (·.tile == some tile) with
    | none =>
      rw [eq_comm, find?_eq_none_iff]
      exact fun q hq => find?_eq_none_iff.1 hfind q (hperm.mem_iff.2 hq)
    | some p =>
      have hp : p.tile = some tile := by simpa using List.find?_some hfind
      exact (hlater.find?_of_mem (hperm.mem_iff.1 (List.mem_of_find?_eq_some hfind)) hp).symm
  have hbase : (come.headD default).derive = (later.headD default).derive := by
    cases come with
    | nil => rw [hperm.nil_eq]
    | cons p come =>
      have hne : later ≠ [] := by
        rintro rfl
        exact List.cons_ne_nil p come hperm.eq_nil
      obtain ⟨q, later, rfl⟩ := List.exists_cons_of_ne_nil hne
      have hsame := h.timing p List.mem_cons_self q (hperm.mem_iff.2 List.mem_cons_self)
      funext data
      exact congrArg (·.derive data) hsame
  rw [picture, picture, htiles, hbase]

/-- The packets of all tiles give the same picture in any order, and nothing comes out before the
last. -/
theorem pushAll_perm {f : Nat → Packet} {base : Packet} {order : List Nat}
    (htag : ∀ tile < n, (f tile).tile = some tile) (hbase : ∀ tile < n, (f tile).derive [] = base)
    (hn : 0 < n) (hperm : order.Perm (List.range n)) :
    (empty n).pushAll (order.map f) =
      (List.replicate (n - 1) (.ok none) ++
        [(some ∘ base.derive) <$> assemble ((List.range n).map f)], empty n) := by
  have hlt : ∀ {tile}, tile ∈ List.range n → tile < n := List.mem_range.1
  have htags : ((List.range n).map f).map (·.tile) = (List.range n).map some := by
    rw [List.map_map]
    exact List.map_congr_left fun tile htile => htag tile (hlt htile)
  have hall : OfPicture n ((List.range n).map f) := by
    refine ⟨?_, ?_, ?_⟩
    · rw [List.forall_mem_map]
      exact fun tile htile => ⟨tile, hlt htile, htag tile (hlt htile)⟩
    · rw [htags]
      exact List.nodup_range.map fun _ _ => Option.some.inj
    · simp only [List.forall_mem_map]
      exact fun i hi j hj => (hbase i (hlt hi)).trans (hbase j (hlt hj)).symm
  have hperm' := (hperm.map f).symm
  have horder : OfPicture n ([] ++ order.map f) := hall.of_perm hperm'
  have hlen : order.length = n := by rw [hperm.length_eq, List.length_range]
  have hne : order.map f ≠ [] := by
    rw [← List.length_pos_iff_ne_nil, List.length_map, hlen]
    exact hn
  have hpushed := pushAll_holding horder (by simpa using hlen) hne
  have htiles : (holding n ((List.range n).map f)).tiles = ((List.range n).map f).map some := by
    rw [holding, List.map_map]
    exact List.map_congr_left fun tile htile =>
      hall.find?_of_mem (List.mem_map_of_mem htile) (htag tile (hlt htile))
  have hfirst : (((List.range n).map f).headD default).derive = base.derive := by
    obtain ⟨m, rfl⟩ : ∃ m, n = m + 1 := ⟨n - 1, by omega⟩
    funext data
    rw [List.range_succ_eq_map]
    exact congrArg (·.derive data) (hbase 0 hn)
  rw [holding_nil, List.length_map, hlen, List.nil_append, ← picture_perm hall hperm', picture,
    htiles, hfirst, List.filterMap_map, Function.id_comp, List.filterMap_some] at hpushed
  exact hpushed

/-- The packets that a new assembler keeps, if there are as many as tiles, give the picture. -/
theorem results_stored (hn : 0 < n) {packets : List Packet}
    (hcount : ((empty n).stored packets).length = n) :
    OfPicture n (((empty n).stored packets).map Prod.fst) ∧
      ((empty n).stored packets).map Prod.snd = List.replicate (n - 1) (.ok none) ++
        [picture n (((empty n).stored packets).map Prod.fst)] ∧
      ((empty n).pushAll packets).2 = empty n := by
  have hnone : OfPicture n [] := ⟨nofun, List.nodup_nil, nofun⟩
  rw [← holding_nil] at hcount ⊢
  have hstored : OfPicture n ([] ++ ((holding n []).stored packets).map Prod.fst) :=
    ofPicture_stored hnone hn (by simp [hcount])
  have hne : ((holding n []).stored packets).map Prod.fst ≠ [] := by
    rw [← List.length_pos_iff_ne_nil, List.length_map, hcount]
    exact hn
  have hpushed := pushAll_holding hstored (by simp [hcount]) hne
  rw [pushAll_stored, List.length_map, hcount, List.nil_append] at hpushed
  obtain ⟨hresults, hlast⟩ := Prod.mk.inj hpushed
  exact ⟨hstored, hresults, hlast.trans holding_nil.symm⟩

end Holding

/-- The states that an assembler can be in, whatever is pushed and whatever there is room for. -/
inductive Reachable : Assembler → Prop where
  | ofTileCount {n : Nat} {s : Assembler} (h : ofTileCount n = .ok s) : Reachable s
  | push {s : Assembler} (h : Reachable s) (packet : Packet) (memory : Memory := .ample) :
    Reachable (s.push packet memory).2
  | flush {s : Assembler} (h : Reachable s) : Reachable s.flush

theorem ofTileCount_eq_ok {n : Nat} {s : Assembler} (h : ofTileCount n = .ok s) :
    0 < n ∧ s = empty n := by
  unfold ofTileCount at h
  split at h
  · cases h
  · next hn =>
    cases h
    exact ⟨by omega, rfl⟩

/-- An assembler holds some, but not all packets of a picture. -/
theorem Reachable.exists_holding {s : Assembler} (h : Reachable s) :
    ∃ n come, s = holding n come ∧ OfPicture n come ∧ come.length < n := by
  have hnone : ∀ n, OfPicture n [] := fun _ => ⟨nofun, List.nodup_nil, nofun⟩
  induction h with
  | ofTileCount h =>
    obtain ⟨hn, rfl⟩ := ofTileCount_eq_ok h
    exact ⟨_, [], holding_nil.symm, hnone _, hn⟩
  | @push s _ packet memory ih =>
    obtain ⟨n, come, rfl, hcome, hlt⟩ := ih
    obtain hroom | hroom := push_eq_or_no_room (holding n come) packet memory
    · rw [hroom]
      cases hcheck : (holding n come).check packet with
      | error e =>
        rw [push_refused hcheck]
        exact ⟨n, come, rfl, hcome, hlt⟩
      | ok tile =>
        have hnext := hcome.concat hcheck
        have hle := hnext.length_le
        rw [List.length_append, List.length_singleton] at hle
        rw [push_holding hcome hcheck]
        by_cases hlast : come.length + 1 = n
        · rw [if_pos hlast]
          exact ⟨n, [], holding_nil.symm, hnone n, by simp; omega⟩
        · rw [if_neg hlast]
          exact ⟨n, come ++ [packet], rfl, hnext, by simp; omega⟩
    · rw [hroom, tileCount_holding]
      exact ⟨n, [], holding_nil.symm, hnone n, by simp; omega⟩
  | @flush s _ ih =>
    obtain ⟨n, come, rfl, -, hlt⟩ := ih
    refine ⟨n, [], ?_, hnone n, by simp; omega⟩
    rw [holding_nil, Assembler.flush, tileCount_holding]

/-- If the packets that are kept are as many as tiles, nothing comes out before the last of them; then
the picture does, or the reason why it cannot be put together, and the assembler is as new. What comes
out is the same for the same packets in any other order, whatever is refused between them. -/
theorem results_any_order {n : Nat} {s : Assembler} (hs : ofTileCount n = .ok s)
    {packets others : List Packet} (hcount : (s.stored packets).length = n)
    (hperm : ((s.stored packets).map Prod.fst).Perm ((s.stored others).map Prod.fst)) :
    ∃ result, result ≠ .ok none ∧
      (s.stored packets).map Prod.snd = List.replicate (n - 1) (.ok none) ++ [result] ∧
      (s.stored others).map Prod.snd = List.replicate (n - 1) (.ok none) ++ [result] ∧
      (s.pushAll packets).2 = s ∧ (s.pushAll others).2 = s := by
  obtain ⟨hn, rfl⟩ := ofTileCount_eq_ok hs
  have hcount' : ((empty n).stored others).length = n := by
    simpa [hcount] using hperm.length_eq.symm
  obtain ⟨hpicture, hresults, hlast⟩ := results_stored hn hcount
  obtain ⟨-, hresults', hlast'⟩ := results_stored hn hcount'
  rw [← picture_perm hpicture hperm] at hresults'
  refine ⟨_, fun hnone => ?_, hresults, hresults', hlast, hlast'⟩
  obtain ⟨_, -, h⟩ := map_eq_ok_iff.1 hnone
  cases h

/-- A packet for a tile of a picture of two tiles, with one slice in it. -/
def samplePacket (tile : Nat) : Packet where
  data := [0, 0, 1, 2, 1, UInt8.ofNat tile + 4]
  pts := some 200
  tile := some tile

/-- Both packets, the second one first. Each of the others is refused for another reason. -/
def samplePackets : List Packet :=
  [{ samplePacket 0 with tile := none }, samplePacket 1, samplePacket 1, samplePacket 2,
    { samplePacket 0 with pts := some 201 }, samplePacket 0, samplePacket 2]

theorem results_any_order_sample : ofTileCount 2 = .ok (empty 2) ∧
    ((empty 2).stored samplePackets).length = 2 ∧
    (((empty 2).stored samplePackets).map Prod.fst).Perm
      (((empty 2).stored [samplePacket 0, samplePacket 1]).map Prod.fst) ∧
    ∃ result, result ≠ .ok none ∧
      ((empty 2).stored samplePackets).map Prod.snd = List.replicate (2 - 1) (.ok none) ++ [result] ∧
      ((empty 2).stored [samplePacket 0, samplePacket 1]).map Prod.snd =
        List.replicate (2 - 1) (.ok none) ++ [result] ∧
      ((empty 2).pushAll samplePackets).2 = empty 2 ∧
      ((empty 2).pushAll [samplePacket 0, samplePacket 1]).2 = empty 2 := by
  have hs : ofTileCount 2 = .ok (empty 2) := rfl
  have hcount : ((empty 2).stored samplePackets).length = 2 := by decide
  have hperm : (((empty 2).stored samplePackets).map Prod.fst).Perm
      (((empty 2).stored [samplePacket 0, samplePacket 1]).map Prod.fst) := by decide
  exact ⟨hs, hcount, hperm, results_any_order hs hcount hperm⟩

end TiledVideo.Assembler
