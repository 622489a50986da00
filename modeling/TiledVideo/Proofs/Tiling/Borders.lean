import Mathlib.Order.Monotone.Basic
import TiledVideo.Proofs.Tiling.Sizes

/-!
# Borders between tiles

Along one direction a tile begins behind the blocks of the tiles before it. The blocks from there up to
the next tile are in it.

Results:

* `borders_eq`: the borders that are looked for are those where tiles begin.
* `tileOfCtb_eq_some`: a block behind the begin of a tile and before the next one is in it.
* `tileOfCtb_eq_some_iff`: the blocks of a tile, if the tiles cover all blocks.
* `count_tileOfCtb`: their number.
-/

namespace TiledVideo

/-- Whole blocks and a rest of samples are covered one after the other. -/
theorem ctbsFor_add (k n log2Size : Nat) :
    ctbsFor (k * 2 ^ log2Size + n) log2Size = k + ctbsFor n log2Size := by
  have hpos := Nat.two_pow_pos log2Size
  have hsamples : k * 2 ^ log2Size + n + 2 ^ log2Size - 1 =
      n + 2 ^ log2Size - 1 + k * 2 ^ log2Size := by omega
  rw [ctbsFor, hsamples, Nat.add_mul_div_right _ _ hpos, Nat.add_comm, ctbsFor]

theorem ctbsFor_zero (log2Size : Nat) : ctbsFor 0 log2Size = 0 :=
  Nat.le_zero.1 (ctbsFor_le 0 log2Size)

theorem ctbsFor_mul_two_pow (n log2Size : Nat) : ctbsFor (n * 2 ^ log2Size) log2Size = n := by
  have h := ctbsFor_add n 0 log2Size
  rwa [ctbsFor_zero] at h

namespace TileLayout

variable {log2Ctb ctbs i x : Nat} {sizes : List Nat}

/-! ## Where tiles begin -/

/-- The number of blocks of the tiles before a tile. -/
def tileStart (log2Ctb : Nat) (sizes : List Nat) (i : Nat) : Nat :=
  ((sizes.take i).map (ctbsFor · log2Ctb)).sum

theorem tileStart_zero (log2Ctb : Nat) (sizes : List Nat) : tileStart log2Ctb sizes 0 = 0 := rfl

theorem tileStart_cons (size : Nat) (sizes : List Nat) (i : Nat) :
    tileStart log2Ctb (size :: sizes) (i + 1) = ctbsFor size log2Ctb + tileStart log2Ctb sizes i := by
  rw [tileStart, List.take_succ_cons, List.map_cons, List.sum_cons, tileStart]

theorem tileStart_succ {size : Nat} (h : sizes[i]? = some size) :
    tileStart log2Ctb sizes (i + 1) = tileStart log2Ctb sizes i + ctbsFor size log2Ctb := by
  rw [tileStart, List.take_add_one, h, List.map_append, List.sum_append, tileStart]
  rfl

theorem tileStart_mono (log2Ctb : Nat) (sizes : List Nat) : Monotone (tileStart log2Ctb sizes) := by
  refine monotone_nat_of_le_succ fun i => ?_
  rw [tileStart, tileStart, List.take_add_one, List.map_append, List.sum_append]
  omega

theorem tileStart_of_length_le (h : sizes.length ≤ i) :
    tileStart log2Ctb sizes i = (sizes.map (ctbsFor · log2Ctb)).sum := by
  rw [tileStart, List.take_of_length_le h]

/-- A block in front of the end of all tiles is behind the begin of one and in front of the next. -/
theorem exists_tileStart_le (n : Nat) (h : x < tileStart log2Ctb sizes n) :
    ∃ i, tileStart log2Ctb sizes i ≤ x ∧ x < tileStart log2Ctb sizes (i + 1) := by
  induction n with
  | zero =>
    rw [tileStart_zero] at h
    omega
  | succ n ih =>
    by_cases hx : x < tileStart log2Ctb sizes n
    · exact ih hx
    · exact ⟨n, Nat.le_of_not_lt hx, h⟩

/-! ## Borders -/

theorem tileEnds_eq (start : Nat) (sizes : List Nat) : tileEnds log2Ctb start sizes =
    (List.range sizes.length).map fun i => start + tileStart log2Ctb sizes (i + 1) := by
  induction sizes generalizing start with
  | nil => rfl
  | cons size sizes ih =>
    rw [tileEnds, ih, List.length_cons, List.range_succ_eq_map, List.map_cons, List.map_map]
    simp only [Function.comp_def, tileStart_cons, tileStart_zero, Nat.add_zero, Nat.add_assoc,
      Nat.succ_eq_add_one]

theorem borders_eq (sizes : List Nat) : (tileEnds log2Ctb 0 sizes).dropLast =
    (List.range (sizes.length - 1)).map fun i => tileStart log2Ctb sizes (i + 1) := by
  have htake : (List.range sizes.length).take (sizes.length - 1) = List.range (sizes.length - 1) := by
    rw [List.take_range, Nat.min_eq_left (Nat.sub_le _ _)]
  rw [tileEnds_eq, List.dropLast_eq_take, List.length_map, List.length_range, ← List.map_take, htake]
  simp only [Nat.zero_add]

theorem countP_range_between (a b n : Nat) :
    (List.range n).countP (fun x => decide (a ≤ x ∧ x < b)) = min b n - a := by
  induction n with
  | zero => simp
  | succ n ih =>
    rw [List.range_succ, List.countP_append, ih, List.countP_singleton]
    split
    · next h => simp only [decide_eq_true_eq] at h; omega
    · next h => simp only [decide_eq_true_eq] at h; omega

theorem countP_range_lt (n i : Nat) : (List.range n).countP (· < i) = min i n := by
  have h := countP_range_between 0 i n
  simpa only [Nat.zero_le, true_and, Nat.sub_zero] using h

/-! ## Blocks of tiles -/

/-- A block is in a tile if it is behind its begin and, unless it is the last one, before the next. -/
theorem tileOfCtb_eq_some (hi : i < sizes.length) (hx : x < ctbs)
    (hstart : tileStart log2Ctb sizes i ≤ x)
    (hstop : i + 1 < sizes.length → x < tileStart log2Ctb sizes (i + 1)) :
    (tileOfCtb sizes ctbs log2Ctb)[x]? = some i := by
  have hborders : ∀ j ∈ List.range (sizes.length - 1),
      (tileStart log2Ctb sizes (j + 1) ≤ x ↔ j < i) := by
    intro j hj
    rw [List.mem_range] at hj
    constructor
    · intro hle
      by_contra hij
      have hnext := tileStart_mono log2Ctb sizes (show i + 1 ≤ j + 1 by omega)
      have := hstop (by omega)
      omega
    · intro hji
      exact Nat.le_trans (tileStart_mono log2Ctb sizes hji) hstart
  have hcount : (List.range (sizes.length - 1)).countP
      (fun j => decide (tileStart log2Ctb sizes (j + 1) ≤ x)) = i := by
    rw [List.countP_congr (q := fun j => decide (j < i)) fun j hj => by simpa using hborders j hj,
      countP_range_lt]
    omega
  simp only [tileOfCtb, borders_eq, List.getElem?_map, List.getElem?_range hx, Option.map_some,
    List.countP_map, Function.comp_def, hcount]

/-- If the tiles cover all blocks, those of a tile are between its begin and that of the next one. -/
theorem tileOfCtb_eq_some_iff (hctbs : (sizes.map (ctbsFor · log2Ctb)).sum = ctbs) :
    (tileOfCtb sizes ctbs log2Ctb)[x]? = some i ↔
      tileStart log2Ctb sizes i ≤ x ∧ x < tileStart log2Ctb sizes (i + 1) := by
  have hin : ∀ {j}, tileStart log2Ctb sizes j ≤ x → x < tileStart log2Ctb sizes (j + 1) →
      (tileOfCtb sizes ctbs log2Ctb)[x]? = some j := by
    intro j hstart hstop
    have hj : j < sizes.length := by
      by_contra hj
      rw [tileStart_of_length_le (by omega)] at hstart hstop
      omega
    have hle : tileStart log2Ctb sizes (j + 1) ≤ tileStart log2Ctb sizes sizes.length :=
      tileStart_mono log2Ctb sizes hj
    rw [tileStart_of_length_le (Nat.le_refl _), hctbs] at hle
    exact tileOfCtb_eq_some hj (by omega) hstart fun _ => hstop
  constructor
  · intro h
    have hx : x < ctbs := by
      rw [← length_tileOfCtb sizes ctbs log2Ctb]
      exact (List.getElem?_eq_some_iff.1 h).1
    rw [← hctbs, ← tileStart_of_length_le (Nat.le_refl _)] at hx
    obtain ⟨j, hstart, hstop⟩ := exists_tileStart_le _ hx
    obtain rfl : i = j := Option.some.inj (h.symm.trans (hin hstart hstop))
    exact ⟨hstart, hstop⟩
  · rintro ⟨hstart, hstop⟩
    exact hin hstart hstop

/-- Blocks further on are in no earlier tile. -/
theorem pairwise_tileOfCtb (sizes : List Nat) (ctbs log2Ctb : Nat) :
    (tileOfCtb sizes ctbs log2Ctb).Pairwise (· ≤ ·) := by
  rw [tileOfCtb, List.pairwise_map]
  refine List.pairwise_le_range.imp fun hab => List.countP_mono_left fun border _ h => ?_
  rw [decide_eq_true_eq] at h ⊢
  exact Nat.le_trans h hab

/-- A tile has as many blocks as are between its begin and that of the next one. -/
theorem count_tileOfCtb (hctbs : (sizes.map (ctbsFor · log2Ctb)).sum = ctbs) (hi : i < sizes.length) :
    (tileOfCtb sizes ctbs log2Ctb).count i =
      tileStart log2Ctb sizes (i + 1) - tileStart log2Ctb sizes i := by
  have hstop : tileStart log2Ctb sizes (i + 1) ≤ ctbs := by
    rw [← hctbs, ← tileStart_of_length_le (Nat.le_refl _)]
    exact tileStart_mono log2Ctb sizes hi
  have hblock : ∀ x ∈ List.range ctbs,
      ((tileEnds log2Ctb 0 sizes).dropLast.countP (· ≤ x) == i) = true ↔
        decide (tileStart log2Ctb sizes i ≤ x ∧ x < tileStart log2Ctb sizes (i + 1)) = true := by
    intro x hx
    rw [beq_iff_eq, decide_eq_true_eq, ← tileOfCtb_eq_some_iff hctbs, tileOfCtb, List.getElem?_map,
      List.getElem?_range (List.mem_range.1 hx), Option.map_some, Option.some.injEq]
  rw [List.count_eq_countP, tileOfCtb, List.countP_map, Function.comp_def, List.countP_congr hblock,
    countP_range_between, Nat.min_eq_left hstop]

end TileLayout

end TiledVideo
