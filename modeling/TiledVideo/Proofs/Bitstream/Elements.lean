import TiledVideo.Proofs.Bitstream.Reads

/-!
# Reading back elements

Every number that a reader gives is one that its code can carry, and is read back from it. For an
Exp-Golomb code this means fewer than 32 zero bits in front, so numbers up to `2 ^ 32 - 2`.

Results:

* `reads_uint`, `Produces.uint`: numbers of a fixed width.
* `reads_ue`, `Produces.ue`: unsigned Exp-Golomb codes.
* `reads_se`, `Produces.se`: signed Exp-Golomb codes.
-/

namespace TiledVideo

namespace ExpGolomb

/-- The code word of a number is a run of zero bits, a one and the low bits of its successor. -/
theorem word_eq (v : Nat) :
    word v = List.replicate (Nat.log2 (v + 1)) false ++
      true :: Bits.ofNat (Nat.log2 (v + 1)) (v + 1) := by
  have hbit : (v + 1).testBit (Nat.log2 (v + 1)) = true := Nat.testBit_log2 (by omega)
  simp only [word, Bits.ofNat, hbit]

theorem log2_lt_of_lt {v : Nat} (h : v < 2 ^ 32 - 1) : Nat.log2 (v + 1) < 32 :=
  (Nat.log2_lt (by omega)).2 (by omega)

end ExpGolomb

/-- A number that fits has a code, the empty one if it has no bits. -/
theorem Code.uint_eq_ok {n v : Nat} (hn : n ≤ 32) (hv : v < 2 ^ n) :
    Code.uint n v = .ok (Bits.ofNat n v) := by
  by_cases hzero : n = 0
  · subst hzero
    rfl
  · rw [Code.uint, if_neg hzero, if_neg (by omega), if_pos hv]

namespace Reader

variable {ε α : Type}

/-! ## Bits -/

theorem reads_flag (element : String) (b : Bool) : (flag element).Reads (.flag b) b :=
  ⟨[b], rfl, fun _ _ => rfl⟩

theorem bits_append {n : Nat} {element : String} {bs rest : BitString} {pos : Nat}
    (h : bs.length = n) : bits n element ⟨bs ++ rest, pos⟩ = .ok bs ⟨rest, pos + n⟩ := by
  subst h
  simp [bits]

theorem bits_eq_ok {n : Nat} {element : String} {bs : BitString} {c c' : Cursor}
    (h : bits n element c = .ok bs c') : bs.length = n := by
  simp only [bits, List.length_take] at h
  split at h
  · cases h
  · next hn =>
    cases h
    rw [List.length_take]
    omega

theorem flag_cons (element : String) (b : Bool) (rest : BitString) (pos : Nat) :
    flag element ⟨b :: rest, pos⟩ = .ok b ⟨rest, pos + 1⟩ := rfl

/-! ## Numbers of a fixed width -/

theorem uint_eq_map {n : Nat} (element : String) (hn : n ≤ 32) :
    uint n element = Bits.toNat <$> bits n element :=
  if_neg (Nat.not_lt.2 hn)

theorem uint_append {n v : Nat} {element : String} {rest : BitString} {pos : Nat} (hn : n ≤ 32)
    (hv : v < 2 ^ n) :
    uint n element ⟨Bits.ofNat n v ++ rest, pos⟩ = .ok v ⟨rest, pos + n⟩ := by
  have hb : bits n element ⟨Bits.ofNat n v ++ rest, pos⟩ = .ok (Bits.ofNat n v) ⟨rest, pos + n⟩ :=
    bits_append (Bits.length_ofNat n v)
  rw [uint_eq_map element hn, step_map_of_ok hb, Bits.toNat_ofNat hv]

theorem reads_uint {n v : Nat} (element : String) (hn : n ≤ 32) (hv : v < 2 ^ n) :
    (uint n element).Reads (.uint n v) v := by
  refine ⟨Bits.ofNat n v, Code.uint_eq_ok hn hv, fun rest pos => ?_⟩
  rw [uint_append hn hv, Bits.length_ofNat]

theorem Produces.uint {n v : Nat} {element : String} (h : (uint n element).Produces v) :
    n ≤ 32 ∧ v < 2 ^ n := by
  unfold Reader.uint at h
  split at h
  · exact absurd h not_produces_throw
  · next hn =>
    obtain ⟨bs, ⟨c, c', hbs⟩, rfl⟩ := h.map
    have := Bits.toNat_lt bs
    rw [bits_eq_ok hbs] at this
    exact ⟨by omega, this⟩

theorem Produces.reads_uint {n v : Nat} {element : String} (h : (Reader.uint n element).Produces v) :
    (Reader.uint n element).Reads (.uint n v) v :=
  Reader.reads_uint element h.uint.1 h.uint.2

theorem reads_skip {n : Nat} (element : String) (hn : n ≤ 32) :
    (skip n element).Reads (.uint n 0) () := by
  refine ⟨Bits.ofNat n 0, Code.uint_eq_ok hn (Nat.two_pow_pos n), fun rest pos => ?_⟩
  have hlen := Bits.length_ofNat n 0
  rw [skip, step_map_of_ok (bits_append hlen), hlen]

/-! ## Exp-Golomb codes -/

theorem takeWhile_zeros {k n : Nat} (h : k < n) (rest : BitString) :
    ((List.replicate k false ++ true :: rest).take n).takeWhile (!·) = List.replicate k false := by
  obtain ⟨m, rfl⟩ := Nat.exists_eq_add_of_lt h
  rw [List.take_append, List.take_of_length_le (by simp; omega), List.length_replicate,
    show k + m + 1 - k = m + 1 by omega, List.take_succ_cons,
    List.takeWhile_append_of_pos (by simp)]
  simp

theorem zeroRun_append {k : Nat} (element : String) (h : k < 32) (rest : BitString) (pos : Nat) :
    zeroRun element ⟨List.replicate k false ++ true :: rest, pos⟩ =
      .ok k ⟨true :: rest, pos + k⟩ := by
  simp only [zeroRun, takeWhile_zeros h, List.length_replicate, if_neg (Nat.ne_of_lt h)]
  rw [List.drop_append, List.drop_of_length_le (by simp)]
  simp

theorem reads_ue {v : Nat} (element : String) (h : v < 2 ^ 32 - 1) :
    (ue element).Reads (.ue v) v := by
  have hk := ExpGolomb.log2_lt_of_lt h
  refine ⟨ExpGolomb.word v, rfl, fun rest pos => ?_⟩
  have hlow : 2 ^ Nat.log2 (v + 1) ≤ v + 1 := Nat.log2_self_le (by omega)
  have hhigh : v + 1 < 2 ^ (Nat.log2 (v + 1) + 1) := Nat.lt_log2_self
  have hlen := ExpGolomb.length_word v
  rw [ExpGolomb.word_eq] at hlen ⊢
  generalize Nat.log2 (v + 1) = k at *
  have hmod : (v + 1) % 2 ^ k = v + 1 - 2 ^ k := by
    rw [Nat.pow_succ] at hhigh
    rw [Nat.mod_eq_sub_mod hlow, Nat.mod_eq_of_lt (by omega)]
  have hb : bits k element ⟨Bits.ofNat k (v + 1) ++ rest, pos + k + 1⟩ =
      .ok (Bits.ofNat k (v + 1)) ⟨rest, pos + k + 1 + k⟩ := bits_append (Bits.length_ofNat k _)
  have hu : uint k element ⟨Bits.ofNat k (v + 1) ++ rest, pos + k + 1⟩ =
      .ok ((v + 1) % 2 ^ k) ⟨rest, pos + k + 1 + k⟩ := by
    rw [uint_eq_map element (Nat.le_of_lt hk), step_map_of_ok hb, Bits.toNat_ofNat_mod]
  rw [List.append_assoc, List.cons_append, ue, bind_of_eq_ok (zeroRun_append element hk _ pos),
    bind_of_eq_ok (flag_cons element true _ _), bind_of_eq_ok hu, hmod, hlen]
  show EStateM.Result.ok (2 ^ k - 1 + (v + 1 - 2 ^ k)) _ = _
  congr 2
  · have := Nat.two_pow_pos k
    omega
  · omega

theorem Produces.ue {v : Nat} {element : String} (h : (ue element).Produces v) :
    v < 2 ^ 32 - 1 := by
  obtain ⟨k, ⟨c, c', hk⟩, h⟩ := h.bind
  obtain ⟨_, -, h⟩ := h.bind
  obtain ⟨low, hlow, h⟩ := h.bind
  obtain rfl := h.pure
  have hk31 : k < 32 := by
    simp only [zeroRun] at hk
    split at hk
    · cases hk
    · next hne =>
      cases hk
      have := (List.takeWhile_prefix (!·) (l := c.bits.take 32)).length_le
      simp only [List.length_take] at this
      omega
  have hpow : 2 ^ k ≤ 2 ^ 31 := Nat.pow_le_pow_right (by omega) (by omega)
  have := hlow.uint.2
  omega

theorem Produces.reads_ue {v : Nat} {element : String} (h : (Reader.ue element).Produces v) :
    (Reader.ue element).Reads (.ue v) v :=
  Reader.reads_ue element h.ue

theorem reads_se {x : Int} (element : String) (h : ExpGolomb.ofSigned x < 2 ^ 32 - 1) :
    (se element).Reads (.se x) x := by
  have := (reads_ue element h).map ExpGolomb.toSigned
  rwa [ExpGolomb.toSigned_ofSigned] at this

theorem Produces.se {x : Int} {element : String} (h : (se element).Produces x) :
    ExpGolomb.ofSigned x < 2 ^ 32 - 1 := by
  obtain ⟨v, hv, rfl⟩ := h.map
  rw [ExpGolomb.ofSigned_toSigned]
  exact hv.ue

theorem Produces.reads_se {x : Int} {element : String} (h : (Reader.se element).Produces x) :
    (Reader.se element).Reads (.se x) x :=
  Reader.reads_se element h.se

end Reader

end TiledVideo
