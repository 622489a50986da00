import TiledVideo.Proofs.Bitstream.Exactness

/-!
# What is read as an Exp-Golomb code

The readers of Exp-Golomb codes take the code words that are written and nothing else, up to the number
`2 ^ 32 - 2`, which has 31 zero bits in front. A run of 32 zero bits is refused wherever it stands, and
all else that is no code word is one that the end of the data has cut off. So each bit string is read in
one way or refused for one reason.

Writers go further: `2 ^ 32 - 1`, and `-2 ^ 31` among the signed numbers, have words that begin with 32
zero bits. They are not read back.

Results:

* `ue_eq_ok_iff`, `se_eq_ok_iff`: what is read as a number.
* `ue_eq_tooLarge_iff`, `ue_eq_endOfData_iff`: the two ways to fail.
* `ue_se_words`: all of this for any bits at any position.
-/

namespace TiledVideo

namespace ExpGolomb

theorem ofSigned_lt_iff {x : Int} : ofSigned x < 2 ^ 32 - 1 ↔ -2 ^ 31 < x ∧ x < 2 ^ 31 := by
  unfold ofSigned
  split <;> omega

/-- A word begins with as many zero bits as the logarithm says. -/
theorem zeros_isPrefix_word {v k : Nat} (h : Nat.log2 (v + 1) = k) :
    List.replicate k false <+: word v := by
  rw [word_eq, h]
  exact List.prefix_append _ _

end ExpGolomb

namespace Reader

variable {element : String} {c c' : Cursor} {v : Nat} {x : Int}

/-! ## Numbers -/

theorem ue_eq_ok_iff : ue element c = .ok v c' ↔ v < 2 ^ 32 - 1 ∧
    c.bits = ExpGolomb.word v ++ c'.bits ∧
    c'.position = c.position + (ExpGolomb.word v).length := by
  constructor
  · intro h
    have hmeets : (ue element).Meets (fun _ _ => True) c := fun _ _ _ _ _ _ _ => trivial
    obtain ⟨taken, hcode, htaken⟩ := exact_ue element c v c' h hmeets trivial
    obtain rfl : ExpGolomb.word v = taken := Except.ok.inj hcode
    exact ⟨Produces.ue ⟨c, c', h⟩, htaken.1, htaken.2.1⟩
  · rintro ⟨hv, hbits, hpos⟩
    obtain ⟨_, hcode, hread⟩ := reads_ue element hv
    cases hcode
    have h := hread c'.bits c.position
    rwa [← hbits, ← hpos] at h

theorem se_eq_ok_iff : se element c = .ok x c' ↔ (-2 ^ 31 < x ∧ x < 2 ^ 31) ∧
    c.bits = ExpGolomb.signedWord x ++ c'.bits ∧
    c'.position = c.position + (ExpGolomb.signedWord x).length := by
  have hue : ue element c = .ok (ExpGolomb.ofSigned x) c' ↔ _ := ue_eq_ok_iff
  rw [← ExpGolomb.ofSigned_lt_iff, ExpGolomb.signedWord, ← hue, se, map_eq_pure_bind,
    step_bind_eq_ok]
  constructor
  · rintro ⟨v, c₁, hread, hlast⟩
    cases hlast
    rwa [ExpGolomb.ofSigned_toSigned]
  · intro hread
    exact ⟨_, c', hread, by rw [ExpGolomb.toSigned_ofSigned]; rfl⟩

/-! ## Failures -/

theorem zeroRun_of_tooLong (h : List.replicate 32 false <+: c.bits) :
    zeroRun element c =
      .error (.expGolombTooLarge element) ⟨c.bits.drop 32, c.position + 32⟩ := by
  obtain ⟨rest, hbits⟩ := h
  have hrun : ((c.bits.take 32).takeWhile (!·)).length = 32 := by
    rw [← hbits, List.take_left' List.length_replicate]
    decide
  simp only [zeroRun, hrun, if_true]

theorem tooLong_of_zeroRun {e : ReadError} (h : zeroRun element c = .error e c') :
    List.replicate 32 false <+: c.bits := by
  unfold zeroRun at h
  dsimp only at h
  split at h
  · next hrun =>
    -- the run is all of the first 32 bits
    have hprefix := List.takeWhile_prefix (!·) (l := c.bits.take 32)
    have hzeros : (c.bits.take 32).takeWhile (!·) = List.replicate 32 false := by
      refine List.eq_replicate_iff.2 ⟨hrun, fun b hb => ?_⟩
      simpa using List.all_eq_true.1 List.all_takeWhile b hb
    rw [← hzeros]
    exact hprefix.trans (List.take_prefix 32 c.bits)
  · cases h

theorem uint_eq_error {n : Nat} {e : ReadError} (hn : n ≤ 32) (h : uint n element c = .error e c') :
    e = .endOfData element := by
  rw [uint_eq_map element hn, map_eq_pure_bind] at h
  cases hbits : bits n element c with
  | ok bs c₁ =>
    rw [bind_of_eq_ok hbits] at h
    cases h
  | error e₁ c₁ =>
    rw [bind_of_eq_error hbits] at h
    cases h
    unfold bits at hbits
    dsimp only at hbits
    split at hbits
    · cases hbits
      rfl
    · cases hbits

/-- A code fails at a run of 32 zero bits, or else where the data end. -/
theorem ue_eq_error {e : ReadError} (h : ue element c = .error e c') :
    List.replicate 32 false <+: c.bits ∧ e = .expGolombTooLarge element ∨
      ¬ List.replicate 32 false <+: c.bits ∧ e = .endOfData element := by
  cases hrun : zeroRun element c with
  | error e₁ c₁ =>
    have hlong := tooLong_of_zeroRun hrun
    rw [ue, bind_of_eq_error (zeroRun_of_tooLong hlong)] at h
    cases h
    exact .inl ⟨hlong, rfl⟩
  | ok k c₁ =>
    have hshort : ¬ List.replicate 32 false <+: c.bits := by
      intro hlong
      rw [zeroRun_of_tooLong hlong] at hrun
      cases hrun
    refine .inr ⟨hshort, ?_⟩
    rw [ue, bind_of_eq_ok hrun] at h
    obtain ⟨bits, pos⟩ := c₁
    cases bits with
    | nil =>
      cases h
      rfl
    | cons b rest =>
      rw [bind_of_eq_ok (flag_cons element b rest pos)] at h
      cases hlow : uint k element ⟨rest, pos + 1⟩ with
      | error e₁ c₁ =>
        rw [bind_of_eq_error hlow] at h
        cases h
        exact uint_eq_error (Nat.le_of_lt (zeroRun_eq_ok hrun).1) hlow
      | ok low c₁ =>
        rw [bind_of_eq_ok hlow] at h
        cases h

theorem ue_eq_tooLarge_iff : (∃ c', ue element c = .error (.expGolombTooLarge element) c') ↔
    List.replicate 32 false <+: c.bits := by
  constructor
  · rintro ⟨c', h⟩
    obtain ⟨hlong, -⟩ | ⟨-, he⟩ := ue_eq_error h
    · exact hlong
    · cases he
  · intro hlong
    exact ⟨_, by rw [ue, bind_of_eq_error (zeroRun_of_tooLong hlong)]⟩

theorem ue_eq_endOfData_iff : (∃ c', ue element c = .error (.endOfData element) c') ↔
    ¬ List.replicate 32 false <+: c.bits ∧
      ∀ v, v < 2 ^ 32 - 1 → ¬ ExpGolomb.word v <+: c.bits := by
  constructor
  · rintro ⟨c', h⟩
    obtain ⟨-, he⟩ | ⟨hshort, -⟩ := ue_eq_error h
    · cases he
    · refine ⟨hshort, ?_⟩
      rintro v hv ⟨rest, hbits⟩
      have hread : ue element c = .ok v ⟨rest, c.position + (ExpGolomb.word v).length⟩ :=
        ue_eq_ok_iff.2 ⟨hv, hbits.symm, rfl⟩
      rw [hread] at h
      cases h
  · rintro ⟨hshort, hnone⟩
    cases hread : ue element c with
    | ok v c' =>
      obtain ⟨hv, hbits, -⟩ := ue_eq_ok_iff.1 hread
      exact absurd ⟨c'.bits, hbits.symm⟩ (hnone v hv)
    | error e c' =>
      obtain ⟨hlong, -⟩ | ⟨-, rfl⟩ := ue_eq_error hread
      · exact absurd hlong hshort
      · exact ⟨c', rfl⟩

theorem se_of_tooLong (h : List.replicate 32 false <+: c.bits) :
    ∃ c', se element c = .error (.expGolombTooLarge element) c' := by
  obtain ⟨c', hread⟩ := ue_eq_tooLarge_iff.2 h
  exact ⟨c', by rw [se, map_eq_pure_bind, bind_of_eq_error hread]⟩

/-- Whatever bits come next, at any position: they are read as a number exactly if its code word, which
can be written, stands there; they are refused as too large exactly if 32 zero bits stand there; and else
the data end too early. The words of the first numbers that are too large are written all the same. -/
theorem ue_se_words (element : String) :
    (∀ c v c', ue element c = .ok v c' ↔ v ≤ 2 ^ 32 - 2 ∧ ∃ taken, Code.ue v = .ok taken ∧
      taken.length = 2 * Nat.log2 (v + 1) + 1 ∧ c.bits = taken ++ c'.bits ∧
      c'.position = c.position + taken.length) ∧
    (∀ c, (∃ c', ue element c = .error (.expGolombTooLarge element) c') ↔
      List.replicate 32 false <+: c.bits) ∧
    (∀ c, (∃ c', ue element c = .error (.endOfData element) c') ↔
      ¬ List.replicate 32 false <+: c.bits ∧
        ¬ ∃ v taken, v ≤ 2 ^ 32 - 2 ∧ Code.ue v = .ok taken ∧ taken <+: c.bits) ∧
    (∀ c x c', se element c = .ok x c' ↔ (-2 ^ 31 < x ∧ x < 2 ^ 31) ∧ ∃ taken,
      Code.se x = .ok taken ∧ c.bits = taken ++ c'.bits ∧
      c'.position = c.position + taken.length) ∧
    (∃ taken, Code.ue (2 ^ 32 - 1) = .ok taken ∧ ∀ rest pos, ∃ c',
      ue element ⟨taken ++ rest, pos⟩ = .error (.expGolombTooLarge element) c') ∧
    (∃ taken, Code.se (-2 ^ 31) = .ok taken ∧ ∀ rest pos, ∃ c',
      se element ⟨taken ++ rest, pos⟩ = .error (.expGolombTooLarge element) c') := by
  refine ⟨fun c v c' => ?_, fun c => ue_eq_tooLarge_iff, fun c => ?_, fun c x c' => ?_, ?_, ?_⟩
  · rw [ue_eq_ok_iff]
    constructor
    · rintro ⟨hv, hbits, hpos⟩
      exact ⟨by omega, _, rfl, ExpGolomb.length_word v, hbits, hpos⟩
    · rintro ⟨hv, _, ⟨⟩, -, hbits, hpos⟩
      exact ⟨by omega, hbits, hpos⟩
  · rw [ue_eq_endOfData_iff]
    refine and_congr_right fun _ => ⟨?_, ?_⟩
    · rintro hnone ⟨v, _, hv, ⟨⟩, hprefix⟩
      exact hnone v (by omega) hprefix
    · intro hnone v hv hprefix
      exact hnone ⟨v, _, by omega, rfl, hprefix⟩
  · rw [se_eq_ok_iff]
    refine and_congr_right fun _ => ⟨?_, ?_⟩
    · rintro ⟨hbits, hpos⟩
      exact ⟨_, rfl, hbits, hpos⟩
    · rintro ⟨_, ⟨⟩, hbits, hpos⟩
      exact ⟨hbits, hpos⟩
  · have hzeros : List.replicate 32 false <+: ExpGolomb.word (2 ^ 32 - 1) :=
      ExpGolomb.zeros_isPrefix_word (by decide)
    exact ⟨_, rfl, fun rest pos => ue_eq_tooLarge_iff.2 (hzeros.trans (List.prefix_append _ rest))⟩
  · have hzeros : List.replicate 32 false <+: ExpGolomb.signedWord (-2 ^ 31) :=
      ExpGolomb.zeros_isPrefix_word (by decide)
    exact ⟨_, rfl, fun rest pos => se_of_tooLong (hzeros.trans (List.prefix_append _ rest))⟩

end Reader

end TiledVideo
