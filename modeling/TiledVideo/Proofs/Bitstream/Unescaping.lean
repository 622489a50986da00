import TiledVideo.Proofs.Bitstream.Escaping

/-!
# Unescaping any byte string

Two zero bytes with a byte `03` behind them are looked for from the front on, and the search goes on
behind the `03`. The standard describes a decoder that takes one byte at a time and counts zero bytes.
Both leave out the same bytes of every byte string, also of one that no writer makes, where more zero
bytes may stand in front of a `03` or a large byte behind it.

Results:

* `unescape_replicate_append`: the search, with a number of zero bytes already passed.
* `escapeFrom_unescapeFrom`: sound bytes are written again as they were.
* `unescape_bytewise`: the two decoders agree, and what is written again is what is sound.
-/

namespace TiledVideo.Emulation

/-- What is left of a byte string that follows `zeros` zero bytes, if one byte is taken at a time: a
byte `03` behind two or more zero bytes is left out, and the count starts again behind it. -/
def unescapeFrom : Nat → Bytes → Bytes
  | _, [] => []
  | zeros, b :: rest =>
    if b = 3 ∧ 2 ≤ zeros then unescapeFrom 0 rest
    else b :: unescapeFrom (if b = 0 then zeros + 1 else 0) rest

/-! ## The search and the count -/

theorem replicate_succ_append (n : Nat) (s : Bytes) :
    List.replicate (n + 1) 0 ++ s = List.replicate n 0 ++ 0 :: s := by
  rw [List.replicate_succ', List.append_assoc, List.singleton_append]

/-- Zero bytes alone are all kept. -/
theorem unescape_replicate (n : Nat) :
    unescape (List.replicate n 0) = List.replicate n 0 := by
  induction n with
  | zero => rfl
  | succ n ih =>
    rw [List.replicate_succ, unescape, ih]
    rintro tail - htail
    have hmem : (3 : UInt8) ∈ List.replicate n 0 := by simp [htail]
    exact absurd (List.eq_of_mem_replicate hmem) (by decide)

/-- The search finds the last two of the zero bytes in front of a byte `03`. -/
theorem unescape_zeros_three {n : Nat} (h : 2 ≤ n) (s : Bytes) :
    unescape (List.replicate n 0 ++ 3 :: s) = List.replicate n 0 ++ unescape s := by
  obtain ⟨k, rfl⟩ := Nat.exists_eq_add_of_le' h
  clear h
  induction k with
  | zero => rfl
  | succ k ih =>
    rw [Nat.add_right_comm, List.replicate_succ, List.cons_append, unescape, ih, List.cons_append]
    rintro tail - htail
    simp [List.replicate_succ] at htail

/-- A byte that is not zero is kept behind zero bytes, unless the search finds it. -/
theorem unescape_zeros_cons {n : Nat} {b : UInt8} (hb : b ≠ 0) (h : ¬ (b = 3 ∧ 2 ≤ n)) (s : Bytes) :
    unescape (List.replicate n 0 ++ b :: s) = List.replicate n 0 ++ b :: unescape s := by
  induction n with
  | zero => exact unescape_cons_of_ne_zero hb s
  | succ n ih =>
    rw [List.replicate_succ, List.cons_append, unescape, ih fun hn => h ⟨hn.1, by omega⟩,
      List.cons_append]
    rintro tail - htail
    obtain rfl | rfl | hn : n = 0 ∨ n = 1 ∨ 2 ≤ n := by omega
    · exact hb (List.cons.inj htail).1
    · exact h ⟨(List.cons.inj (List.cons.inj htail).2).1, Nat.le_refl 2⟩
    · obtain ⟨k, rfl⟩ := Nat.exists_eq_add_of_le' hn
      simp [List.replicate_succ] at htail

theorem unescape_replicate_append (zeros : Nat) (s : Bytes) :
    unescape (List.replicate zeros 0 ++ s) = List.replicate zeros 0 ++ unescapeFrom zeros s := by
  induction s generalizing zeros with
  | nil => simp only [unescapeFrom, List.append_nil, unescape_replicate]
  | cons b s ih =>
    have ih0 : unescape s = unescapeFrom 0 s := ih 0
    rw [unescapeFrom]
    split
    · next h =>
      rw [h.1, unescape_zeros_three h.2, ih0]
    · next h =>
      by_cases hb : b = 0
      · rw [hb, if_pos rfl, ← replicate_succ_append, ih, replicate_succ_append]
      · rw [if_neg hb, unescape_zeros_cons hb h, ih0]

/-! ## Writing again -/

theorem sound_iff {bytes : Bytes} : Sound bytes ↔
    ¬ [0, 0, 0] <:+: bytes ∧ ¬ [0, 0, 1] <:+: bytes ∧ ¬ [0, 0, 2] <:+: bytes ∧
      ∀ front rest, bytes = front ++ [0, 0, 3] ++ rest →
        ∃ b behind, rest = b :: behind ∧ b ≤ 3 := by
  constructor
  · intro h
    exact ⟨h.not_contains (by decide), h.not_contains (by decide), h.not_contains (by decide),
      fun _ _ => h.escaped⟩
  · rintro ⟨h0, h1, h2, h3⟩ front b rest hbytes
    have hinfix : [0, 0, b] <:+: bytes := ⟨front, rest, by simp [hbytes]⟩
    by_cases hb : 3 < b
    · exact .inl hb
    · obtain rfl | rfl | rfl | rfl : b = 0 ∨ b = 1 ∨ b = 2 ∨ b = 3 := by
        have hle : b.toNat ≤ 3 := Nat.not_lt.1 hb
        simp only [← UInt8.toNat_inj, UInt8.reduceToNat]
        omega
      · exact absurd hinfix h0
      · exact absurd hinfix h1
      · exact absurd hinfix h2
      · exact .inr ⟨rfl, h3 front rest (by simp [hbytes])⟩

/-- Sound bytes are read and written again as they were, with zero bytes in front of them. -/
theorem escapeFrom_unescapeFrom {zeros : Nat} (hz : zeros ≤ 2) {s : Bytes}
    (h : Sound (List.replicate zeros 0 ++ s)) : escapeFrom zeros (unescapeFrom zeros s) = s := by
  induction s generalizing zeros with
  | nil => rfl
  | cons b s ih =>
    -- behind the byte, a new count begins at zero unless the byte is zero
    have hlater : Sound s := by
      intro front c rest hs
      exact h (List.replicate zeros 0 ++ b :: front) c rest (by simp [hs])
    have ih0 : escapeFrom 0 (unescapeFrom 0 s) = s := ih (Nat.zero_le 2) hlater
    have hguarded : zeros = 2 → Guarded b s := by
      rintro rfl
      exact h [] b s rfl
    by_cases hb : b = 0
    · subst hb
      have hlt : zeros ≠ 2 := fun hz2 => by
        obtain hb | ⟨hb, -⟩ := hguarded hz2
        · exact absurd hb (by decide)
        · exact absurd hb (by decide)
      have hnext : Sound (List.replicate (zeros + 1) 0 ++ s) := by rwa [replicate_succ_append]
      simp [unescapeFrom, escapeFrom, hlt, ih (by omega) hnext]
    · by_cases hz2 : zeros = 2
      · subst hz2
        obtain hlarge | ⟨rfl, c, behind, rfl, hc⟩ := hguarded rfl
        · have h3 : b ≠ 3 := fun h => absurd (h ▸ hlarge) (by decide)
          have h4 : ¬ b < 4 := fun h => absurd (Nat.le_of_lt_succ h) (Nat.not_le.2 hlarge)
          simp [unescapeFrom, escapeFrom, hb, h3, h4, ih0]
        · -- the byte behind the `03` is small, so it is given a `03` again
          have hc4 : c < 4 := Nat.lt_succ_of_le hc
          have hkept : unescapeFrom 0 (c :: behind) =
              c :: unescapeFrom (if c = 0 then 1 else 0) behind := by simp [unescapeFrom]
          rw [hkept, escapeFrom, if_neg (by simp)] at ih0
          rw [unescapeFrom, if_pos ⟨rfl, Nat.le_refl 2⟩, hkept, escapeFrom, if_pos ⟨rfl, hc4⟩, ih0]
      · have hlt : ¬ 2 ≤ zeros := by omega
        simp [unescapeFrom, escapeFrom, hb, hz2, hlt, ih0]

/-- Every byte string is unescaped as the decoder does that takes one byte at a time. What is left is
written again as it was read exactly if no two zero bytes have a `00`, `01` or `02` behind them, and a
byte of at most `03` behind each `03` that follows them. -/
theorem unescape_bytewise (bytes : Bytes) :
    unescape bytes = unescapeFrom 0 bytes ∧
    ((EscapedStream.write {} (unescape bytes)).bytes = bytes ↔
      ¬ [0, 0, 0] <:+: bytes ∧ ¬ [0, 0, 1] <:+: bytes ∧ ¬ [0, 0, 2] <:+: bytes ∧
      ∀ front rest, bytes = front ++ [0, 0, 3] ++ rest →
        ∃ b behind, rest = b :: behind ∧ b ≤ 3) := by
  have hsame : unescape bytes = unescapeFrom 0 bytes := unescape_replicate_append 0 bytes
  refine ⟨hsame, ?_⟩
  rw [← sound_iff, hsame]
  constructor
  · intro hwritten
    rw [← hwritten]
    exact sound_escape _
  · exact escapeFrom_unescapeFrom (Nat.zero_le 2)

-- three zero bytes in front of a `03`, another `03` right behind one, and one at the end
example : unescape [0, 0, 0, 3, 3, 0, 0, 3, 0, 0, 3] = [0, 0, 0, 3, 0, 0, 0, 0] := by decide

end TiledVideo.Emulation
