import TiledVideo.Nal.ByteStream
import TiledVideo.Proofs.Bitstream.Escaping

/-!
# Units found in a byte stream

A unit that has no start code in it and does not end in a zero byte is found in a byte stream as it
was put in, however many zero bytes are in front of its start code. Escaping makes a unit so.

Results:

* `startCode_not_infix_escape`: there is no start code in what is escaped.
* `units_spaced`: the units found are those put in, each with one of the zero bytes in front of it.
* `units_framedAll`: the same for units that all have long start codes.
-/

namespace TiledVideo

/-! ## No start code in a unit -/

theorem startCode_prefix_cons_iff {a : UInt8} {bytes : Bytes} :
    startCode <+: a :: bytes ↔ a = 0 ∧ ([0, 1] : Bytes) <+: bytes := by
  rw [startCode, List.cons_prefix_cons, eq_comm]

theorem startCode_not_infix_cons_of_ne {a : UInt8} (ha : a ≠ 0) {bytes : Bytes} :
    ¬ startCode <:+: a :: bytes ↔ ¬ startCode <:+: bytes := by
  rw [List.infix_cons_iff, startCode_prefix_cons_iff]
  simp [ha]

theorem startCode_not_infix_escape (payload : Bytes) :
    ¬ startCode <:+: Emulation.escape payload :=
  (Emulation.sound_escape payload).not_contains (by decide)

/-- The last byte stays the last one. -/
theorem escape_concat (payload : Bytes) (b : UInt8) :
    ∃ front, Emulation.escape (payload ++ [b]) = front ++ [b] := by
  rw [Emulation.escape, Emulation.escapeFrom_append]
  generalize Emulation.zerosAfter 0 payload = zeros
  simp only [Emulation.escapeFrom]
  split
  · exact ⟨Emulation.escapeFrom 0 payload ++ [3], by simp⟩
  · exact ⟨_, rfl⟩

namespace ByteStream

/-! ## Pieces between start codes -/

/-- A unit that can be told from what is around it in a byte stream. -/
structure Solid (nal : Bytes) : Prop where
  noStartCode : ¬ startCode <:+: nal
  last : nal.getLast? ≠ some 0
  nonempty : nal ≠ []

/-- Units with start codes, each behind a number of zero bytes. -/
def spaced (units : List (Nat × Bytes)) : Bytes :=
  units.flatMap fun u => List.replicate u.1 0 ++ startCode ++ u.2

/-- The zero bytes in front of the first start code, which end the piece before it. -/
def lead : List (Nat × Bytes) → Bytes
  | [] => []
  | u :: _ => List.replicate u.1 0

/-- The pieces that units make in a byte stream. -/
def paddedPieces : List (Nat × Bytes) → List Bytes
  | [] => []
  | u :: us => (u.2 ++ lead us) :: paddedPieces us

theorem pieces_of_noStartCode {bytes : Bytes} (h : ¬ startCode <:+: bytes) :
    pieces bytes = (bytes, []) := by
  induction bytes with
  | nil => rfl
  | cons a bytes ih =>
    rw [pieces, ih fun hin => h (List.infix_cons hin)]
    rintro tail rfl rfl
    exact h (List.prefix_append startCode tail).isInfix

/-- A start code ends the piece in front of it and begins another one, whatever comes before. -/
theorem pieces_append_startCode (front rest : Bytes) :
    pieces (front ++ startCode ++ rest) =
      ((pieces front).1, (pieces front).2 ++ (pieces rest).1 :: (pieces rest).2) := by
  induction front using pieces.induct with
  | case1 front piece later hfront ih =>
    show pieces (0 :: 0 :: 1 :: (front ++ startCode ++ rest)) = _
    rw [pieces, ih, pieces]
    rfl
  | case2 b front hstart piece later hfront ih =>
    -- a start code that began here would be in front or go on with the zero bytes behind it
    have hstart' : ∀ tail, b = 0 → front ++ startCode ++ rest = 0 :: 1 :: tail → False := by
      rintro tail rfl htail
      match front, htail with
      | [], htail | [_], htail => simp [startCode] at htail
      | c :: d :: front, htail =>
        simp only [List.cons_append, List.cons.injEq] at htail
        obtain ⟨rfl, rfl, -⟩ := htail
        exact hstart front rfl rfl
    rw [List.cons_append, List.cons_append, pieces, ih, pieces]
    · exact hstart
    · exact hstart'
  | case3 => rfl

/-- Zero bytes do not complete a start code. -/
theorem startCode_not_infix_append_zeros {bytes : Bytes} (h : ¬ startCode <:+: bytes) (n : Nat) :
    ¬ startCode <:+: bytes ++ List.replicate n 0 := by
  induction n with
  | zero => rwa [List.replicate_zero, List.append_nil]
  | succ n ih =>
    rw [List.replicate_succ', ← List.append_assoc, List.infix_concat_iff]
    rintro (hsuffix | hinfix)
    · have hlast := hsuffix.getLast (by decide)
      simp [startCode] at hlast
    · exact ih hinfix

theorem pieces_spaced {front : Bytes} (hfront : ¬ startCode <:+: front)
    {us : List (Nat × Bytes)} (h : ∀ u ∈ us, Solid u.2) :
    pieces (front ++ spaced us) = (front ++ lead us, paddedPieces us) := by
  induction us generalizing front with
  | nil =>
    rw [spaced, List.flatMap_nil, lead, List.append_nil]
    exact pieces_of_noStartCode hfront
  | cons u us ih =>
    have hu := h u List.mem_cons_self
    have hnext := ih hu.noStartCode fun v hv => h v (List.mem_cons_of_mem _ hv)
    have hpiece := startCode_not_infix_append_zeros hfront u.1
    have hsplit : front ++ spaced (u :: us) =
        front ++ List.replicate u.1 0 ++ startCode ++ (u.2 ++ spaced us) := by
      simp only [spaced, List.flatMap_cons, List.append_assoc]
    rw [hsplit, pieces_append_startCode, pieces_of_noStartCode hpiece, hnext]
    rfl

/-! ## Units in pieces -/

theorem trimZeros_append_zeros {nal : Bytes} (h : nal.getLast? ≠ some 0) (n : Nat) :
    trimZeros (nal ++ List.replicate n 0) = nal := by
  rw [trimZeros, List.reverse_append, List.reverse_replicate,
    List.dropWhile_append_of_pos (by simp)]
  cases hrev : nal.reverse with
  | nil => simpa using hrev.symm
  | cons b front =>
    have hb : (b == 0) = false := by
      rw [← List.head?_reverse, hrev] at h
      simpa using h
    rw [List.dropWhile_cons, hb, ← hrev]
    exact List.reverse_reverse nal

theorem trimZeros_append_lead {nal : Bytes} (h : nal.getLast? ≠ some 0) (us : List (Nat × Bytes)) :
    trimZeros (nal ++ lead us) = nal := by
  cases us with
  | nil => exact trimZeros_append_zeros h 0
  | cons u us => exact trimZeros_append_zeros h u.1

/-- The unit found behind zero bytes and a start code, to which the last zero byte counts. -/
def behindZeros (u : Nat × Bytes) : FramedUnit :=
  ⟨List.replicate (min u.1 1) 0 ++ startCode ++ u.2, u.2⟩

theorem zeroByte_append_zeros {before : Bytes} (h : before.getLast? ≠ some 0) (n : Nat) :
    (if (before ++ List.replicate n 0).getLast? = some 0 then [0] else []) =
      List.replicate (min n 1) (0 : UInt8) := by
  cases n with
  | zero => simp [h]
  | succ n => simp [List.getLast?_append, List.getLast?_replicate]

theorem unitsAfter_paddedPieces {before : Bytes} (hbefore : before.getLast? ≠ some 0)
    {us : List (Nat × Bytes)} (h : ∀ u ∈ us, Solid u.2) :
    unitsAfter (before ++ lead us) (paddedPieces us) = us.map behindZeros := by
  induction us generalizing before with
  | nil => rfl
  | cons u us ih =>
    have hu := h u List.mem_cons_self
    have hempty : u.2.isEmpty = false := by simpa using hu.nonempty
    have hnext := ih hu.last fun v hv => h v (List.mem_cons_of_mem _ hv)
    rw [paddedPieces, unitsAfter, trimZeros_append_lead hu.last, hempty, hnext, lead,
      zeroByte_append_zeros hbefore]
    rfl

/-! ## Byte streams of units -/

theorem replicate_append_startCode (n : Nat) (rest : Bytes) :
    List.replicate n 0 ++ startCode ++ rest = List.replicate (n + 2) 0 ++ 1 :: rest := by
  rw [← List.replicate_append_replicate, List.append_assoc, List.append_assoc]
  rfl

theorem hasStartCode_iff {bytes : Bytes} : hasStartCode bytes = true ↔
    ∃ n rest, bytes = List.replicate n 0 ++ startCode ++ rest := by
  simp only [hasStartCode, Bool.and_eq_true, decide_eq_true_eq, beq_iff_eq]
  constructor
  · rintro ⟨hzeros, hone⟩
    obtain ⟨rest, hrest⟩ := List.head?_eq_some_iff.1 hone
    have htake : bytes.takeWhile (· == 0) =
        List.replicate (bytes.takeWhile (· == 0)).length 0 := by
      refine List.eq_replicate_iff.2 ⟨rfl, fun b hb => ?_⟩
      simpa using List.all_eq_true.1 (List.all_takeWhile) b hb
    refine ⟨(bytes.takeWhile (· == 0)).length - 2, rest, ?_⟩
    rw [replicate_append_startCode, Nat.sub_add_cancel hzeros, ← htake, ← hrest]
    exact List.takeWhile_append_dropWhile.symm
  · rintro ⟨n, rest, rfl⟩
    have hzeros : ∀ b ∈ List.replicate (n + 2) (0 : UInt8), (b == 0) = true := by simp
    rw [replicate_append_startCode, List.takeWhile_append_of_pos hzeros,
      List.dropWhile_append_of_pos hzeros]
    simp

theorem hasStartCode_spaced {us : List (Nat × Bytes)} (hne : us ≠ []) :
    hasStartCode (spaced us) = true := by
  obtain ⟨u, us, rfl⟩ := List.exists_cons_of_ne_nil hne
  refine hasStartCode_iff.2 ⟨u.1, u.2 ++ spaced us, ?_⟩
  simp only [spaced, List.flatMap_cons, List.append_assoc]

/-- The units found are those put in, each with at most one of the zero bytes in front of it. -/
theorem units_spaced {us : List (Nat × Bytes)} (hne : us ≠ []) (h : ∀ u ∈ us, Solid u.2) :
    units (spaced us) = .ok (us.map behindZeros) := by
  have hpieces : pieces ([] ++ spaced us) = _ := pieces_spaced (by decide) h
  have hunits : unitsAfter ([] ++ lead us) _ = _ := unitsAfter_paddedPieces (by decide) h
  rw [List.nil_append] at hpieces hunits
  rw [units, if_pos (hasStartCode_spaced hne), hpieces]
  exact congrArg Except.ok hunits

/-- Units with long start codes. -/
def framedAll (nals : List Bytes) : Bytes :=
  nals.flatMap fun nal => 0 :: startCode ++ nal

/-- The units found are those put in, each with its long start code. -/
theorem units_framedAll {nals : List Bytes} (hne : nals ≠ []) (h : ∀ nal ∈ nals, Solid nal) :
    units (framedAll nals) = .ok (nals.map fun nal => ⟨0 :: startCode ++ nal, nal⟩) := by
  have hspaced : framedAll nals = spaced (nals.map (1, ·)) := by
    rw [spaced, List.flatMap_map]
    rfl
  rw [hspaced, units_spaced (by simpa using hne) (by simpa using h), List.map_map]
  rfl

end ByteStream

end TiledVideo
