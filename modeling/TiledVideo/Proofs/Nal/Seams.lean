import Mathlib.Data.List.DropRight
import TiledVideo.Proofs.Nal.ByteStream

/-!
# Byte streams one behind the other

A byte stream is cut at its start codes alone. None lies across the seam to a byte stream that begins
with one of its own, and the zero bytes at the seam belong to no unit. So the units found in two byte
streams, one behind the other, are those found in each of them, whatever the first one ends in.

Results:

* `units_append_zeros`: zero bytes at the end of a byte stream belong to no unit.
* `nals_append`, `nals_border`: the units of two byte streams, one behind the other.
* `mem_units`: a unit that is found can be told from what is around it.
* `nals_append_framed`: units that were found are found again behind any byte stream.
-/

namespace TiledVideo.ByteStream

/-! ## Zero bytes at the end of a byte stream -/

theorem trimZeros_append_replicate (bytes : Bytes) (n : Nat) :
    trimZeros (bytes ++ List.replicate n 0) = trimZeros bytes := by
  rw [trimZeros, List.reverse_append, List.reverse_replicate,
    List.dropWhile_append_of_pos (by simp)]
  rfl

theorem trimZeros_isPrefix (bytes : Bytes) : trimZeros bytes <+: bytes :=
  List.rdropWhile_prefix _ bytes

theorem getLast?_trimZeros (bytes : Bytes) : (trimZeros bytes).getLast? ≠ some 0 := by
  intro h
  have hne : bytes.rdropWhile (· == 0) ≠ [] := by
    intro hnil
    rw [show trimZeros bytes = [] from hnil] at h
    cases h
  have hlast := List.rdropWhile_last_not (· == 0) bytes hne
  rw [show trimZeros bytes = bytes.rdropWhile (· == 0) from rfl,
    List.getLast?_eq_getLast_of_ne_nil hne, Option.some.injEq] at h
  rw [h] at hlast
  exact hlast rfl

/-- Whether a byte string begins with a start code is seen up to its first byte that is not zero. -/
theorem hasStartCode_append_of_ne_zero {bytes : Bytes} (h : ∃ b ∈ bytes, b ≠ 0) (rest : Bytes) :
    hasStartCode (bytes ++ rest) = hasStartCode bytes := by
  have hall : ¬ ∀ b ∈ bytes, (b == 0) = true := by simpa using h
  have hdrop : bytes.dropWhile (· == 0) ≠ [] := by rwa [ne_eq, List.dropWhile_eq_nil_iff]
  have htake : bytes.takeWhile (· == 0) ≠ bytes := by
    rw [ne_eq, List.takeWhile_eq_self_iff]
    exact hall
  rw [hasStartCode, hasStartCode, List.dropWhile_append, List.takeWhile_append]
  have hlen : (bytes.takeWhile (· == 0)).length ≠ bytes.length := by
    intro hlen
    exact htake ((List.takeWhile_prefix _).eq_of_length hlen)
  rw [if_neg hlen, if_neg (by simpa using hdrop), List.head?_append_of_ne_nil _ hdrop]

/-- There is no start code in zero bytes alone. -/
theorem hasStartCode_of_zeros {bytes : Bytes} (h : ∀ b ∈ bytes, b = 0) :
    hasStartCode bytes = false := by
  rw [hasStartCode, List.dropWhile_eq_nil_iff.2 (by simpa using h)]
  simp

theorem hasStartCode_append_zeros (bytes : Bytes) (n : Nat) :
    hasStartCode (bytes ++ List.replicate n 0) = hasStartCode bytes := by
  by_cases h : ∃ b ∈ bytes, b ≠ 0
  · exact hasStartCode_append_of_ne_zero h _
  · have hzeros : ∀ b ∈ bytes, b = 0 := by simpa using h
    have hall : ∀ b ∈ bytes ++ List.replicate n 0, b = 0 := by
      intro b hb
      rcases List.mem_append.1 hb with hb | hb
      · exact hzeros b hb
      · exact List.eq_of_mem_replicate hb
    rw [hasStartCode_of_zeros hall, hasStartCode_of_zeros hzeros]

/-- Of the last piece only what is left without the zero bytes at its end counts. -/
theorem unitsAfter_concat (before : Bytes) (front : List Bytes) {a b : Bytes}
    (h : trimZeros a = trimZeros b) :
    unitsAfter before (front ++ [a]) = unitsAfter before (front ++ [b]) := by
  induction front generalizing before with
  | nil => simp only [List.nil_append, unitsAfter, h]
  | cons piece front ih => simp only [List.cons_append, unitsAfter, ih]

/-- A byte string with start codes goes up to the last one, behind which there is a last piece. -/
theorem exists_last_startCode {bytes : Bytes} (h : startCode <:+: bytes) :
    ∃ front piece, bytes = front ++ startCode ++ piece ∧ ¬ startCode <:+: piece := by
  induction bytes with
  | nil => simp [startCode] at h
  | cons b bytes ih =>
    by_cases hlater : startCode <:+: bytes
    · obtain ⟨front, piece, rfl, hpiece⟩ := ih hlater
      exact ⟨b :: front, piece, rfl, hpiece⟩
    · obtain ⟨piece, hpiece⟩ := (List.infix_cons_iff.1 h).resolve_right hlater
      refine ⟨[], piece, hpiece.symm, fun hin => hlater ?_⟩
      have htail : [0, 1] ++ piece = bytes := by
        simpa [startCode] using congrArg List.tail hpiece
      exact htail ▸ hin.trans (List.suffix_append _ _).isInfix

theorem pieces_append_last (front : Bytes) {piece : Bytes} (h : ¬ startCode <:+: piece) :
    pieces (front ++ startCode ++ piece) = ((pieces front).1, (pieces front).2 ++ [piece]) := by
  rw [pieces_append_startCode, pieces_of_noStartCode h]

/-- The units in the pieces of a byte string, also of one that does not begin with a start code. -/
def found (bytes : Bytes) : List FramedUnit :=
  unitsAfter (pieces bytes).1 (pieces bytes).2

theorem found_append_zeros (bytes : Bytes) (n : Nat) :
    found (bytes ++ List.replicate n 0) = found bytes := by
  by_cases h : startCode <:+: bytes
  · obtain ⟨front, piece, rfl, hpiece⟩ := exists_last_startCode h
    rw [found, found, List.append_assoc, pieces_append_last _ hpiece,
      pieces_append_last _ (startCode_not_infix_append_zeros hpiece n)]
    exact unitsAfter_concat _ _ (trimZeros_append_replicate piece n)
  · rw [found, found, pieces_of_noStartCode h,
      pieces_of_noStartCode (startCode_not_infix_append_zeros h n)]
    rfl

theorem units_eq_ok_iff {bytes : Bytes} {us : List FramedUnit} :
    units bytes = .ok us ↔ hasStartCode bytes = true ∧ found bytes = us := by
  rw [units]
  split
  · next h =>
    refine ⟨fun hus => ⟨h, Except.ok.inj hus⟩, ?_⟩
    rintro ⟨-, rfl⟩
    rfl
  · next h =>
    refine ⟨fun hus => ?_, fun hus => absurd hus.1 h⟩
    cases hus

/-- Zero bytes at the end of a byte stream belong to no unit. -/
theorem units_append_zeros (bytes : Bytes) (n : Nat) :
    units (bytes ++ List.replicate n 0) = units bytes := by
  have hfound := found_append_zeros bytes n
  rw [found, found] at hfound
  simp only [units, hasStartCode_append_zeros, hfound]

/-! ## Two byte streams -/

/-- The units in the pieces of a byte string, without their start codes. -/
def nals (bytes : Bytes) : List Bytes :=
  (found bytes).map (·.nal)

theorem map_nal_unitsAfter (before : Bytes) (pieces : List Bytes) :
    (unitsAfter before pieces).map (·.nal) = (pieces.map trimZeros).filter (!·.isEmpty) := by
  induction pieces generalizing before with
  | nil => rfl
  | cons piece pieces ih =>
    rw [unitsAfter, List.map_cons, List.filter_cons]
    cases h : (trimZeros piece).isEmpty with
    | true => simpa [h] using ih piece
    | false => simpa [h] using ih piece

/-- Nothing but the units of what comes in front of a start code depends on it. -/
theorem nals_append_startCode (front rest : Bytes) :
    nals (front ++ startCode ++ rest) = nals front ++ nals (startCode ++ rest) := by
  have hnone : pieces (startCode ++ rest) = ([], (pieces rest).1 :: (pieces rest).2) := rfl
  simp only [nals, found, map_nal_unitsAfter, pieces_append_startCode, hnone, List.map_append,
    List.filter_append]

theorem nals_append_zeros (bytes : Bytes) (n : Nat) :
    nals (bytes ++ List.replicate n 0) = nals bytes := by
  rw [nals, nals, found_append_zeros]

/-- The units of two byte streams, one behind the other, are those of each. -/
theorem nals_append (front : Bytes) {rest : Bytes} (h : hasStartCode rest = true) :
    nals (front ++ rest) = nals front ++ nals rest := by
  obtain ⟨n, rest, rfl⟩ := hasStartCode_iff.1 h
  have hzeros : nals (List.replicate n 0) = [] := nals_append_zeros [] n
  rw [nals_append_startCode (List.replicate n 0), hzeros, List.nil_append,
    ← List.append_assoc, ← List.append_assoc, nals_append_startCode, nals_append_zeros]

theorem hasStartCode_append {front : Bytes} (h : hasStartCode front = true) (rest : Bytes) :
    hasStartCode (front ++ rest) = true := by
  obtain ⟨n, later, rfl⟩ := hasStartCode_iff.1 h
  exact hasStartCode_iff.2 ⟨n, later ++ rest, by simp only [List.append_assoc]⟩

/-- Units are not torn apart in front of a start code or of zero bytes at the end. -/
theorem nals_border {back : Bytes} (h : hasStartCode back = true ∨ ∀ b ∈ back, b = 0) (front : Bytes) :
    nals (front ++ back) = nals front ++ nals back := by
  obtain hstart | hzeros := h
  · exact nals_append front hstart
  · have hnone : nals ([] ++ List.replicate back.length 0) = [] := nals_append_zeros [] _
    rw [List.eq_replicate_of_mem hzeros, nals_append_zeros,
      show nals (List.replicate _ 0) = [] from hnone, List.append_nil]

theorem nals_spaced {us : List (Nat × Bytes)} (hne : us ≠ []) (h : ∀ u ∈ us, Solid u.2) :
    nals (spaced us) = us.map Prod.snd := by
  obtain ⟨-, hfound⟩ := units_eq_ok_iff.1 (units_spaced hne h)
  rw [nals, hfound, List.map_map]
  rfl

theorem nals_single (zeros : Nat) {nal : Bytes} (h : Solid nal) :
    nals (List.replicate zeros 0 ++ startCode ++ nal) = [nal] := by
  have hspaced : spaced [(zeros, nal)] = List.replicate zeros 0 ++ startCode ++ nal := by
    simp [spaced]
  rw [← hspaced]
  exact nals_spaced (by simp) (by simpa using h)

/-! ## Units that were found -/

theorem noStartCode_of_mem_pieces {bytes piece : Bytes} (h : piece ∈ (pieces bytes).2) :
    ¬ startCode <:+: piece := by
  induction hlen : bytes.length using Nat.strongRecOn generalizing bytes with
  | ind length ih =>
    by_cases hin : startCode <:+: bytes
    · obtain ⟨front, last, rfl, hlast⟩ := exists_last_startCode hin
      rw [pieces_append_last front hlast] at h
      obtain h | h := List.mem_append.1 h
      · exact ih front.length (by simp [← hlen, startCode]) h rfl
      · rwa [List.mem_singleton.1 h]
    · rw [pieces_of_noStartCode hin] at h
      cases h

theorem mem_unitsAfter {before : Bytes} {pieces : List Bytes} {u : FramedUnit}
    (h : u ∈ unitsAfter before pieces) :
    (∃ piece ∈ pieces, u.nal = trimZeros piece) ∧ u.nal ≠ [] ∧ ∃ n, u = behindZeros (n, u.nal) := by
  induction pieces generalizing before with
  | nil => cases h
  | cons piece pieces ih =>
    rw [unitsAfter] at h
    split at h
    · obtain ⟨⟨later, hmem, hnal⟩, hrest⟩ := ih h
      exact ⟨⟨later, List.mem_cons_of_mem _ hmem, hnal⟩, hrest⟩
    · next hne =>
      obtain rfl | h := List.mem_cons.1 h
      · refine ⟨⟨piece, List.mem_cons_self, rfl⟩, by simpa using hne, ?_⟩
        split
        · exact ⟨1, rfl⟩
        · exact ⟨0, rfl⟩
      · obtain ⟨⟨later, hmem, hnal⟩, hrest⟩ := ih h
        exact ⟨⟨later, List.mem_cons_of_mem _ hmem, hnal⟩, hrest⟩

/-- A unit that is found can be told from what is around it. -/
theorem mem_units {bytes : Bytes} {us : List FramedUnit} (h : units bytes = .ok us) {u : FramedUnit}
    (hu : u ∈ us) : Solid u.nal ∧ ∃ n, u = behindZeros (n, u.nal) := by
  obtain ⟨-, rfl⟩ := units_eq_ok_iff.1 h
  obtain ⟨⟨piece, hmem, hnal⟩, hne, hbehind⟩ := mem_unitsAfter hu
  refine ⟨⟨?_, ?_, hne⟩, hbehind⟩
  · rw [hnal]
    exact fun hin => noStartCode_of_mem_pieces hmem (hin.trans (trimZeros_isPrefix piece).isInfix)
  · rw [hnal]
    exact getLast?_trimZeros piece

/-- Units that were found, with the start codes that they had, are found again behind any byte
stream. -/
theorem nals_append_framed (front : Bytes) {us : List FramedUnit}
    (h : ∀ u ∈ us, Solid u.nal ∧ ∃ n, u = behindZeros (n, u.nal)) :
    nals (front ++ us.flatMap (·.framed)) = nals front ++ us.map (·.nal) := by
  induction us generalizing front with
  | nil => simp
  | cons u us ih =>
    obtain ⟨⟨hsolid, n, hu⟩, hlater⟩ := List.forall_mem_cons.1 h
    have hstart : hasStartCode u.framed = true := by
      rw [hu]
      exact hasStartCode_iff.2 ⟨min n 1, u.nal, rfl⟩
    have hown : nals u.framed = [u.nal] := by
      rw [hu]
      exact nals_single (min n 1) hsolid
    rw [List.flatMap_cons, ← List.append_assoc, ih _ hlater, nals_append front hstart, hown,
      List.append_assoc]
    rfl

end TiledVideo.ByteStream
