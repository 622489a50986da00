import TiledVideo.ParamSet.RefPicSet
import TiledVideo.Proofs.Bitstream.Elements

/-!
# Reading back short-term reference picture sets

A set is written in the form in which it was coded, and the pictures in it follow from that form and
from the sets before it. So a set is read back if the sets before it are the same.

Results:

* `RefPicSet.reads`: one set, which may be predicted from earlier ones.
* `RefPicSet.reads_all`: the sets of a sequence parameter set.
-/

namespace TiledVideo.RefPicSet

open Reader

/-! ## Parts of a set -/

theorem reads_choice {c : RefPicChoice} (h : parseChoice.Produces c) :
    parseChoice.Reads (encodeChoice c) c := by
  obtain ⟨used, -, h⟩ := h.bind
  obtain ⟨kept, hkept, h⟩ := h.bind
  obtain rfl := h.pure
  exact (reads_flag _ _).cons <|
    (Reads.optionalD (fun _ => reads_flag _ _) hkept.optionalD.2).cons <|
    reads_nil _

theorem reads_gap {gapElement usedElement : String} {g : RefPicGap}
    (h : (parseGap gapElement usedElement).Produces g) :
    (parseGap gapElement usedElement).Reads (encodeGap g) g := by
  obtain ⟨delta, hdelta, h⟩ := h.bind
  obtain ⟨used, -, h⟩ := h.bind
  obtain rfl := h.pure
  exact hdelta.reads_ue.cons <| (reads_flag _ _).cons <| reads_nil _

/-! ## One set -/

variable {index count : Nat} {sets : List RefPicSet} {s : RefPicSet}

/-- A set that is predicted has a place behind the first one and is written in full. -/
theorem reads_inter (h : (parseInter index count sets).Produces s) (hindex : index ≠ 0) :
    (parse index count sets).Reads (s.encode index count) s := by
  obtain ⟨deltaIdx, hdeltaIdx, h⟩ := h.bind
  obtain ⟨reference, hreference, h⟩ := h.bind
  obtain ⟨negative, -, h⟩ := h.bind
  obtain ⟨absDelta, habsDelta, h⟩ := h.bind
  obtain ⟨_, hle, h⟩ := h.bind
  obtain ⟨choices, hchoices, h⟩ := h.bind
  obtain rfl := h.pure
  obtain ⟨hdelta, hdeltaAbsent⟩ := hdeltaIdx.optionalD
  obtain ⟨hlen, hmem⟩ := Produces.times hchoices
  have hnonzero : (index != 0) = true := by simpa using hindex
  unfold parse
  rw [hnonzero]
  exact Reads.ensure_cons hnonzero <|
    ((reads_flag _ true).mapError _).cons <|
    (Reads.optionalD (fun hp => (hdelta hp).mapError.reads_ue.mapError _) hdeltaAbsent).cons <|
    Reads.require_bind hreference.require <|
    ((reads_flag _ _).mapError _).cons <|
    (habsDelta.mapError.reads_ue.mapError _).cons <|
    Reads.ensure_bind hle.ensure <|
    (Reads.times hlen fun a ha => (reads_choice (hmem a ha).mapError).mapError _).cons <|
    reads_nil _

theorem reads_explicit (h : parseExplicit.Produces s) :
    (parse index count sets).Reads (s.encode index count) s := by
  obtain ⟨numBefore, hnumBefore, h⟩ := h.bind
  obtain ⟨numAfter, hnumAfter, h⟩ := h.bind
  obtain ⟨_, hbeforeLe, h⟩ := h.bind
  obtain ⟨_, hafterLe, h⟩ := h.bind
  obtain ⟨before, hbefore, h⟩ := h.bind
  obtain ⟨after, hafter, h⟩ := h.bind
  obtain rfl := h.pure
  obtain ⟨rfl, hbeforeMem⟩ := hbefore.times
  obtain ⟨rfl, hafterMem⟩ := hafter.times
  exact (Reads.optionalD (fun _ => (reads_flag _ false).mapError _) fun _ => rfl).cons <|
    (hnumBefore.mapError.reads_ue.mapError _).cons <|
    (hnumAfter.mapError.reads_ue.mapError _).cons <|
    Reads.ensure_bind hbeforeLe.ensure <|
    Reads.ensure_bind hafterLe.ensure <|
    (Reads.times rfl fun a ha => (reads_gap (hbeforeMem a ha).mapError).mapError _).cons <|
    (Reads.times rfl fun a ha => (reads_gap (hafterMem a ha).mapError).mapError _).cons <|
    reads_nil _

/-- A set is read back behind the sets that it was read behind. -/
theorem reads (h : (parse index count sets).Produces s) :
    (parse index count sets).Reads (s.encode index count) s := by
  obtain ⟨inter, hinter, h⟩ := h.bind
  cases inter with
  | true =>
    refine reads_inter h fun hindex => ?_
    subst hindex
    cases hinter.optionalD.2 rfl
  | false => exact reads_explicit h

/-! ## All sets -/

/-- The sets after `sets` are read back, one after the other. -/
theorem reads_from {n : Nat} {all : List RefPicSet} (h : (parseFrom count n sets).Produces all) :
    ∃ later, all = sets ++ later ∧ later.length = n ∧
      (parseFrom count n sets).Reads
        (.concat (later.mapIdx fun i s => s.encode (sets.length + i) count)) all := by
  induction n generalizing sets with
  | zero =>
    obtain rfl := h.pure
    exact ⟨[], (List.append_nil _).symm, rfl, reads_nil _⟩
  | succ n ih =>
    obtain ⟨set, hset, h⟩ := h.bind
    obtain ⟨later, hall, hlen, hread⟩ := ih h
    refine ⟨set :: later, by simp [hall], by simp [hlen], ?_⟩
    rw [List.mapIdx_cons]
    simp only [List.length_append, List.length_singleton, Nat.add_assoc, Nat.add_comm 1] at hread
    exact (reads hset).cons hread

/-- The sets of a sequence parameter set are read back. -/
theorem reads_all {all : List RefPicSet} (h : (parseAll count).Produces all) :
    all.length = count ∧ (parseAll count).Reads (encodeAll all) all := by
  obtain ⟨later, hall, rfl, hread⟩ := reads_from h
  obtain rfl : all = later := hall
  simp only [List.length_nil, Nat.zero_add] at hread
  exact ⟨rfl, hread⟩

end TiledVideo.RefPicSet
