import TiledVideo.Proofs.ParamSet.RefPicSet
import TiledVideo.Proofs.RefPics.Derivation

/-!
# Chains of predictions

A predicted set is made from one of the earlier sets, which may be predicted itself. So each set goes back
to one that is coded by gaps, and what holds of all of them is shown along that line. A prediction moves a
set by at most `2 ^ 15` and adds at most one picture. Nothing bounds the gaps, so distances can be lost;
what is said without a limit on numbers is `exactLine`.

Results:

* `traced_of_parseAll`: each set of a sequence parameter set goes back to one that is coded by gaps.
* `Descends.eq_exactLine_iff`: when 32 bits are enough for a set and all that it goes back to.
* `Descends.exact`: with small gaps nothing is lost.
* `Exact.ordered`, `Exact.standsFor`: what the sets are where nothing is lost.
* `Descends.size_le`: how many pictures a set has.
-/

namespace TiledVideo

/-- The gaps of a set that is coded by them. -/
def RefPicSetCoding.gaps : RefPicSetCoding → List RefPicGap
  | .explicit before after => before ++ after
  | .inter _ _ _ _ => []

namespace RefPicSet

open Reader

/-! ## The sets that a set goes back to -/

/-- A set goes back to others: it is predicted from the first of them, this from the next one, and so on.
The last one is coded by gaps. -/
inductive Descends : RefPicSet → List RefPicSet → Prop where
  | explicit {before after : List RefPicGap} (hbefore : before.length ≤ 16)
      (hafter : after.length ≤ 16) : Descends (ofExplicit before after) []
  | inter {reference : RefPicSet} {older : List RefPicSet} {deltaIdxMinus1 absDeltaRpsMinus1 : Nat}
      {negative : Bool} {choices : List RefPicChoice} (hreference : Descends reference older)
      (habs : absDeltaRpsMinus1 ≤ 0x7fff) (hchoices : choices.length = reference.size + 1) :
      Descends (ofInter reference deltaIdxMinus1 negative absDeltaRpsMinus1 choices)
        (reference :: older)

/-- The set behind `skip` others and those that its prediction goes back to. The latest set of all is the
first one. -/
def ancestry : Nat → List RefPicSet → List RefPicSet
  | _, [] => []
  | skip + 1, _ :: earlier => ancestry skip earlier
  | 0, s :: earlier => s :: match s.coding with
    | .explicit _ _ => []
    | .inter deltaIdxMinus1 _ _ _ => ancestry deltaIdxMinus1 earlier

/-- The sets that the prediction of `s` goes back to. The latest of the earlier sets is the first one. -/
def origins (s : RefPicSet) (earlier : List RefPicSet) : List RefPicSet :=
  match s.coding with
  | .explicit _ _ => []
  | .inter deltaIdxMinus1 _ _ _ => ancestry deltaIdxMinus1 earlier

section Ancestry

variable {s : RefPicSet} {sets : List RefPicSet}

theorem ancestry_zero (s : RefPicSet) (earlier : List RefPicSet) :
    ancestry 0 (s :: earlier) = s :: s.origins earlier := rfl

theorem ancestry_sublist (skip : Nat) (sets : List RefPicSet) : (ancestry skip sets).Sublist sets := by
  induction sets generalizing skip with
  | nil => exact List.Sublist.refl []
  | cons s earlier ih =>
    cases skip with
    | succ skip => exact (ih skip).cons s
    | zero =>
      rw [ancestry_zero, origins]
      refine List.Sublist.cons_cons s ?_
      cases s.coding with
      | explicit before after => exact List.nil_sublist earlier
      | inter deltaIdxMinus1 _ _ _ => exact ih deltaIdxMinus1

/-- No more sets are gone back to than there are. -/
theorem length_origins_le (s : RefPicSet) (earlier : List RefPicSet) :
    (s.origins earlier).length ≤ earlier.length := by
  have := (ancestry_sublist 0 (s :: earlier)).length_le
  rw [ancestry_zero] at this
  exact Nat.le_of_succ_le_succ this

/-! ## Reading -/

/-- Each of the sets goes back to earlier ones. The latest set is the first one. -/
def Traced : List RefPicSet → Prop
  | [] => True
  | s :: earlier => Descends s (s.origins earlier) ∧ Traced earlier

theorem Traced.of_append {newer : List RefPicSet} (h : Traced (newer ++ sets)) : Traced sets := by
  induction newer with
  | nil => exact h
  | cons s newer ih => exact ih h.2

theorem Traced.ancestry_eq (h : Traced sets) {skip : Nat} (hget : sets[skip]? = some s) :
    ∃ older, ancestry skip sets = s :: older ∧ Descends s older := by
  induction sets generalizing skip with
  | nil => cases hget
  | cons t earlier ih =>
    cases skip with
    | zero =>
      obtain rfl := Option.some.inj hget
      exact ⟨t.origins earlier, rfl, h.1⟩
    | succ skip => exact ih h.2 hget

/-- A set that is read behind others goes back to some of them. -/
theorem Traced.descends (hsets : Traced sets.reverse) {count : Nat}
    (h : (parse sets.length count sets).Produces s) : Descends s (s.origins sets.reverse) := by
  obtain ⟨isInter, -, h⟩ := h.bind
  cases isInter with
  | true =>
    obtain ⟨deltaIdx, -, h⟩ := h.bind
    obtain ⟨reference, hreference, h⟩ := h.bind
    obtain ⟨negative, -, h⟩ := h.bind
    obtain ⟨absDelta, -, h⟩ := h.bind
    obtain ⟨_, habs, h⟩ := h.bind
    obtain ⟨choices, hchoices, h⟩ := h.bind
    obtain rfl := h.pure
    have hget := hreference.require
    split at hget
    case isFalse => cases hget
    case isTrue hlt =>
      have hreversed : sets.reverse[deltaIdx]? = some reference := by
        rw [List.getElem?_reverse hlt, Nat.sub_sub, Nat.add_comm 1]
        exact hget
      obtain ⟨older, holder, hdescends⟩ := hsets.ancestry_eq hreversed
      show Descends _ (ancestry deltaIdx sets.reverse)
      rw [holder]
      exact .inter hdescends (of_decide_eq_true habs.ensure) hchoices.times.1
  | false =>
    obtain ⟨numBefore, -, h⟩ := h.bind
    obtain ⟨numAfter, -, h⟩ := h.bind
    obtain ⟨_, hbefore, h⟩ := h.bind
    obtain ⟨_, hafter, h⟩ := h.bind
    obtain ⟨before, hbeforeTimes, h⟩ := h.bind
    obtain ⟨after, hafterTimes, h⟩ := h.bind
    obtain rfl := h.pure
    refine .explicit ?_ ?_
    · rw [hbeforeTimes.times.1]
      exact of_decide_eq_true hbefore.ensure
    · rw [hafterTimes.times.1]
      exact of_decide_eq_true hafter.ensure

theorem Traced.parseFrom (hsets : Traced sets.reverse) {count n : Nat} {all : List RefPicSet}
    (h : (RefPicSet.parseFrom count n sets).Produces all) : Traced all.reverse := by
  induction n generalizing sets with
  | zero =>
    obtain rfl := h.pure
    exact hsets
  | succ n ih =>
    obtain ⟨s, hs, h⟩ := h.bind
    refine ih ?_ h
    rw [List.reverse_concat]
    exact ⟨hsets.descends hs, hsets⟩

/-- Each set of a sequence parameter set goes back to earlier ones. -/
theorem traced_of_parseAll {count : Nat} {all : List RefPicSet} (h : (parseAll count).Produces all) :
    Traced all.reverse := by
  have hnone : Traced (List.reverse []) := trivial
  exact hnone.parseFrom h

end Ancestry

/-! ## Lines that are read exactly -/

/-- The sets along a line without a limit on numbers, as they are coded. -/
def exactLine : List RefPicSetCoding → List RefPicSet
  | [] => []
  | .explicit before after :: older => exactExplicit before after :: exactLine older
  | .inter deltaIdxMinus1 negative absDeltaRpsMinus1 choices :: older =>
    exactInter ((exactLine older).headD (exactExplicit [] [])) deltaIdxMinus1 negative
      absDeltaRpsMinus1 choices :: exactLine older

/-- No distance is lost along a line of sets, not even of a picture that is left out. -/
inductive Exact : RefPicSet → List RefPicSet → Prop where
  | explicit {before after : List RefPicGap} (hfits : (exactExplicit before after).Fits) :
      Exact (exactExplicit before after) []
  | inter {reference : RefPicSet} {older : List RefPicSet} {deltaIdxMinus1 absDeltaRpsMinus1 : Nat}
      {negative : Bool} {choices : List RefPicChoice} (hreference : Exact reference older)
      (hmovable : reference.Movable (offset negative absDeltaRpsMinus1))
      (hchoices : choices.length = reference.size + 1) :
      Exact (exactInter reference deltaIdxMinus1 negative absDeltaRpsMinus1 choices)
        (reference :: older)

/-- The set has the pictures that its code stands for, each with its own flag. -/
def StandsFor (s : RefPicSet) (older : List RefPicSet) : Prop :=
  match s.coding with
  | .explicit before after => s = exactExplicit before after ∧
    s.before.map (·.used) = before.map (·.used) ∧ s.after.map (·.used) = after.map (·.used)
  | .inter _ negative absDeltaRpsMinus1 choices => ∃ reference,
    older.head? = some reference ∧ choices.length = reference.size + 1 ∧
      (s.before ++ s.after).Perm
        ((placed (offset negative absDeltaRpsMinus1) (candidates reference choices)).filter
          (·.deltaPoc ≠ 0))

section Exact

variable {s t : RefPicSet} {older later : List RefPicSet}

/-- The sets that were read are the exact ones along the whole line if the exact distances fit. -/
theorem Descends.eq_exactLine_iff (h : Descends s older) :
    s :: older = exactLine ((s :: older).map (·.coding)) ↔
      ∀ e ∈ exactLine ((s :: older).map (·.coding)), e.Fits := by
  induction h with
  | @explicit before after hbefore hafter =>
    show [ofExplicit before after] = [exactExplicit before after] ↔
      ∀ e ∈ [exactExplicit before after], e.Fits
    rw [List.forall_mem_singleton, ← ofExplicit_eq_iff]
    exact ⟨fun h => (List.cons.inj h).1, fun h => congrArg (· :: []) h⟩
  | @inter reference older deltaIdx absDelta negative choices hreference habs hchoices ih =>
    generalize hline : exactLine ((reference :: older).map (·.coding)) = line at ih
    have hcons : exactLine (((ofInter reference deltaIdx negative absDelta choices) ::
        reference :: older).map (·.coding)) =
        exactInter (line.headD (exactExplicit [] [])) deltaIdx negative absDelta choices :: line := by
      rw [← hline]
      rfl
    rw [hcons, List.forall_mem_cons, ← ih, List.cons.injEq]
    -- the exact reference is the one that was read if the line behind is exact
    constructor
    · rintro ⟨hs, rfl⟩
      exact ⟨ofInter_eq_iff.1 hs, rfl⟩
    · rintro ⟨hfits, rfl⟩
      exact ⟨ofInter_eq_iff.2 hfits, rfl⟩

namespace Exact

theorem of_suffix (h : Exact s older) (hsuffix : (t :: later) <:+ (s :: older)) : Exact t later := by
  induction h with
  | explicit hfits =>
    obtain heq | hsuffix := List.suffix_cons_iff.1 hsuffix
    · obtain ⟨rfl, rfl⟩ := List.cons.inj heq
      exact .explicit hfits
    · cases List.suffix_nil.1 hsuffix
  | inter hreference hmovable hchoices ih =>
    obtain heq | hsuffix := List.suffix_cons_iff.1 hsuffix
    · obtain ⟨rfl, rfl⟩ := List.cons.inj heq
      exact .inter hreference hmovable hchoices
    · exact ih hsuffix

theorem ordered (h : Exact s older) : s.Ordered := by
  induction h with
  | explicit hfits => exact ordered_exactExplicit _ _
  | inter hreference hmovable hchoices ih => exact ih.exactInter hchoices

theorem standsFor (h : Exact s older) : s.StandsFor older := by
  cases h with
  | explicit hfits => exact ⟨rfl, map_used_spaced, map_used_spaced⟩
  | inter hreference hmovable hchoices => exact ⟨_, rfl, hchoices, perm_exactInter⟩

theorem eq_exactLine (h : Exact s older) :
    s :: older = exactLine ((s :: older).map (·.coding)) := by
  induction h with
  | explicit hfits => rfl
  | @inter reference older deltaIdx absDelta negative choices hreference hmovable hchoices ih =>
    show _ = exactInter ((exactLine ((reference :: older).map (·.coding))).headD _) deltaIdx negative
      absDelta choices :: exactLine ((reference :: older).map (·.coding))
    rw [← ih]
    rfl

end Exact

end Exact

/-! ## Small gaps -/

/-- All distances of the set are at most `bound`. -/
def Within (bound : Nat) (s : RefPicSet) : Prop :=
  ∀ p ∈ s.before ++ s.after, p.deltaPoc.natAbs ≤ bound

/-- The gaps of the set, if it is coded by them, are those that the coding standard allows. -/
def SmallGaps (s : RefPicSet) : Prop :=
  ∀ g ∈ s.coding.gaps, g.deltaPocMinus1 ≤ 0x7fff

instance (s : RefPicSet) : Decidable s.SmallGaps :=
  inferInstanceAs (Decidable (∀ _ ∈ _, _))

section Distances

variable {s reference : RefPicSet} {older : List RefPicSet} {bound absDeltaRpsMinus1 : Nat}
  {deltaIdxMinus1 : Nat} {negative : Bool} {choices : List RefPicChoice}

theorem Within.fits (h : s.Within bound) (hbound : bound < 2 ^ 31) : s.Fits := by
  intro p hp
  have := h p hp
  unfold Fits32
  omega

theorem within_exactExplicit {before after : List RefPicGap} (hbefore : before.length ≤ 16)
    (hafter : after.length ≤ 16) (hgaps : ∀ g ∈ before ++ after, g.deltaPocMinus1 ≤ 0x7fff) :
    (exactExplicit before after).Within (16 * 2 ^ 15) := by
  have hside : ∀ {direction : Int} {gs : List RefPicGap}, direction * direction = 1 →
      gs.length ≤ 16 → (∀ g ∈ gs, g.deltaPocMinus1 ≤ 0x7fff) → ∀ p ∈ spaced direction 0 gs,
      0 < direction * p.deltaPoc ∧ direction * p.deltaPoc ≤ 16 * 2 ^ 15 := by
    intro direction gs hdirection hlength hgaps p hp
    have hlt := lt_of_mem_spaced hdirection hp
    have hle := le_of_mem_spaced hdirection (fun g hg => Nat.succ_le_succ (hgaps g hg)) hp
    omega
  intro p hp
  obtain hp | hp := List.mem_append.1 hp
  · have := hside (by decide) hbefore (fun g hg => hgaps g (List.mem_append_left _ hg)) p hp
    omega
  · have := hside (by decide) hafter (fun g hg => hgaps g (List.mem_append_right _ hg)) p hp
    omega

/-- A prediction moves all pictures by at most `2 ^ 15`. -/
theorem Within.moved (h : reference.Within bound) (habs : absDeltaRpsMinus1 ≤ 0x7fff) {q : RefPic}
    (hq : q ∈ reference.sources) :
    (q.deltaPoc + offset negative absDeltaRpsMinus1).natAbs ≤ bound + 2 ^ 15 := by
  have hoffset : (offset negative absDeltaRpsMinus1).natAbs ≤ 2 ^ 15 := by
    unfold offset
    split <;> omega
  obtain hq | hq := List.mem_append.1 hq
  · have := h q hq
    omega
  · obtain rfl := List.mem_singleton.1 hq
    show (0 + offset negative absDeltaRpsMinus1).natAbs ≤ bound + 2 ^ 15
    omega

theorem Within.movable (h : reference.Within bound) (habs : absDeltaRpsMinus1 ≤ 0x7fff)
    (hbound : bound + 2 ^ 15 < 2 ^ 31) :
    reference.Movable (offset negative absDeltaRpsMinus1) := by
  intro q hq
  have hle : (q.deltaPoc + offset negative absDeltaRpsMinus1).natAbs ≤ bound + 2 ^ 15 :=
    h.moved habs hq
  unfold Fits32
  omega

theorem Within.exactInter (h : reference.Within bound) (habs : absDeltaRpsMinus1 ≤ 0x7fff) :
    (exactInter reference deltaIdxMinus1 negative absDeltaRpsMinus1 choices).Within
      (bound + 2 ^ 15) := by
  intro p hp
  obtain ⟨q, hq, heq⟩ := mem_exactInter hp
  rw [heq]
  exact h.moved habs hq

/-- With small gaps nothing is lost, as lines are too short to get far away. -/
theorem Descends.exact (h : Descends s older) (hsmall : ∀ t ∈ s :: older, t.SmallGaps)
    (hlength : older.length ≤ 64) : Exact s older ∧ s.Within ((16 + older.length) * 2 ^ 15) := by
  induction h with
  | explicit hbefore hafter =>
    have hwithin := within_exactExplicit hbefore hafter (hsmall _ List.mem_cons_self)
    have hfits := hwithin.fits (by decide)
    rw [ofExplicit_eq_iff.2 hfits]
    exact ⟨.explicit hfits, hwithin⟩
  | @inter reference older deltaIdx absDelta negative choices hreference habs hchoices ih =>
    rw [List.length_cons] at hlength ⊢
    obtain ⟨hexact, hwithin⟩ := ih (fun t ht => hsmall t (List.mem_cons_of_mem _ ht)) (by omega)
    have hmovable : reference.Movable (offset negative absDelta) :=
      hwithin.movable habs (by omega)
    rw [ofInter_eq hmovable]
    refine ⟨.inter hexact hmovable hchoices, ?_⟩
    have hbound : (16 + (older.length + 1)) * 2 ^ 15 = (16 + older.length) * 2 ^ 15 + 2 ^ 15 := by
      omega
    rw [hbound]
    exact hwithin.exactInter habs

end Distances

/-! ## Counts -/

/-- A set has at most as many pictures as the set that is coded by gaps and one more for each
prediction. -/
theorem Descends.size_le {s : RefPicSet} {older : List RefPicSet} (h : Descends s older) :
    ∃ root, (s :: older).getLast? = some root ∧ root.before.length ≤ 16 ∧ root.after.length ≤ 16 ∧
      s.size ≤ root.size + older.length := by
  induction h with
  | @explicit before after hbefore hafter =>
    refine ⟨ofExplicit before after, rfl, ?_, ?_, Nat.le_refl _⟩
    · exact Nat.le_trans (Nat.le_of_eq length_ofGaps) hbefore
    · exact Nat.le_trans (Nat.le_of_eq length_ofGaps) hafter
  | @inter reference older deltaIdx absDelta negative choices hreference habs hchoices ih =>
    obtain ⟨root, hroot, hbefore, hafter, hsize⟩ := ih
    refine ⟨root, ?_, hbefore, hafter, ?_⟩
    · rw [List.getLast?_cons_cons]
      exact hroot
    · have hstep : (ofInter reference deltaIdx negative absDelta choices).size ≤
          reference.size + 1 := size_ofInter_le hchoices
      rw [List.length_cons]
      omega

end RefPicSet

end TiledVideo
