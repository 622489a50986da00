import Mathlib.Data.List.Perm.Basic
import TiledVideo.ParamSet.RefPicSet

/-!
# What a reference picture set stands for

The distances of a set are sums of gaps, or those of another set moved by an offset. They are told here
without a limit on numbers. What is computed with 32 bits is what is left of them, so it is the same
exactly if all distances fit.

A predicted set is made from one line of pictures in output order: those of the reference and the picture
that it belongs to. The line is moved, and divided at the current picture. So the set is in order if the
reference is.

Results:

* `ofExplicit_eq_iff`, `ofInter_eq_iff`: when 32 bits are enough for a set.
* `ordered_exactExplicit`, `Ordered.exactInter`: the order of the pictures in a set.
* `perm_exactInter`: the pictures of a predicted set are those that are kept.
* `length_before_ofInter`, `length_after_ofInter`, `size_ofInter_le`: how many there are.
-/

namespace TiledVideo

/-! ## Distances of 32 bits -/

/-- The number is one of 32 bits with a sign. -/
def Fits32 (x : Int) : Prop :=
  -2 ^ 31 ≤ x ∧ x < 2 ^ 31

instance (x : Int) : Decidable (Fits32 x) :=
  inferInstanceAs (Decidable (_ ∧ _))

theorem fits32_wrap32 (x : Int) : Fits32 (wrap32 x) := by
  have hle := Int.le_bmod (x := x) (m := 2 ^ 32) (by decide)
  have hlt := Int.bmod_lt (x := x) (m := 2 ^ 32) (by decide)
  unfold Fits32 wrap32
  omega

theorem wrap32_eq_self_iff {x : Int} : wrap32 x = x ↔ Fits32 x := by
  constructor
  · intro h
    rw [← h]
    exact fits32_wrap32 x
  · rintro ⟨hle, hlt⟩
    exact Int.bmod_eq_of_le_mul_two (by omega) (by omega)

/-- The picture at the distance that 32 bits hold of its own. -/
def RefPic.wrapped (p : RefPic) : RefPic :=
  { p with deltaPoc := wrap32 p.deltaPoc }

theorem RefPic.wrapped_eq_self_iff {p : RefPic} : p.wrapped = p ↔ Fits32 p.deltaPoc := by
  rw [← wrap32_eq_self_iff]
  constructor
  · exact fun h => congrArg RefPic.deltaPoc h
  · intro h
    rw [RefPic.wrapped, h]

namespace RefPicSet

/-- All distances of the set are numbers of 32 bits. -/
def Fits (s : RefPicSet) : Prop :=
  ∀ p ∈ s.before ++ s.after, Fits32 p.deltaPoc

instance (s : RefPicSet) : Decidable s.Fits :=
  inferInstanceAs (Decidable (∀ _ ∈ _, _))

theorem map_wrapped_eq_self_iff {pics : List RefPic} :
    pics.map RefPic.wrapped = pics ↔ ∀ p ∈ pics, Fits32 p.deltaPoc := by
  conv_lhs => rhs; rw [← List.map_id pics]
  rw [List.map_inj_left]
  exact forall₂_congr fun p _ => RefPic.wrapped_eq_self_iff

/-- The pictures before and after the current one are in order, the nearest first. -/
structure Ordered (s : RefPicSet) : Prop where
  before_neg : ∀ p ∈ s.before, p.deltaPoc < 0
  before_decreasing : s.before.Pairwise fun p q => q.deltaPoc < p.deltaPoc
  after_pos : ∀ p ∈ s.after, 0 < p.deltaPoc
  after_increasing : s.after.Pairwise fun p q => p.deltaPoc < q.deltaPoc

/-! ## Sets that are coded by gaps -/

/-- The pictures that are `direction` times the sum of the gaps up to theirs away from `poc`. -/
def spaced (direction : Int) : Int → List RefPicGap → List RefPic
  | _, [] => []
  | poc, g :: gs =>
    let next := poc + direction * (g.deltaPocMinus1 + 1)
    ⟨next, g.used⟩ :: spaced direction next gs

/-- The set that is coded by gaps, without a limit on distances. -/
def exactExplicit (before after : List RefPicGap) : RefPicSet where
  coding := .explicit before after
  before := spaced (-1) 0 before
  after := spaced 1 0 after

section Gaps

variable {direction poc : Int} {gs before after : List RefPicGap}

theorem direction_mul_next (hdirection : direction * direction = 1) (poc : Int) (g : RefPicGap) :
    direction * (poc + direction * (g.deltaPocMinus1 + 1)) =
      direction * poc + (g.deltaPocMinus1 + 1) := by
  rw [Int.mul_add, ← Int.mul_assoc, hdirection, Int.one_mul]

theorem ofGaps_eq : ofGaps direction poc gs = (spaced direction poc gs).map RefPic.wrapped := by
  induction gs generalizing poc with
  | nil => rfl
  | cons g gs ih =>
    rw [ofGaps, spaced, List.map_cons, ih]
    rfl

theorem map_used_spaced : (spaced direction poc gs).map (·.used) = gs.map (·.used) := by
  induction gs generalizing poc with
  | nil => rfl
  | cons g gs ih => rw [spaced, List.map_cons, ih, List.map_cons]

theorem length_ofGaps : (ofGaps direction poc gs).length = gs.length := by
  induction gs generalizing poc with
  | nil => rfl
  | cons g gs ih => rw [ofGaps, List.length_cons, ih, List.length_cons]

/-- Each picture is further away than the start, in the direction of the gaps. -/
theorem lt_of_mem_spaced (hdirection : direction * direction = 1) {p : RefPic}
    (hp : p ∈ spaced direction poc gs) : direction * poc < direction * p.deltaPoc := by
  induction gs generalizing poc with
  | nil => exact absurd hp List.not_mem_nil
  | cons g gs ih =>
    have hnext := direction_mul_next hdirection poc g
    obtain rfl | hp := List.mem_cons.1 hp
    · show direction * poc < direction * (poc + direction * (g.deltaPocMinus1 + 1))
      omega
    · have := ih hp
      omega

/-- If no gap is larger than `gap`, no picture is further away than all gaps of that size together. -/
theorem le_of_mem_spaced (hdirection : direction * direction = 1) {gap : Nat}
    (hgap : ∀ g ∈ gs, g.deltaPocMinus1 + 1 ≤ gap) {p : RefPic} (hp : p ∈ spaced direction poc gs) :
    direction * p.deltaPoc ≤ direction * poc + (gs.length * gap : Nat) := by
  induction gs generalizing poc with
  | nil => exact absurd hp List.not_mem_nil
  | cons g gs ih =>
    have hnext := direction_mul_next hdirection poc g
    have hfirst := hgap g List.mem_cons_self
    have hlength : (g :: gs).length * gap = gs.length * gap + gap := Nat.succ_mul _ _
    obtain rfl | hp := List.mem_cons.1 hp
    · show direction * (poc + direction * (g.deltaPocMinus1 + 1)) ≤ _
      omega
    · have := ih (fun g' hg' => hgap g' (List.mem_cons_of_mem g hg')) hp
      omega

theorem pairwise_spaced (hdirection : direction * direction = 1) :
    (spaced direction poc gs).Pairwise fun p q => direction * p.deltaPoc < direction * q.deltaPoc := by
  induction gs generalizing poc with
  | nil => exact .nil
  | cons g gs ih => exact .cons (fun p hp => lt_of_mem_spaced hdirection hp) ih

theorem ordered_exactExplicit (before after : List RefPicGap) :
    (exactExplicit before after).Ordered where
  before_neg p hp := by
    have := lt_of_mem_spaced (by decide) hp
    omega
  before_decreasing := (pairwise_spaced (by decide)).imp fun h => by omega
  after_pos p hp := by
    have := lt_of_mem_spaced (by decide) hp
    omega
  after_increasing := (pairwise_spaced (by decide)).imp fun h => by omega

theorem fits_ofExplicit (before after : List RefPicGap) : (ofExplicit before after).Fits := by
  intro p hp
  have hwrapped : ∀ {direction : Int} {gs : List RefPicGap}, p ∈ ofGaps direction 0 gs →
      Fits32 p.deltaPoc := by
    intro direction gs hp
    rw [ofGaps_eq] at hp
    obtain ⟨q, -, rfl⟩ := List.mem_map.1 hp
    exact fits32_wrap32 _
  exact (List.mem_append.1 hp).elim hwrapped hwrapped

/-- The set that is coded by gaps has the exact distances if they fit. -/
theorem ofExplicit_eq_iff : ofExplicit before after = exactExplicit before after ↔
    (exactExplicit before after).Fits := by
  constructor
  · intro h
    rw [← h]
    exact fits_ofExplicit before after
  · intro hfits
    have hbefore := map_wrapped_eq_self_iff.2 fun p hp => hfits p (List.mem_append_left _ hp)
    have hafter := map_wrapped_eq_self_iff.2 fun p hp => hfits p (List.mem_append_right _ hp)
    rw [ofExplicit, ofGaps_eq, ofGaps_eq]
    exact congr_arg₂ (RefPicSet.mk _) hbefore hafter

end Gaps

/-! ## The line of pictures -/

/-- The set of the pictures on a line in output order, without the current one itself. -/
def ofLine (coding : RefPicSetCoding) (line : List RefPic) : RefPicSet where
  coding := coding
  before := (line.filter (·.deltaPoc < 0)).reverse
  after := line.filter (0 < ·.deltaPoc)

/-- The pictures of a reference and its own in output order, each with what becomes of it. -/
def ascending (reference : RefPicSet) (choices : List RefPicChoice) : List (RefPic × RefPicChoice) :=
  (reference.before.zip choices).reverse ++
    ([RefPic.mk 0 false].zip (choices.drop reference.size) ++
      reference.after.zip (choices.drop reference.before.length))

/-- The pictures of a reference and its own in the order in which it is coded what becomes of them. -/
def sources (reference : RefPicSet) : List RefPic :=
  reference.before ++ reference.after ++ [RefPic.mk 0 false]

/-- The same pictures, each with what becomes of it. -/
def candidates (reference : RefPicSet) (choices : List RefPicChoice) : List (RefPic × RefPicChoice) :=
  reference.sources.zip choices

/-- The pictures that are kept, moved by `offset` without a limit on distances. -/
def placed (offset : Int) (pics : List (RefPic × RefPicChoice)) : List RefPic :=
  (pics.filter (·.2.kept)).map fun x => ⟨x.1.deltaPoc + offset, x.2.used⟩

/-- The set predicted from `reference`, without a limit on distances. -/
def exactInter (reference : RefPicSet) (deltaIdxMinus1 : Nat) (negative : Bool)
    (absDeltaRpsMinus1 : Nat) (choices : List RefPicChoice) : RefPicSet :=
  ofLine (.inter deltaIdxMinus1 negative absDeltaRpsMinus1 choices)
    (placed (offset negative absDeltaRpsMinus1) (ascending reference choices))

section Line

variable {coding : RefPicSetCoding} {line : List RefPic}

theorem ordered_ofLine (h : line.Pairwise fun p q => p.deltaPoc < q.deltaPoc) :
    (ofLine coding line).Ordered where
  before_neg _ hp := of_decide_eq_true (List.mem_filter.1 (List.mem_reverse.1 hp)).2
  before_decreasing := List.pairwise_reverse.2 (h.filter _)
  after_pos _ hp := of_decide_eq_true (List.mem_filter.1 hp).2
  after_increasing := h.filter _

/-- The set has all pictures of the line but the current one. -/
theorem perm_ofLine : ((ofLine coding line).before ++ (ofLine coding line).after).Perm
    (line.filter (·.deltaPoc ≠ 0)) := by
  have hbefore : (line.filter (·.deltaPoc ≠ 0)).filter (·.deltaPoc < 0) =
      line.filter (·.deltaPoc < 0) := by
    rw [List.filter_filter]
    refine List.filter_congr fun p _ => ?_
    rw [← Bool.decide_and, decide_eq_decide]
    omega
  have hafter : (line.filter (·.deltaPoc ≠ 0)).filter (fun p => !decide (p.deltaPoc < 0)) =
      line.filter (0 < ·.deltaPoc) := by
    rw [List.filter_filter]
    refine List.filter_congr fun p _ => ?_
    rw [← decide_not, ← Bool.decide_and, decide_eq_decide]
    omega
  have hparts := List.filter_append_perm (·.deltaPoc < 0) (line.filter (·.deltaPoc ≠ 0))
  rw [hbefore, hafter] at hparts
  exact ((List.reverse_perm _).append_right _).trans hparts

theorem mem_ofLine_iff {p : RefPic} :
    p ∈ (ofLine coding line).before ++ (ofLine coding line).after ↔ p ∈ line ∧ p.deltaPoc ≠ 0 := by
  rw [perm_ofLine.mem_iff, List.mem_filter, decide_eq_true_eq]

theorem fits_ofLine_wrapped : (ofLine coding (line.map RefPic.wrapped)).Fits := by
  intro p hp
  obtain ⟨q, -, rfl⟩ := List.mem_map.1 (mem_ofLine_iff.1 hp).1
  exact fits32_wrap32 _

/-- A line that is wrapped makes the same set exactly if all distances in the set fit. -/
theorem ofLine_wrapped_eq_iff : ofLine coding (line.map RefPic.wrapped) = ofLine coding line ↔
    (ofLine coding line).Fits := by
  constructor
  · intro h
    rw [← h]
    exact fits_ofLine_wrapped
  · intro hfits
    rw [map_wrapped_eq_self_iff.2]
    intro p hp
    by_cases hzero : p.deltaPoc = 0
    · rw [hzero]
      decide
    · exact hfits p (mem_ofLine_iff.2 ⟨hp, hzero⟩)

end Line

/-! ## Predicted sets -/

section Predicted

variable {reference : RefPicSet} {choices : List RefPicChoice} {deltaIdxMinus1 absDeltaRpsMinus1 : Nat}
  {negative : Bool}

theorem moved_eq (offset : Int) (side : Int → Bool) (pics : List (RefPic × RefPicChoice)) :
    moved offset side pics =
      ((placed offset pics).map RefPic.wrapped).filter fun p => side p.deltaPoc := by
  induction pics with
  | nil => rfl
  | cons x pics ih =>
    obtain ⟨pic, used, kept⟩ := x
    cases kept with
    | false => exact ih
    | true =>
      show _ = List.filter _ (⟨wrap32 (pic.deltaPoc + offset), used⟩ ::
        (placed offset pics).map RefPic.wrapped)
      rw [List.filter_cons, ← ih]
      cases hside : side (wrap32 (pic.deltaPoc + offset)) <;> simp [moved, hside]

theorem reverse_ascending : (ascending reference choices).reverse =
    (reference.after.zip (choices.drop reference.before.length)).reverse ++
      [RefPic.mk 0 false].zip (choices.drop reference.size) ++ reference.before.zip choices := by
  have hself : ([RefPic.mk 0 false].zip (choices.drop reference.size)).reverse =
      [RefPic.mk 0 false].zip (choices.drop reference.size) := by
    cases choices.drop reference.size <;> rfl
  rw [ascending, List.reverse_append, List.reverse_append, List.reverse_reverse, hself]

theorem placed_reverse (offset : Int) (pics : List (RefPic × RefPicChoice)) :
    placed offset pics.reverse = (placed offset pics).reverse := by
  rw [placed, List.filter_reverse, List.map_reverse, placed]

/-- A predicted set is made from the line of pictures as 32 bits hold it. -/
theorem ofInter_wrapped : ofInter reference deltaIdxMinus1 negative absDeltaRpsMinus1 choices =
    ofLine (.inter deltaIdxMinus1 negative absDeltaRpsMinus1 choices)
      ((placed (offset negative absDeltaRpsMinus1) (ascending reference choices)).map
        RefPic.wrapped) := by
  rw [ofInter, ofLine, ← reverse_ascending, moved_eq, placed_reverse, List.map_reverse, List.filter_reverse,
    List.append_assoc, ← ascending, moved_eq]

theorem zip_append_drop {α β : Type} (xs ys : List α) (zs : List β) :
    (xs ++ ys).zip zs = xs.zip zs ++ ys.zip (zs.drop xs.length) := by
  induction xs generalizing zs with
  | nil => rfl
  | cons x xs ih =>
    cases zs with
    | nil => simp
    | cons z zs => simp [ih]

theorem perm_ascending : (ascending reference choices).Perm (candidates reference choices) := by
  rw [ascending, candidates, sources, zip_append_drop, zip_append_drop, List.length_append,
    List.append_assoc]
  exact (List.reverse_perm _).append List.perm_append_comm

/-- All pictures are candidates, each with what becomes of it. -/
theorem map_fst_candidates (hlength : choices.length = reference.size + 1) :
    (candidates reference choices).map Prod.fst = reference.sources := by
  refine List.map_fst_zip ?_
  rw [sources, List.length_append, List.length_append, hlength]
  exact Nat.le_refl _

theorem map_fst_ascending (hlength : choices.length = reference.size + 1) :
    (ascending reference choices).map Prod.fst =
      reference.before.reverse ++ (RefPic.mk 0 false :: reference.after) := by
  unfold size at hlength
  rw [ascending, List.map_append, List.map_append, List.map_reverse, List.map_fst_zip (by omega),
    List.map_fst_zip (by simp [size]; omega), List.map_fst_zip (by rw [List.length_drop]; omega)]
  rfl

/-- The line of an ordered reference is in order. -/
theorem Ordered.ascending (h : reference.Ordered) (hlength : choices.length = reference.size + 1) :
    (ascending reference choices).Pairwise fun x y => x.1.deltaPoc < y.1.deltaPoc := by
  have hline : ((RefPicSet.ascending reference choices).map Prod.fst).Pairwise
      fun p q => p.deltaPoc < q.deltaPoc := by
    rw [map_fst_ascending hlength, List.pairwise_append, List.pairwise_cons, List.pairwise_reverse]
    refine ⟨h.before_decreasing, ⟨h.after_pos, h.after_increasing⟩, fun p hp q hq => ?_⟩
    have hneg := h.before_neg p (List.mem_reverse.1 hp)
    obtain rfl | hq := List.mem_cons.1 hq
    · exact hneg
    · exact Int.lt_trans hneg (h.after_pos q hq)
  simpa only [List.pairwise_map] using hline

/-- A set that is predicted from an ordered one is in order. -/
theorem Ordered.exactInter (h : reference.Ordered) (hlength : choices.length = reference.size + 1) :
    (exactInter reference deltaIdxMinus1 negative absDeltaRpsMinus1 choices).Ordered := by
  refine ordered_ofLine (List.pairwise_map.2 (((h.ascending hlength).filter _).imp fun hlt => ?_))
  exact Int.add_lt_add_right hlt _

theorem ofInter_eq_iff :
    ofInter reference deltaIdxMinus1 negative absDeltaRpsMinus1 choices =
      exactInter reference deltaIdxMinus1 negative absDeltaRpsMinus1 choices ↔
    (exactInter reference deltaIdxMinus1 negative absDeltaRpsMinus1 choices).Fits := by
  rw [ofInter_wrapped]
  exact ofLine_wrapped_eq_iff

/-- A predicted set has all pictures that are kept, but the current one. -/
theorem perm_exactInter :
    ((exactInter reference deltaIdxMinus1 negative absDeltaRpsMinus1 choices).before ++
        (exactInter reference deltaIdxMinus1 negative absDeltaRpsMinus1 choices).after).Perm
      ((placed (offset negative absDeltaRpsMinus1) (candidates reference choices)).filter
        (·.deltaPoc ≠ 0)) :=
  perm_ofLine.trans (((perm_ascending.filter _).map _).filter _)

/-- Each picture of a predicted set is one that was moved. -/
theorem mem_exactInter {p : RefPic}
    (hp : p ∈ (exactInter reference deltaIdxMinus1 negative absDeltaRpsMinus1 choices).before ++
      (exactInter reference deltaIdxMinus1 negative absDeltaRpsMinus1 choices).after) :
    ∃ q ∈ reference.sources, p.deltaPoc = q.deltaPoc + offset negative absDeltaRpsMinus1 := by
  have hplaced := List.mem_of_mem_filter (perm_exactInter.mem_iff.1 hp)
  obtain ⟨x, hx, rfl⟩ := List.mem_map.1 hplaced
  exact ⟨x.1, (List.of_mem_zip (List.mem_of_mem_filter hx)).1, rfl⟩

/-- The pictures can be moved by `offset` without losing distances. -/
def Movable (offset : Int) (reference : RefPicSet) : Prop :=
  ∀ q ∈ reference.sources, Fits32 (q.deltaPoc + offset)

instance (offset : Int) (reference : RefPicSet) : Decidable (reference.Movable offset) :=
  inferInstanceAs (Decidable (∀ _ ∈ _, _))

/-- Nothing is lost in a prediction if no picture is moved too far. -/
theorem ofInter_eq (h : reference.Movable (offset negative absDeltaRpsMinus1)) :
    ofInter reference deltaIdxMinus1 negative absDeltaRpsMinus1 choices =
      exactInter reference deltaIdxMinus1 negative absDeltaRpsMinus1 choices := by
  refine ofInter_eq_iff.2 fun p hp => ?_
  obtain ⟨q, hq, heq⟩ := mem_exactInter hp
  rw [heq]
  exact h q hq

/-! ## Counts -/

theorem length_filter_placed (offset : Int) (pics : List (RefPic × RefPicChoice)) (side : Int → Bool) :
    (((placed offset pics).map RefPic.wrapped).filter fun p => side p.deltaPoc).length =
      pics.countP fun x => side (wrap32 (x.1.deltaPoc + offset)) && x.2.kept := by
  rw [← List.countP_eq_length_filter, List.countP_map, placed, List.countP_map, List.countP_filter]
  rfl

/-- How many pictures a predicted set has before the current one. -/
theorem length_before_ofInter :
    (ofInter reference deltaIdxMinus1 negative absDeltaRpsMinus1 choices).before.length =
      (candidates reference choices).countP fun x =>
        decide (wrap32 (x.1.deltaPoc + offset negative absDeltaRpsMinus1) < 0) && x.2.kept := by
  rw [ofInter_wrapped, ofLine, List.length_reverse, length_filter_placed _ _ (· < 0), perm_ascending.countP_eq]

/-- How many pictures a predicted set has after the current one. -/
theorem length_after_ofInter :
    (ofInter reference deltaIdxMinus1 negative absDeltaRpsMinus1 choices).after.length =
      (candidates reference choices).countP fun x =>
        decide (0 < wrap32 (x.1.deltaPoc + offset negative absDeltaRpsMinus1)) && x.2.kept := by
  rw [ofInter_wrapped, ofLine, length_filter_placed _ _ (0 < ·), perm_ascending.countP_eq]

/-- A prediction adds at most its own reference. -/
theorem size_ofInter_le (hlength : choices.length = reference.size + 1) :
    (ofInter reference deltaIdxMinus1 negative absDeltaRpsMinus1 choices).size ≤
      reference.size + 1 := by
  let offset := offset negative absDeltaRpsMinus1
  calc (ofInter reference deltaIdxMinus1 negative absDeltaRpsMinus1 choices).size
    _ = (((placed offset (ascending reference choices)).map RefPic.wrapped).filter
          (·.deltaPoc ≠ 0)).length := by
        rw [size, ← List.length_append, ofInter_wrapped, perm_ofLine.length_eq]
    _ ≤ ((placed offset (ascending reference choices)).map RefPic.wrapped).length :=
        List.length_filter_le _ _
    _ ≤ (candidates reference choices).length := by
        rw [List.length_map, placed, List.length_map, ← perm_ascending.length_eq]
        exact List.length_filter_le _ _
    _ ≤ reference.size + 1 := by
        rw [candidates, List.length_zip, hlength]
        exact Nat.min_le_right _ _

end Predicted

end RefPicSet

end TiledVideo
