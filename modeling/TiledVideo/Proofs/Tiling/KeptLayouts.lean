import Mathlib.Logic.Relation
import TiledVideo.Proofs.Engine.Steps
import TiledVideo.Proofs.Tiling.UniformBorders

/-!
# Layouts that are asked for again

A table is asked for the layouts of parameter sets, of which some are found and others are not. It makes
no difference what it was asked for before, save that a number keeps the layout that was first found
for it. Parameter sets with another layout are refused under that number, and all others get the layout
that is worked out anew.

Results:

* `LayoutTable.resolve_eq_ok_iff`: when a table gives a layout, which one, and what it holds then.
* `TileStreams.leads_resolved`: the table that a splitter goes on with, whether there was a layout or not.
* `LayoutTable.resolve_answers`: what a table answers and keeps after any requests.
-/

namespace TiledVideo

open Relation

namespace LayoutTable

variable {t t' : LayoutTable} {sps : Sps} {pps : Pps} {l held : TileLayout} {id : PpsId}

/-! ## One request -/

/-- The table after it was asked for the layout of parameter sets. It stays as it was if there is no
layout to give. -/
def asked (t : LayoutTable) (sps : Sps) (pps : Pps) : LayoutTable :=
  match t.resolve sps pps with
  | .ok (_, t') => t'
  | .error _ => t

/-- The second table is the first one after a request, whether it was granted or not. -/
def Next (t t' : LayoutTable) : Prop :=
  ∃ sps pps, t' = t.asked sps pps

theorem asked_of_ok (h : t.resolve sps pps = .ok (l, t')) : t.asked sps pps = t' := by
  rw [asked, h]

theorem asked_of_error {e : LayoutError} (h : t.resolve sps pps = .error e) :
    t.asked sps pps = t := by
  rw [asked, h]

/-- A layout is given exactly if it is the one worked out anew and no other one is in use for the number.
It is put in use if there was none. -/
theorem resolve_eq_ok_iff (ht : t.Worked) : t.resolve sps pps = .ok (l, t') ↔
    TileLayout.ofParamSets sps pps = .ok l ∧ (∀ held, t.get? pps.id = some held → held = l) ∧
      t' = if (t.get? pps.id).isSome then t else t.insert pps.id l := by
  rw [resolve_eq_ok_iff_held_or_new]
  cases hget : t.get? pps.id with
  | none => simp
  | some held =>
    simp only [Option.some.injEq, Option.isSome_some, if_true, reduceCtorEq, false_and, or_false,
      forall_eq']
    constructor
    · rintro ⟨rfl, hcheck, rfl⟩
      obtain ⟨sps₀, pps₀, hworked⟩ := ht _ _ hget
      exact ⟨TileLayout.ofParamSets_of_check hworked hcheck, rfl, rfl⟩
    · rintro ⟨hl, rfl, rfl⟩
      exact ⟨rfl, TileLayout.check_of_ofParamSets hl, rfl⟩

/-- Parameter sets under a number that has a layout are granted exactly if they have the same one. -/
theorem exists_resolve_iff (ht : t.Worked) (hheld : t.get? pps.id = some held) :
    (∃ l t', t.resolve sps pps = .ok (l, t')) ↔ TileLayout.ofParamSets sps pps = .ok held := by
  constructor
  · rintro ⟨l, t', h⟩
    obtain ⟨hl, hsame, -⟩ := (resolve_eq_ok_iff ht).1 h
    rw [hsame held hheld]
    exact hl
  · intro hl
    refine ⟨held, _, (resolve_eq_ok_iff ht).2 ⟨hl, fun other hother => ?_, rfl⟩⟩
    exact Option.some.inj (hother.symm.trans hheld)

/-- Under a number that is free, the answer is that of working the layout out, failures included. -/
theorem fst_resolve_of_free (h : t.get? pps.id = none) :
    Prod.fst <$> t.resolve sps pps = TileLayout.ofParamSets sps pps := by
  simp only [resolve, h]
  cases TileLayout.ofParamSets sps pps <;> rfl

/-- Only what is held under the number that was asked for can change, and only if there was nothing. -/
theorem get?_asked (ht : t.Worked) (hid : (t.get? id).isSome ∨ id ≠ pps.id) :
    (t.asked sps pps).get? id = t.get? id := by
  cases h : t.resolve sps pps with
  | error e => rw [asked_of_error h]
  | ok result =>
    rw [asked_of_ok h]
    obtain ⟨-, -, hresult⟩ := (resolve_eq_ok_iff ht).1 h
    rw [hresult]
    split
    · rfl
    · next hfree =>
      rw [get?_insert, if_neg]
      rintro rfl
      exact hid.elim hfree fun hne => hne rfl

/-! ## Any requests -/

theorem Worked.next (ht : t.Worked) (h : t.Next t') : t'.Worked := by
  obtain ⟨sps, pps, rfl⟩ := h
  cases hresolve : t.resolve sps pps with
  | error e =>
    rw [asked_of_error hresolve]
    exact ht
  | ok result =>
    rw [asked_of_ok hresolve]
    exact (resolve_spec ht hresolve).2

theorem Worked.later (ht : t.Worked) (h : ReflTransGen Next t t') : t'.Worked := by
  induction h with
  | refl => exact ht
  | tail _ hnext ih => exact ih.next hnext

/-- A layout that is in use stays in use. -/
theorem get?_of_later (ht : t.Worked) (h : ReflTransGen Next t t') (hheld : t.get? id = some held) :
    t'.get? id = some held := by
  induction h with
  | refl => exact hheld
  | tail hsince hnext ih =>
    obtain ⟨sps, pps, rfl⟩ := hnext
    rw [get?_asked (ht.later hsince) (.inl (by rw [ih]; rfl)), ih]

end LayoutTable

/-- A splitter gives the answer of its table and goes on with the table after the request, also where
there is no layout to give. -/
theorem TileStreams.leads_resolved (s : TileStreams) (sps : Sps) (pps : Pps) :
    Leads s (resolve sps pps) (fun l s' => s.layouts.resolve sps pps = .ok (l, s'.layouts))
      fun _ s' => s'.layouts = s.layouts :=
  .get_bind (.lift_bind (fun _ _ => rfl) fun _ hresult => .set_bind hresult)

namespace LayoutTable

variable {t : LayoutTable}

/-- Whatever a table was asked for before, it gives only the very layout that the parameter sets have.
Where a layout is in use for the number, it does so exactly if that is the one. Where there is none, it
answers as if the layout were worked out. A request that is granted changes only what is held under its
number, and only if that was free. One that fails changes nothing: a splitter goes on with the table it
had. So what is held once is held for ever. -/
theorem resolve_answers (ht : ReflTransGen Next empty t) (sps : Sps) (pps : Pps) :
    (∀ l t', t.resolve sps pps = .ok (l, t') → TileLayout.ofParamSets sps pps = .ok l) ∧
    (∀ held, t.get? pps.id = some held →
      ((∃ l t', t.resolve sps pps = .ok (l, t')) ↔ TileLayout.ofParamSets sps pps = .ok held)) ∧
    (t.get? pps.id = none → Prod.fst <$> t.resolve sps pps = TileLayout.ofParamSets sps pps) ∧
    (∀ l t', t.resolve sps pps = .ok (l, t') → t'.get? pps.id = some l ∧
      ∀ id, (t.get? id).isSome ∨ id ≠ pps.id → t'.get? id = t.get? id) ∧
    (∀ e, t.resolve sps pps = .error e → t.asked sps pps = t) ∧
    (∀ s : TileStreams, s.layouts = t → TileStreams.Leads s (TileStreams.resolve sps pps)
      (fun l s' => t.resolve sps pps = .ok (l, s'.layouts)) fun _ s' => s'.layouts = t) ∧
    ∀ t', ReflTransGen Next t t' → ∀ id held, t.get? id = some held → t'.get? id = some held := by
  have hworked : t.Worked := worked_empty.later ht
  refine ⟨fun l t' h => ((resolve_eq_ok_iff hworked).1 h).1, fun held => exists_resolve_iff hworked,
    fst_resolve_of_free, fun l t' h => ⟨resolve_eq_ok h, fun id hid => ?_⟩, fun e => asked_of_error,
    ?_, fun t' hlater id held => get?_of_later hworked hlater⟩
  · rw [← asked_of_ok h]
    exact get?_asked hworked hid
  · rintro s rfl
    exact s.leads_resolved sps pps

end LayoutTable

namespace Sample

/-- The layout of the picture of two tiles. -/
def twoTiles : TileLayout where
  columns := 2
  rows := 1
  log2Ctb := 6
  widthInCtbs := 30
  heightInCtbs := 17
  width := 1920
  height := 1088
  columnWidths := [960, 960]
  rowHeights := [1088]
  columnOf := List.replicate 15 0 ++ List.replicate 15 1
  rowOf := List.replicate 17 0

/-- The table after the layout of the picture was asked for, and then one of twelve tiles under the same
number. -/
def askedTwice : LayoutTable :=
  (LayoutTable.empty.asked sps pps).asked sps equalPps

end Sample

/-- The second request was refused and has left no trace: the first layout is given again. -/
theorem LayoutTable.resolve_answers_sample :
    Sample.equalPps.id = Sample.pps.id ∧
      (∃ t', Sample.askedTwice.resolve Sample.sps Sample.pps = .ok (Sample.twoTiles, t')) ∧
      ¬ ∃ l t', Sample.askedTwice.resolve Sample.sps Sample.equalPps = .ok (l, t') := by
  have hlayout : TileLayout.ofParamSets Sample.sps Sample.pps = .ok Sample.twoTiles := by
    decide +kernel
  have hother : TileLayout.ofParamSets Sample.sps Sample.equalPps ≠ .ok Sample.twoTiles := by
    decide +kernel
  have hid : Sample.equalPps.id = Sample.pps.id := by decide +kernel
  have hheld : Sample.askedTwice.get? Sample.pps.id = some Sample.twoTiles := by decide +kernel
  have hreached : ReflTransGen Next empty Sample.askedTwice :=
    .tail (.single ⟨Sample.sps, Sample.pps, rfl⟩) ⟨Sample.sps, Sample.equalPps, rfl⟩
  obtain ⟨hgiven, hsame, -⟩ := resolve_answers hreached Sample.sps Sample.pps
  obtain ⟨-, hrefused, -⟩ := resolve_answers hreached Sample.sps Sample.equalPps
  obtain ⟨l, t', hresolve⟩ := (hsame _ hheld).2 hlayout
  obtain rfl : Sample.twoTiles = l := Except.ok.inj (hlayout.symm.trans (hgiven l t' hresolve))
  rw [hid] at hrefused
  exact ⟨hid, ⟨t', hresolve⟩, fun hgranted => hother ((hrefused _ hheld).1 hgranted)⟩

end TiledVideo
