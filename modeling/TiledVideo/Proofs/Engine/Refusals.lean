import TiledVideo.Proofs.Engine.Restarts

/-!
# Access units that are refused

If an access unit can be read, but its parameter sets cannot be distributed, a splitter drops it with all
that waits in the streams.

But its parameter sets stay in force, and the layouts that were worked out before the failure stay in
use. So units that come later may be read with other sets than those in force before, and a picture
parameter set may be bound to a layout that no picture ever had.

Results:

* `LayoutTable.get?_resolveAll`: which layouts are in use after some were asked for.
* `Splitter.left_by_refused`: what an access unit that is refused leaves behind, and when this is nothing.
-/

namespace TiledVideo

/-! ## Layouts that are asked for -/

namespace LayoutTable

variable {t t' t₁ : LayoutTable} {sps : Sps} {pps : Pps} {l : TileLayout} {pairs : List (Sps × Pps)}

/-- Asks for the layouts of pairs of parameter sets one after the other. -/
def resolveAll (t : LayoutTable) (pairs : List (Sps × Pps)) : Except LayoutError LayoutTable :=
  pairs.foldlM (fun t pair => Prod.snd <$> t.resolve pair.1 pair.2) t

/-- The layout of the first of some pairs with a given number. -/
def firstLayout (id : PpsId) (pairs : List (Sps × Pps)) : Option TileLayout :=
  pairs.findSome? fun pair =>
    if pair.2.id = id then (TileLayout.ofParamSets pair.1 pair.2).toOption else none

theorem ext_get? {t t' : LayoutTable} (h : ∀ id, t.get? id = t'.get? id) : t = t' := by
  obtain ⟨slots⟩ := t
  obtain ⟨slots'⟩ := t'
  obtain rfl : slots = slots' := by
    refine Vector.ext fun i hi => ?_
    simpa only [get?, Vector.getElem?_eq_getElem hi, Option.join_some] using h ⟨i, hi⟩
  rfl

theorem resolveAll_cons_eq_ok {pair : Sps × Pps} :
    t.resolveAll (pair :: pairs) = .ok t' ↔
      ∃ l t₁, t.resolve pair.1 pair.2 = .ok (l, t₁) ∧ t₁.resolveAll pairs = .ok t' := by
  rw [resolveAll, List.foldlM_cons, bind_eq_ok_iff]
  constructor
  · rintro ⟨t₁, hresolve, h⟩
    obtain ⟨⟨l, _⟩, hfound, rfl⟩ := map_eq_ok_iff.1 hresolve
    exact ⟨l, _, hfound, h⟩
  · rintro ⟨l, t₁, hresolve, h⟩
    exact ⟨t₁, map_eq_ok_iff.2 ⟨(l, t₁), hresolve, rfl⟩, h⟩

theorem resolveAll_append {front : List (Sps × Pps)} (h : t.resolveAll front = .ok t₁) :
    t.resolveAll (front ++ pairs) = t₁.resolveAll pairs := by
  rw [resolveAll, List.foldlM_append]
  exact congrArg (fun x => x >>= fun t => t.resolveAll pairs) h

/-- A layout that is asked for is put in use if there was none. -/
theorem get?_resolve (h : t.resolve sps pps = .ok (l, t')) (id : PpsId) :
    t'.get? id = (t.get? id).or
      (if pps.id = id then (TileLayout.ofParamSets sps pps).toOption else none) := by
  obtain ⟨hl, -, rfl⟩ | ⟨hnone, hl, rfl⟩ := resolve_eq_ok_iff_held_or_new.1 h
  · split
    · next hid =>
      rw [← hid, hl]
      rfl
    · rw [Option.or_none]
  · rw [get?_insert, hl]
    split
    · next hid =>
      rw [← hid, hnone]
      rfl
    · rw [Option.or_none]

/-- Of layouts that are asked for, the first one of each number is put in use if there was none. -/
theorem get?_resolveAll (h : t.resolveAll pairs = .ok t') (id : PpsId) :
    t'.get? id = (t.get? id).or (firstLayout id pairs) := by
  induction pairs generalizing t with
  | nil =>
    cases h
    rw [firstLayout, List.findSome?_nil, Option.or_none]
  | cons pair pairs ih =>
    obtain ⟨l, t₁, hresolve, h⟩ := resolveAll_cons_eq_ok.1 h
    have hfirst : firstLayout id (pair :: pairs) =
        (if pair.2.id = id then (TileLayout.ofParamSets pair.1 pair.2).toOption else none).or
          (firstLayout id pairs) := by
      rw [firstLayout, List.findSome?_cons]
      cases (if pair.2.id = id then (TileLayout.ofParamSets pair.1 pair.2).toOption else none) <;> rfl
    rw [ih h, get?_resolve hresolve, hfirst, Option.or_assoc]

/-- Layouts that were asked for are in use. -/
theorem isSome_of_resolveAll (h : t.resolveAll pairs = .ok t') {pair : Sps × Pps}
    (hpair : pair ∈ pairs) : (t'.get? pair.2.id).isSome = true := by
  induction pairs generalizing t with
  | nil => exact absurd hpair List.not_mem_nil
  | cons first pairs ih =>
    obtain ⟨l, t₁, hresolve, hrest⟩ := resolveAll_cons_eq_ok.1 h
    obtain rfl | hpair := List.mem_cons.1 hpair
    · rw [get?_resolveAll hrest, resolve_eq_ok hresolve]
      rfl
    · exact ih hrest hpair

/-- The layouts in use stay the same exactly if there was one for each pair that is asked for. -/
theorem resolveAll_eq_self_iff (h : t.resolveAll pairs = .ok t') :
    t' = t ↔ ∀ pair ∈ pairs, (t.get? pair.2.id).isSome = true := by
  constructor
  · rintro rfl pair hpair
    exact isSome_of_resolveAll h hpair
  · intro hall
    refine ext_get? fun id => ?_
    rw [get?_resolveAll h]
    cases hheld : t.get? id with
    | some held => rfl
    | none =>
      refine List.findSome?_eq_none_iff.2 fun pair hpair => if_neg ?_
      rintro rfl
      have hsome := hall pair hpair
      rw [hheld] at hsome
      cases hsome

end LayoutTable

namespace TileStreams

open LayoutTable

/-- The pairs of parameter sets among some units that layouts are asked for: each sequence parameter set
with the picture parameter set that directly follows it. -/
def layoutPairs : List DecodedUnit → List (Sps × Pps)
  | [] => []
  | .sps sps :: rest => ((ppsAfter sps rest).map (sps, ·)).toList ++ layoutPairs rest
  | _ :: rest => layoutPairs rest

/-- How many streams there are after the parameter sets of an access unit have been distributed, as far as
they can be: as many as before, or as the first picture parameter set has tiles. -/
def countAfter (tiles : Nat) (units : List DecodedUnit) : Nat :=
  if tiles = 0 then
    match AccessUnit.firstPps ⟨units⟩ with
    | some pps => if pps.partition.tiles.isSome then pps.partition.tileCount else 0
    | none => 0
  else tiles

/-- The layouts of some pairs are asked for, and the number of streams stays as it is. -/
structure Asks (t t' : TileStreams) (pairs : List (Sps × Pps)) : Prop where
  layouts : t.layouts.resolveAll pairs = .ok t'.layouts
  count : t'.streams.length = t.streams.length

variable {t t₁ t₂ : TileStreams} {a b : List (Sps × Pps)}

theorem Asks.nothing (t : TileStreams) : t.Asks t [] :=
  ⟨rfl, rfl⟩

theorem Asks.trans (h₁ : t.Asks t₁ a) (h₂ : t₁.Asks t₂ b) : t.Asks t₂ (a ++ b) :=
  ⟨(resolveAll_append h₁.layouts).trans h₂.layouts, h₂.count.trans h₁.count⟩

theorem Asks.streams (h : t.Asks t₁ a) {streams : List BitStream}
    (hcount : streams.length = t₁.streams.length) : t.Asks ⟨t₁.layouts, streams⟩ a :=
  ⟨h.layouts, hcount.trans h.count⟩

theorem leads_prepare (au : AccessUnit) :
    Leads t (prepare .ample au)
      (fun _ t' => t'.layouts = t.layouts ∧
        t'.streams.length = countAfter t.streams.length au.units)
      fun _ t' => t'.layouts = t.layouts ∧
        t'.streams.length = countAfter t.streams.length au.units := by
  refine .get_bind ?_
  split
  · next pps hnone hpps =>
    have hcount : countAfter t.streams.length au.units =
        if pps.partition.tiles.isSome then pps.partition.tileCount else 0 := by
      rw [countAfter, if_pos (by rw [hnone]; rfl), hpps]
    rw [hcount]
    split
    · refine .lift_bind (fun e he => ?_) fun streams hnew => ?_
      · obtain ⟨hroom, -⟩ := newStreams_eq_error_iff.1 he
        cases hroom
      · obtain ⟨-, rfl⟩ := newStreams_eq_ok_iff.1 hnew
        exact ⟨rfl, List.length_replicate⟩
    · exact ⟨rfl, by rw [hnone]; rfl⟩
  · next hne =>
    refine ⟨rfl, ?_⟩
    unfold countAfter
    split
    · next hzero =>
      cases hpps : au.firstPps with
      | none => exact hzero
      | some pps => exact absurd hpps (hne pps (List.length_eq_zero_iff.1 hzero))
    · rfl

theorem leads_writeAll (unitType : UnitType) (code : Code) :
    Leads t (writeAll unitType code) (fun _ t' => t.Asks t' []) fun _ t' => t.Asks t' [] := by
  refine .get_bind ?_
  dsimp only
  split
  · exact .throw_bind (.nothing t) _
  · refine .lift_bind (fun _ _ => .nothing t) fun streams hstreams => ?_
    exact (Asks.nothing t).streams (mapM_eq_ok_iff.1 hstreams).length_eq.symm

theorem leads_writeSps (sps : Sps) (pps : Pps) :
    Leads t (writeSps sps pps) (fun _ t' => t.Asks t' [(sps, pps)])
      fun _ t' => ∃ front, front <+: [(sps, pps)] ∧ t.Asks t' front := by
  have hresolve : Leads t (resolve sps pps) (fun _ t' => t.Asks t' [(sps, pps)])
      fun _ t' => ∃ front, front <+: [(sps, pps)] ∧ t.Asks t' front := by
    refine .get_bind (.lift_bind (fun _ _ => ?_) fun result hresult => .set_bind ?_)
    · exact ⟨[], List.nil_prefix, .nothing t⟩
    · exact ⟨resolveAll_cons_eq_ok.2 ⟨result.1, result.2, hresult, rfl⟩, rfl⟩
  refine hresolve.bind fun layout t₁ h₁ => .get_bind ?_
  dsimp only
  split
  · exact .throw_bind ⟨_, List.prefix_rfl, h₁⟩ _
  · refine .lift_bind (fun _ _ => ⟨_, List.prefix_rfl, h₁⟩) fun streams hstreams => ?_
    refine h₁.streams ?_
    simpa using (mapM_eq_ok_iff.1 hstreams).length_eq.symm

/-- When parameter sets are distributed, layouts are asked for in their order. If this fails, some of
them have not been asked for. -/
theorem leads_distribute (units : List DecodedUnit) :
    Leads t (distribute units) (fun _ t' => t.Asks t' (layoutPairs units))
      fun _ t' => ∃ front, front <+: layoutPairs units ∧ t.Asks t' front := by
  induction units generalizing t with
  | nil => exact Asks.nothing t
  | cons unit rest ih =>
    -- one unit asks for some layouts, and the others for those that are left
    have hnext : ∀ {write : Step Unit} {own : List (Sps × Pps)},
        Leads t write (fun _ t' => t.Asks t' own)
          (fun _ t' => ∃ front, front <+: own ∧ t.Asks t' front) →
        Leads t (write >>= fun _ => distribute rest) (fun _ t' => t.Asks t' (own ++ layoutPairs rest))
          fun _ t' => ∃ front, front <+: own ++ layoutPairs rest ∧ t.Asks t' front := by
      intro write own hwrite
      refine (hwrite.mono (fun _ _ h => h) fun _ t' h => ?_).bind fun _ t₁ h₁ =>
        ih.mono (fun _ _ h => h₁.trans h) fun _ t' h => ?_
      · obtain ⟨front, hfront, h⟩ := h
        exact ⟨front, hfront.trans (List.prefix_append _ _), h⟩
      · obtain ⟨front, hfront, h⟩ := h
        exact ⟨own ++ front, (List.prefix_append_right_inj _).2 hfront, h₁.trans h⟩
    have hset : ∀ unitType code, Leads t (writeAll unitType code) (fun _ t' => t.Asks t' [])
        fun _ t' => ∃ front, front <+: [] ∧ t.Asks t' front := fun unitType code =>
      (leads_writeAll unitType code).mono (fun _ _ h => h) fun _ _ h => ⟨[], List.prefix_rfl, h⟩
    cases unit with
    | vps set => exact hnext (hset .vps set.encode)
    | pps pps => exact hnext (hset .pps (pps.encode .remove))
    | slice segment => exact ih
    | other header => exact ih
    | sps sps =>
      cases hafter : ppsAfter sps rest with
      | none =>
        simp only [distribute, hafter]
        exact .throw_bind ⟨[], List.nil_prefix, .nothing t⟩ _
      | some pps =>
        rw [distribute_sps hafter, layoutPairs, hafter]
        exact hnext (leads_writeSps sps pps)

/-- What is left if the parameter sets of an access unit cannot be distributed. -/
theorem leads_distributeAll (au : AccessUnit) :
    Leads t (distributeAll .ample au) (fun _ _ => True) fun _ t' =>
      t'.streams.length = countAfter t.streams.length au.units ∧
        ∃ front, front <+: layoutPairs au.units ∧ t.layouts.resolveAll front = .ok t'.layouts := by
  refine ((leads_prepare au).mono (fun _ _ h => h) fun _ t' h => ?_).bind fun _ t₁ h₁ =>
    (leads_distribute au.units).mono (fun _ _ _ => trivial) fun _ t' h => ?_
  · exact ⟨h.2, [], List.nil_prefix, congrArg Except.ok h.1.symm⟩
  · obtain ⟨front, hfront, h⟩ := h
    exact ⟨h.count.trans h₁.2, front, hfront, h₁.1 ▸ h.layouts⟩

end TileStreams

/-! ## What is left behind -/

namespace Splitter

open TileStreams LayoutTable

/-- What an access unit that is refused leaves behind in a splitter that knew less before: its parameter
sets, and the layouts of some pairs of them. -/
structure LeftBehind (s s' : Splitter) (units : List DecodedUnit) (front : List (Sps × Pps)) : Prop
    where
  vps : ∀ id, s'.ctx.vpsById id = (lastVps id units).or (s.ctx.vpsById id)
  sps : ∀ id, s'.ctx.spsById id = (lastSps id units).or (s.ctx.spsById id)
  pps : ∀ id, s'.ctx.ppsById id = (lastPps id units).or (s.ctx.ppsById id)
  layouts : ∀ id, s'.tiles.layouts.get? id = (s.tiles.layouts.get? id).or (firstLayout id front)
  tileCount : s'.tileCount = countAfter s.tileCount units
  /-- Nothing else is different from what a flush would have left. -/
  rest : s' = { s.flush with
    ctx := s'.ctx
    tiles := ⟨s'.tiles.layouts, fresh s'.tileCount⟩ }

/-- An access unit that is refused leaves all its parameter sets in force, and the layouts in use that
were asked for before the failure. So the splitter knows the same as before exactly if the access unit
brings no other sets than those in force, and asks for no layouts but those in use. Then, unless it is
the access unit that tells the number of tiles, all requests are answered as if it had not been sent and
the splitter had been flushed. -/
theorem left_by_refused {s : Splitter} {packet : Packet} {e : EngineError} (hidle : s.phase = .idle)
    (hrefused : (s.send packet).1 = .error e) :
    ∃ au ctx front, AccessUnit.decode s.ctx packet.data = .ok (au, ctx) ∧
      front <+: layoutPairs au.units ∧ s.LeftBehind (s.send packet).2 au.units front ∧
      ((s.send packet).2.ctx = s.ctx ↔ BringsNothing au.units s.ctx) ∧
      ((s.send packet).2.tiles.layouts = s.tiles.layouts ↔
        ∀ pair ∈ front, (s.tiles.layouts.get? pair.2.id).isSome = true) ∧
      (BringsNothing au.units s.ctx →
        (∀ pair ∈ front, (s.tiles.layouts.get? pair.2.id).isSome = true) →
        countAfter s.tileCount au.units = s.tileCount →
        ∀ requests, serveAll serve (s.send packet).2 requests = serveAll serve s.flush requests) := by
  have hsends := s.sends packet
  generalize s.send packet = result at hrefused hsends
  cases hsends with
  | busy busy => exact absurd hidle busy
  | unread => cases hrefused
  | taken => cases hrefused
  | @refused _ au ctx e' tiles decode distribute =>
    obtain ⟨hcount, front, hfront, hlayouts⟩ := (leads_distributeAll au).of_error distribute
    obtain ⟨-, rfl⟩ := AccessUnit.yieldsAll_of_decode decode
    have hsame : (au.units.foldl DecoderState.after (.start s.ctx)).ctx = s.ctx ↔
        BringsNothing au.units s.ctx := ctx_after_eq_iff
    have hkept := resolveAll_eq_self_iff hlayouts
    refine ⟨au, _, front, decode, hfront, ⟨DecoderState.vpsById_after _ _,
      DecoderState.spsById_after _ _, DecoderState.ppsById_after _ _, get?_resolveAll hlayouts,
      tiles.length_reset.trans hcount, ?_⟩, hsame, hkept, fun hnothing hused htiles requests => ?_⟩
    · rw [tileCount, tiles.length_reset]
      exact congrArg (fun t => Splitter.mk _ t .idle) tiles.reset_eq
    · have hreset : tiles.reset = s.tiles.reset := by
        rw [tiles.reset_eq, s.tiles.reset_eq, hcount, hkept.2 hused]
        exact congrArg (fun n => TileStreams.mk s.tiles.layouts (fresh n)) htiles
      rw [hsame.2 hnothing, hreset]
      rfl

open Sample in
theorem left_by_refused_sample :
    waitingSplitter.phase = .idle ∧
    (waitingSplitter.send narrowSets).1 = .error (.invalidData "picture size") ∧
    ∃ au ctx front, AccessUnit.decode waitingSplitter.ctx narrowSets.data = .ok (au, ctx) ∧
      front <+: layoutPairs au.units ∧
      waitingSplitter.LeftBehind (waitingSplitter.send narrowSets).2 au.units front ∧
      ((waitingSplitter.send narrowSets).2.ctx = waitingSplitter.ctx ↔
        BringsNothing au.units waitingSplitter.ctx) ∧
      ((waitingSplitter.send narrowSets).2.tiles.layouts = waitingSplitter.tiles.layouts ↔
        ∀ pair ∈ front, (waitingSplitter.tiles.layouts.get? pair.2.id).isSome = true) ∧
      (BringsNothing au.units waitingSplitter.ctx →
        (∀ pair ∈ front, (waitingSplitter.tiles.layouts.get? pair.2.id).isSome = true) →
        countAfter waitingSplitter.tileCount au.units = waitingSplitter.tileCount →
        ∀ requests, serveAll serve (waitingSplitter.send narrowSets).2 requests =
          serveAll serve waitingSplitter.flush requests) := by
  have hidle : waitingSplitter.phase = .idle := by decide +kernel
  exact ⟨hidle, send_narrowSets, left_by_refused hidle send_narrowSets⟩

open Sample in
/-- A splitter in the middle of a stream refuses parameter sets for pictures of another size. But they
stay in force, and so the slices of the next picture, which it would have given out, cannot be written
any more. -/
theorem refused_sets_stay :
    waitingSplitter.Reachable ∧ waitingSplitter.phase = .idle ∧
      (waitingSplitter.send narrowSets).1 = .error (.invalidData "picture size") ∧
      (waitingSplitter.send narrowSets).2.ctx ≠ waitingSplitter.ctx ∧
      (waitingSplitter.send slicesAlone).2.drain.1.map (·.map (·.tile)) = [.ok (some 0), .ok (some 1)] ∧
      ((waitingSplitter.send narrowSets).2.send slicesAlone).2.drain.1 =
        [.error (.invalidData "picture size")] :=
  ⟨.receive (.receive (.send .empty _)), by decide +kernel, send_narrowSets, by decide +kernel⟩

end Splitter

end TiledVideo
