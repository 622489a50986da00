import TiledVideo.Proofs.Engine.Requests
import TiledVideo.Proofs.Engine.Steps
import TiledVideo.Proofs.Engine.WaitingSets

/-!
# States that an engine can be in

An engine can be called in any way, and calls may fail. A splitter that fails to split an access unit
drops all that waits, but keeps the parameter sets and the layouts of the part that went well. So
what is said of its states here does not depend on the calls that led to them.

Results:

* `Keeps`: what is said of the streams and the layouts in use is still true after a step, whether it
  fails or not.
* `Splitter.Reachable.sound`: what waits in the streams of a splitter are parameter sets, and the slices
  that are left are those of the access unit that was read last.
* `Placer.Reachable.sound`: the same for the stream of a placer that there is room for.
* `Placer.Occurs.holdsUnits`: what waits in the stream of any placer are units in full.
-/

namespace TiledVideo

open ByteStream

namespace TileStreams

variable {memory : Memory}

/-! ## Errors of other parts -/

theorem invalidData_ne_pendingOutput (what : String) :
    EngineError.invalidData what ≠ .pendingOutput := by
  intro h
  cases h

theorem ofWrite_ne_pendingOutput (e : WriteError) : EngineError.ofWrite e ≠ .pendingOutput := by
  intro h
  cases e <;> cases h

theorem ofLayout_ne_pendingOutput (e : LayoutError) : EngineError.ofLayout e ≠ .pendingOutput := by
  intro h
  unfold EngineError.ofLayout at h
  split at h <;> cases h

theorem openStreams_ne_pendingOutput {t : TileStreams} {tiles : Nat} {e : EngineError}
    (h : t.openStreams memory tiles = .error e) : e ≠ .pendingOutput := by
  obtain ⟨-, -, rfl⟩ := openStreams_eq_error_iff.1 h
  exact nofun

theorem packetData_ne_pendingOutput {s : BitStream} {e : EngineError}
    (h : s.packetData memory = .error e) : e ≠ .pendingOutput := by
  obtain h | ⟨_, -, h⟩ := bind_eq_error_iff.1 h
  · obtain ⟨e', -, rfl⟩ := mapError_eq_error_iff.1 h
    exact ofWrite_ne_pendingOutput e'
  · obtain h | ⟨_, -, h⟩ := bind_eq_error_iff.1 h
    · obtain ⟨-, rfl⟩ := Memory.alloc_eq_error_iff.1 h
      exact nofun
    · obtain ⟨e', -, rfl⟩ := mapError_eq_error_iff.1 h
      exact ofWrite_ne_pendingOutput e'

theorem writeSized_ne_pendingOutput {sps : Sps} {layout : TileLayout} {stream : BitStream × Nat}
    {e : EngineError} (h : writeSized sps layout stream = .error e) : e ≠ .pendingOutput := by
  unfold writeSized at h
  split at h
  · cases h
    exact invalidData_ne_pendingOutput _
  · obtain ⟨e', -, rfl⟩ := mapError_eq_error_iff.1 h
    exact ofWrite_ne_pendingOutput e'

/-! ## Steps that may fail -/

section Keeps

variable {α β ε : Type} {P : TileStreams → Prop}

/-- What is said of the streams is still true after a step, whether it fails or not. It does not fail
for packets that are still to be received. -/
def Keeps (P : TileStreams → Prop) (p : Step α) : Prop :=
  ∀ t : TileStreams, P t →
    match p t with
    | .ok _ t' => P t'
    | .error e t' => e ≠ .pendingOutput ∧ P t'

theorem keeps_iff {p : Step α} : Keeps P p ↔
    ∀ t, P t → Leads t p (fun _ t' => P t') fun e t' => e ≠ .pendingOutput ∧ P t' :=
  Iff.rfl

theorem Keeps.of_ok {p : Step α} (h : Keeps P p) {t t' : TileStreams} (ht : P t) {a : α}
    (hok : p t = .ok a t') : P t' :=
  (keeps_iff.1 h t ht).of_ok hok

theorem Keeps.of_error {p : Step α} (h : Keeps P p) {t t' : TileStreams} (ht : P t)
    {e : EngineError} (herror : p t = .error e t') : e ≠ .pendingOutput ∧ P t' :=
  (keeps_iff.1 h t ht).of_error herror

theorem Keeps.pure (a : α) : Keeps P (pure a) :=
  fun _ ht => ht

theorem Keeps.set {t : TileStreams} (ht : P t) : Keeps P (set t : Step PUnit) :=
  fun _ _ => ht

theorem Keeps.throw_bind {e : EngineError} (he : e ≠ .pendingOutput) (f : α → Step β) :
    Keeps P (throw e >>= f) :=
  fun _ ht => ⟨he, ht⟩

theorem Keeps.throw {e : EngineError} (he : e ≠ .pendingOutput) : Keeps P (throw e : Step α) :=
  fun _ ht => ⟨he, ht⟩

theorem Keeps.lift_bind {f : ε → EngineError} {x : Except ε α} {g : α → Step β}
    (he : ∀ e, x = .error e → f e ≠ .pendingOutput) (hg : ∀ a, x = .ok a → Keeps P (g a)) :
    Keeps P (lift f x >>= g) :=
  keeps_iff.2 fun t ht => .lift_bind (fun e h => ⟨he e h, ht⟩) fun a h => keeps_iff.1 (hg a h) t ht

theorem Keeps.elim_bind {e : EngineError} {x : Option α} {g : α → Step β}
    (he : e ≠ .pendingOutput) (hg : ∀ a, Keeps P (g a)) :
    Keeps P (TileStreams.lift id (x.elim (.error e) .ok) >>= g) :=
  keeps_iff.2 fun t ht => .elim_bind (fun _ => ⟨he, ht⟩) fun a _ => keeps_iff.1 (hg a) t ht

theorem Keeps.bind {p : Step α} {f : α → Step β} (hp : Keeps P p) (hf : ∀ a, Keeps P (f a)) :
    Keeps P (p >>= f) :=
  keeps_iff.2 fun t ht => (keeps_iff.1 hp t ht).bind fun a t' => keeps_iff.1 (hf a) t'

/-- It is true of the streams that a step finds. -/
theorem Keeps.get_bind {f : TileStreams → Step β} (hf : ∀ t, P t → Keeps P (f t)) :
    Keeps P (get >>= f) :=
  fun t ht => hf t ht t ht

/-- What is said of the streams is still true when a layout is asked for, and when there are other
streams, as many as before if there were any. -/
structure Stable (P : TileStreams → Prop) : Prop where
  resolve : ∀ {t : TileStreams} {sps : Sps} {pps : Pps} {layout : TileLayout}
    {layouts : LayoutTable}, t.layouts.resolve sps pps = .ok (layout, layouts) → P t →
      P { t with layouts }
  streams : ∀ {t : TileStreams} {streams : List BitStream},
    (t.streams ≠ [] → streams.length = t.streams.length) → P t → P { t with streams }

theorem stable_layouts {Q : LayoutTable → Prop} (hQ : LayoutTable.Stable Q) :
    Stable fun t => Q t.layouts :=
  ⟨fun h ht => hQ h ht, fun _ ht => ht⟩

theorem stable_get? (id : PpsId) (held : TileLayout) :
    Stable fun t => t.layouts.get? id = some held :=
  stable_layouts (LayoutTable.stable_get? id held)

theorem stable_count {n : Nat} (hn : n ≠ 0) : Stable fun t => t.streams.length = n := by
  refine ⟨fun _ ht => ht, fun {t streams} hlen ht => ?_⟩
  have hne : t.streams ≠ [] := by
    rintro hnil
    rw [hnil] at ht
    exact hn ht.symm
  exact (hlen hne).trans ht

variable (hP : Stable P)
include hP

theorem keeps_prepare (memory : Memory) (au : AccessUnit) : Keeps P (prepare memory au) := by
  refine .get_bind fun t ht => ?_
  split
  · next hnone _ =>
    split
    · refine .lift_bind (fun e he => ?_) fun streams _ => ?_
      · obtain ⟨-, rfl⟩ := newStreams_eq_error_iff.1 he
        exact nofun
      · exact .set (hP.streams (fun hne => absurd hnone hne) ht)
    · exact .throw (invalidData_ne_pendingOutput _)
  · exact .pure _

theorem keeps_writeAll (unitType : UnitType) (code : Code) : Keeps P (writeAll unitType code) := by
  refine .get_bind fun t ht => ?_
  dsimp only
  split
  · exact .throw_bind (invalidData_ne_pendingOutput _) _
  · refine .lift_bind (fun e _ => ofWrite_ne_pendingOutput e) fun streams hstreams => ?_
    exact .set (hP.streams (fun _ => (mapM_eq_ok_iff.1 hstreams).length_eq.symm) ht)

theorem keeps_resolve (sps : Sps) (pps : Pps) : Keeps P (resolve sps pps) := by
  refine .get_bind fun t ht => ?_
  refine .lift_bind (fun e _ => ofLayout_ne_pendingOutput e) fun result hresolve => ?_
  exact .bind (.set (hP.resolve hresolve ht)) fun _ => .pure _

theorem keeps_writeSps (sps : Sps) (pps : Pps) : Keeps P (writeSps sps pps) := by
  refine .bind (keeps_resolve hP sps pps) fun layout => .get_bind fun t ht => ?_
  split
  · exact .throw_bind (invalidData_ne_pendingOutput _) _
  · refine .lift_bind (fun e he => ?_) fun streams hstreams => ?_
    · obtain ⟨stream, -, hstream⟩ := exists_of_mapM_eq_error he
      exact writeSized_ne_pendingOutput hstream
    · refine .set (hP.streams (fun _ => ?_) ht)
      simpa using (mapM_eq_ok_iff.1 hstreams).length_eq.symm

theorem keeps_distribute (units : List DecodedUnit) : Keeps P (distribute units) := by
  induction units with
  | nil => exact .pure ()
  | cons unit rest ih =>
    cases unit with
    | vps set => exact .bind (keeps_writeAll hP _ _) fun _ => ih
    | sps sps =>
      unfold distribute
      split
      · exact .bind (keeps_writeSps hP _ _) fun _ => ih
      · exact .throw_bind (invalidData_ne_pendingOutput _) _
    | pps pps => exact .bind (keeps_writeAll hP _ _) fun _ => ih
    | slice segment => exact ih
    | other header => exact ih

theorem keeps_distributeAll (memory : Memory) (au : AccessUnit) :
    Keeps P (distributeAll memory au) :=
  .bind (keeps_prepare hP memory au) fun _ => keeps_distribute hP au.units

theorem keeps_writeSlice (memory : Memory) (ctx : Context) (segment : SliceUnit) :
    Keeps P (writeSlice memory ctx segment) := by
  refine .elim_bind (invalidData_ne_pendingOutput _) fun pps => ?_
  refine .elim_bind (invalidData_ne_pendingOutput _) fun sps => ?_
  refine .bind (keeps_resolve hP sps pps) fun layout => ?_
  refine .elim_bind (invalidData_ne_pendingOutput _) fun tile => ?_
  refine .elim_bind (invalidData_ne_pendingOutput _) fun size => .get_bind fun t ht => ?_
  refine .lift_bind (fun e he => openStreams_ne_pendingOutput he) fun streams hopen => ?_
  obtain ⟨-, rfl⟩ := openStreams_eq_ok_iff.1 hopen
  have hopened : ∀ tiles, t.streams ≠ [] → (t.opened tiles).length = t.streams.length :=
    fun tiles hne => by rw [opened_of_ne_nil hne]
  refine .bind (.set (hP.streams (hopened _) ht)) fun _ => ?_
  split
  · exact .throw_bind (invalidData_ne_pendingOutput _) _
  · refine .elim_bind (invalidData_ne_pendingOutput _) fun stream => ?_
    refine .lift_bind (fun e _ => ofWrite_ne_pendingOutput e) fun written _ => ?_
    refine .lift_bind (fun e he => packetData_ne_pendingOutput he) fun data _ => ?_
    refine .bind (.set (hP.streams (fun hne => ?_) ht)) fun _ => .pure _
    rw [List.length_set, hopened _ hne]

end Keeps

/-! ## What waits in the streams -/

variable {t t' : TileStreams}

theorem waiting_of_length_le {tile : Nat} (h : t.streams.length ≤ tile) : t.waiting tile = [] := by
  rw [waiting, List.getElem?_eq_none h]
  rfl

/-- The layouts in use were worked out, and parameter sets wait in the streams. -/
structure Sound (t : TileStreams) : Prop where
  whole : t.Whole
  sets : ∀ tile, WrittenSets (t.waiting tile)

theorem sound_of_waiting_eq_nil (h : t.Whole) (hwaiting : ∀ tile, t.waiting tile = []) : t.Sound := by
  refine ⟨h, fun tile => ?_⟩
  rw [hwaiting]
  exact .nil

theorem sound_reset (h : t.layouts.Worked) : t.reset.Sound := by
  rw [reset_eq]
  exact sound_of_waiting_eq_nil ⟨h, fun _ => whole_fresh⟩ fun _ => waiting_fresh

theorem Sound.distributeAll (h : t.Sound) {au : AccessUnit}
    (hok : distributeAll memory au t = .ok () t') : t'.Sound := by
  have hadds := distributeAll_spec h.whole hok
  refine ⟨hadds.whole, fun tile => ?_⟩
  by_cases hlt : tile < t'.streams.length
  · obtain ⟨bytes, hbytes, hwaiting⟩ := hadds.waiting tile fun _ => hlt
    rw [hwaiting]
    exact (h.sets tile).append (.of_setBytes hbytes)
  · rw [waiting_of_length_le (by omega)]
    exact .nil

theorem Sound.writeSlice (h : t.Sound) {ctx : Context} {segment : SliceUnit} {tile : Nat}
    {data : Bytes} (hok : writeSlice memory ctx segment t = .ok (tile, data) t') : t'.Sound := by
  have hgives := writeSlice_spec h.whole hok
  refine ⟨hgives.whole, fun other => ?_⟩
  by_cases hother : other = tile
  · rw [hother, hgives.emptied]
    exact .nil
  · rw [hgives.others other hother]
    exact h.sets other

end TileStreams

/-! ## Splitters -/

namespace Splitter

/-- The states that a splitter can be in, whatever calls are made, whatever there is room for and
whether they fail. -/
inductive Reachable : Splitter → Prop where
  | empty : Reachable .empty
  | ofExtradata {bytes : Bytes} {memory : Memory} {s : Splitter} (h : ofExtradata bytes memory = .ok s) :
    Reachable s
  | send {s : Splitter} (h : Reachable s) (packet : Packet) (memory : Memory := .ample) :
    Reachable (s.send packet memory).2
  | receive {s : Splitter} (h : Reachable s) (memory : Memory := .ample) :
    Reachable (s.receive memory).2
  | flush {s : Splitter} (h : Reachable s) : Reachable s.flush

/-- The slices that are left in a phase are the last ones of an access unit, which was read as the
last one. -/
def Phase.Left (ctx : Context) : Phase → Prop
  | .idle | .passThrough _ => True
  | .distributing input next later => ∃ c au given,
    AccessUnit.decode c input.data = .ok (au, ctx) ∧ au.slices = given ++ next :: later

/-- Whole units wait in the streams, and the slices that are left are those of the access unit that
was read last. -/
structure Sound (s : Splitter) : Prop where
  tiles : s.tiles.Sound
  left : s.phase.Left s.ctx

variable {memory : Memory} {s : Splitter}

theorem Phase.left_ofSlices {c ctx : Context} {input : Packet} {au : AccessUnit}
    {given later : List SliceUnit} (hdecode : AccessUnit.decode c input.data = .ok (au, ctx))
    (hslices : au.slices = given ++ later) : (Phase.ofSlices input later).Left ctx := by
  cases later with
  | nil => trivial
  | cons next later => exact ⟨c, au, given, hdecode, hslices⟩

theorem Sound.send (h : s.Sound) (packet : Packet) : (s.send packet memory).2.Sound := by
  have hsends := s.sends packet memory
  generalize s.send packet memory = result at hsends
  cases hsends with
  | busy => exact h
  | unread => exact ⟨h.tiles, trivial⟩
  | @refused _ au ctx e tiles decode distribute =>
    have hkeeps := TileStreams.keeps_distributeAll
      (TileStreams.stable_layouts LayoutTable.stable_worked) memory au
    exact ⟨TileStreams.sound_reset (hkeeps.of_error h.tiles.whole.layouts distribute).2, trivial⟩
  | taken idle decode distribute =>
    exact ⟨h.tiles.distributeAll distribute, Phase.left_ofSlices decode (List.nil_append _).symm⟩

theorem Sound.receive (h : s.Sound) : (s.receive memory).2.Sound := by
  have hreceives := s.receives memory
  generalize s.receive memory = result at hreceives
  cases hreceives with
  | nothing => exact h
  | back => exact ⟨h.tiles, trivial⟩
  | @failed _ next later e tiles phase write =>
    have hkeeps := TileStreams.keeps_writeSlice
      (TileStreams.stable_layouts LayoutTable.stable_worked) memory s.ctx next
    exact ⟨TileStreams.sound_reset (hkeeps.of_error h.tiles.whole.layouts write).2, trivial⟩
  | @given input next later tile data tiles phase write =>
    have hleft := h.left
    rw [phase] at hleft
    obtain ⟨c, au, given, hdecode, hslices⟩ := hleft
    have hgiven : au.slices = given ++ [next] ++ later := by
      rw [hslices, List.append_assoc]
      rfl
    exact ⟨h.tiles.writeSlice write, Phase.left_ofSlices hdecode hgiven⟩

theorem Reachable.sound (h : Reachable s) : s.Sound := by
  induction h with
  | empty =>
    exact ⟨TileStreams.sound_of_waiting_eq_nil TileStreams.whole_empty fun _ => rfl, trivial⟩
  | ofExtradata h =>
    obtain ⟨hwhole, hphase, hwaiting⟩ := Run.ofExtradata_spec h
    refine ⟨TileStreams.sound_of_waiting_eq_nil hwhole hwaiting, ?_⟩
    rw [hphase]
    trivial
  | send _ packet _ ih => exact ih.send packet
  | receive _ _ ih => exact ih.receive
  | flush _ ih => exact ⟨TileStreams.sound_reset ih.tiles.whole.layouts, trivial⟩

/-- Parameter sets wait in the streams of a splitter, whatever has been asked of it. -/
theorem Reachable.holdsSets (h : Reachable s) {stream : BitStream}
    (hmem : stream ∈ s.tiles.streams) : stream.HoldsSets := by
  obtain ⟨tile, hstream⟩ := List.mem_iff_getElem?.1 hmem
  refine ⟨h.sound.tiles.whole.streams stream hmem, ?_⟩
  rw [← TileStreams.waiting_of_getElem? hstream]
  exact h.sound.tiles.sets tile

/-- A slice that is given out goes behind whole units that waited for it. -/
theorem Reachable.receive_slice (h : Reachable s) {input packet : Packet} {next : SliceUnit}
    {later : List SliceUnit} (hphase : s.phase = .distributing input next later)
    (hreceive : (s.receive memory).1 = .ok (some packet)) :
    ∃ d own, TileStreams.destination s.ctx next = .ok d ∧ packet.tile = some d.tile ∧
      BitStream.empty.slice next d.sps d.pps d.target = .ok own ∧
      packet.data = s.tiles.waiting d.tile ++ own.out.bytes ∧ Framed (s.tiles.waiting d.tile) := by
  obtain ⟨tile, data, tiles, hwrite, rfl⟩ := writeSlice_of_receive hphase hreceive
  obtain ⟨d, own, hd, rfl, hown, rfl⟩ :=
    (TileStreams.writeSlice_spec h.sound.tiles.whole hwrite).data
  obtain ⟨stream, hstream, rfl⟩ := map_eq_ok_iff.1 hown
  exact ⟨d, stream, hd, rfl, mapError_eq_ok_iff.1 hstream, rfl, (h.sound.tiles.sets d.tile).framed⟩

end Splitter

/-! ## Placers -/

namespace Placer

/-- The states that a placer can be in, whatever calls are made and whether they fail, as long as there
is room for its packets. -/
inductive Reachable : Placer → Prop where
  | ofPlacement {p : Placement} {s : Placer} (h : ofPlacement p = .ok s) : Reachable s
  | filter {s : Placer} (h : Reachable s) (packet : Packet) : Reachable (s.filter packet).2
  | flush {s : Placer} (h : Reachable s) : Reachable s.flush

/-- The states that a placer can be in, whatever calls are made, whatever there is room for and whether
they fail. -/
inductive Occurs : Placer → Prop where
  | ofPlacement {p : Placement} {s : Placer} (h : ofPlacement p = .ok s) : Occurs s
  | filter {s : Placer} (h : Occurs s) (packet : Packet) (memory : Memory) :
    Occurs (s.filter packet memory).2
  | flush {s : Placer} (h : Occurs s) : Occurs s.flush

theorem Reachable.occurs {s : Placer} (h : Reachable s) : s.Occurs := by
  induction h with
  | ofPlacement h => exact .ofPlacement h
  | filter _ packet ih => exact ih.filter packet .ample
  | flush _ ih => exact ih.flush

/-- The placement has passed its checks, and parameter sets wait in the stream. -/
structure Sound (s : Placer) : Prop where
  check : s.placement.check = .ok ()
  stream : s.stream.HoldsSets

variable {s : Placer} {p : Placement} {ctx : Context}

theorem Sound.filter (h : s.Sound) (packet : Packet) : (s.filter packet).2.Sound := by
  cases hfilter : s.filter packet with
  | mk result s' =>
    cases result with
    | ok output =>
      have hstep := step_of_filter hfilter
      generalize (⟨(AccessUnit.decode s.ctx packet.data).toOption, output⟩ : Filtered) = filtered
        at hstep
      cases hstep with
      | unread => exact h
      | sets decode write first => exact ⟨h.check, holdsSets_writeUnits write h.stream⟩
      | slice => exact ⟨h.check, BitStream.holdsSets_empty⟩
    | error e =>
      have hfilters := s.filters packet
      rw [hfilter] at hfilters
      cases hfilters with
      | failed => exact ⟨h.check, BitStream.holdsSets_empty⟩
      | kept decode place noData =>
        have hwhole := (holdsUnits_place place h.stream.holdsUnits).whole
        rw [BitStream.packetData_ample hwhole] at noData
        cases noData

theorem Reachable.sound (h : Reachable s) : s.Sound := by
  induction h with
  | ofPlacement h =>
    obtain ⟨_, hcheck, h⟩ := bind_eq_ok_iff.1 h
    cases h
    exact ⟨hcheck, BitStream.holdsSets_empty⟩
  | filter _ packet ih => exact ih.filter packet
  | flush _ ih =>
    rw [flush_eq]
    exact ⟨ih.check, BitStream.holdsSets_empty⟩

/-- Units in full wait in the stream of a placer, also those of packets that there was no room for. -/
theorem Occurs.holdsUnits {s : Placer} (h : s.Occurs) : s.stream.HoldsUnits := by
  induction h with
  | ofPlacement h =>
    obtain ⟨_, -, h⟩ := bind_eq_ok_iff.1 h
    cases h
    exact BitStream.holdsUnits_empty
  | @filter s _ packet memory ih =>
    have hfilters := s.filters packet memory
    generalize s.filter packet memory = result at hfilters
    cases hfilters with
    | unread => exact ih
    | failed => exact BitStream.holdsUnits_empty
    | waits decode place =>
      obtain ⟨-, hwrite⟩ := place_eq_ok_false_iff.1 place
      obtain ⟨hwhole, own, hown, hbytes⟩ := writeUnits_spec hwrite ih.whole
      exact ⟨hwhole, hbytes ▸ ih.units.sets hown⟩
    | kept decode place => exact holdsUnits_place place ih
    | placed => exact BitStream.holdsUnits_empty
  | flush =>
    rw [flush_eq]
    exact BitStream.holdsUnits_empty

/-- A slice that is placed goes behind whole units that waited for it. -/
theorem Reachable.filter_slice (h : Reachable s) {packet output : Packet} {au : AccessUnit}
    {segment : SliceUnit}
    (hdecode : AccessUnit.decode s.ctx packet.data = .ok (au, ctx))
    (hfirst : au.slices.head? = some segment)
    (hfilter : (s.filter packet).1 = .ok (some output)) :
    ∃ stream sps pps own, au.units.foldlM (writeUnit s.placement ctx) s.stream = .ok stream ∧
      ctx.paramSets segment.header.ppsId = some (sps, pps) ∧
      BitStream.empty.slice segment sps pps s.placement.target = .ok own ∧
      output.data = stream.out.bytes ++ own.out.bytes ∧ Framed stream.out.bytes := by
  obtain ⟨s', hs'⟩ : ∃ s', s.filter packet = (.ok (some output), s') :=
    ⟨_, Prod.ext hfilter rfl⟩
  have hstep := step_of_filter hs'
  rw [hdecode] at hstep
  cases hstep with
  | @slice _ _ stream stream' segment' decode write first written =>
    obtain rfl : segment' = segment := Option.some.inj (first.symm.trans hfirst)
    obtain ⟨hwhole, hsets⟩ := holdsSets_writeUnits write h.sound.stream
    obtain ⟨pps, hpps, written⟩ := bind_eq_ok_iff.1 written
    obtain ⟨sps, hsps, written⟩ := bind_eq_ok_iff.1 written
    obtain ⟨-, own, hown, hbytes⟩ := BitStream.bytes_slice hwhole (mapError_eq_ok_iff.1 written)
    exact ⟨stream, sps, pps, own, write, Context.paramSets_eq_some_iff.2
      ⟨elim_eq_ok_iff.1 hpps, elim_eq_ok_iff.1 hsps⟩, hown, hbytes, hsets.framed⟩

end Placer

end TiledVideo
