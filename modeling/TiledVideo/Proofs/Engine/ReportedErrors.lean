import TiledVideo.Proofs.Engine.Refusals
import TiledVideo.Proofs.ParamSet.Complete
import TiledVideo.Proofs.Slice.WriteErrors

/-!
# Errors that engines report

An engine reports what is wrong with a stream or not supported. It never comes upon a contradiction of
its own: streams are not in the middle of a byte between units, each tile of a layout has a size and a
stream, and the parameter sets that slices are written with are in force. This is so whatever is asked
of it, also after requests that failed.

Results:

* `EngineError.Reported`: the errors that are about the stream or the placement.
* `TileStreams.reports_distributeAll`, `TileStreams.reports_writeSlice`: the steps of a splitter fail
  only with such errors.
* `never_contradicted`: so do all requests, and only parameter sets in full wait in the streams between
  them.
-/

namespace TiledVideo

/-! ## Errors -/

namespace LayoutError

/-- What two layouts of the same pictures may differ in. -/
def differences : List String := ["picture size", "tile partition", "ctb size", "tile geometry"]

/-- The error is one that comes up when a layout is worked out or compared. -/
def IsKnown : LayoutError → Prop
  | .mismatch what => what ∈ differences
  | _ => True

instance (e : LayoutError) : Decidable e.IsKnown :=
  match e with
  | .mismatch what => inferInstanceAs (Decidable (what ∈ _))
  | .tilesDisabled | .explicitSizeOverflow _ => .isTrue trivial

end LayoutError

namespace EngineError

/-- The texts of errors that are about the stream. -/
def streamTexts : List String :=
  ["extradata", "no PPS in extradata", "tiles not enabled", "tile count changed",
    "tile count unknown", "SPS not followed by its PPS", "slice segment address outside picture",
    "tile column widths exceed picture", "tile row heights exceed picture"]

/-- The error is about the stream, the placement, want of room or packets that are still to be
received. -/
def Reported : EngineError → Prop
  | .invalidData what => what ∈ streamTexts ++ LayoutError.differences ++ WriteError.elements
  | _ => True

/-- Errors that are about an engine itself. -/
def contradictions : List EngineError :=
  ["unaligned write", "not a slice", "tile index", "slice refers to unknown PPS",
    "PPS refers to unknown SPS"].map .invalidData

instance (e : EngineError) : Decidable e.Reported :=
  match e with
  | .invalidData what => inferInstanceAs (Decidable (what ∈ _))
  | .unsupported _ | .outOfMemory | .pendingOutput | .invalidOption .. => .isTrue trivial

theorem Reported.not_contradiction {e : EngineError} (h : e.Reported) : e ∉ contradictions := by
  have hnone : ∀ e ∈ contradictions, ¬ e.Reported := by decide
  exact fun hmem => hnone e hmem h

theorem reported_ofWrite {e : WriteError} (h : e.IsContent) : (ofWrite e).Reported := by
  cases e with
  | unsupported feature => trivial
  | invalidValue element value => exact List.mem_append_right _ h
  | notByteAligned => exact h.elim

theorem reported_ofLayout {e : LayoutError} (h : e.IsKnown) : (ofLayout e).Reported := by
  cases e with
  | tilesDisabled => decide
  | explicitSizeOverflow columns => cases columns <;> decide
  | mismatch what => exact List.mem_append_left _ (List.mem_append_right _ h)

end EngineError

/-! ## Layouts -/

section Layouts

variable {sps : Sps} {pps : Pps} {e : LayoutError}

theorem TileLayout.isKnown_of_tileSizes {grid : TileGrid} (h : tileSizes sps grid = .error e) :
    e.IsKnown := by
  unfold tileSizes at h
  split at h
  · cases h
  · split at h
    · cases h
      trivial
    · split at h
      · cases h
        trivial
      · cases h

theorem TileLayout.isKnown_of_ofParamSets (h : ofParamSets sps pps = .error e) : e.IsKnown := by
  unfold ofParamSets at h
  split at h
  · cases h
    trivial
  · obtain h | ⟨_, -, h⟩ := bind_eq_error_iff.1 h
    · exact isKnown_of_tileSizes h
    · cases h

theorem TileLayout.isKnown_of_check {l : TileLayout} (h : l.check sps pps = .error e) :
    e.IsKnown := by
  unfold check at h
  split at h
  · cases h
    trivial
  · split_ifs at h
    · cases h
      decide
    · cases h
      decide
    · cases h
      decide
    · obtain h | ⟨_, -, h⟩ := bind_eq_error_iff.1 h
      · exact isKnown_of_tileSizes h
      · dsimp only at h
        split_ifs at h
        · cases h
          decide
        · cases h

theorem LayoutTable.isKnown_of_resolve {t : LayoutTable} (h : t.resolve sps pps = .error e) :
    e.IsKnown := by
  unfold resolve at h
  split at h
  · obtain h | ⟨_, -, h⟩ := bind_eq_error_iff.1 h
    · exact TileLayout.isKnown_of_check h
    · cases h
  · obtain h | ⟨_, -, h⟩ := bind_eq_error_iff.1 h
    · exact TileLayout.isKnown_of_ofParamSets h
    · cases h

end Layouts

/-! ## Units -/

namespace BitStream

variable {s : BitStream}

theorem reported_of_parameterSet (hs : s.Whole) {unitType : UnitType} {code : Code}
    (hcode : code.closed.FailsByContent) {e : WriteError}
    (h : s.parameterSet unitType code.closed = .error e) : (EngineError.ofWrite e).Reported := by
  rw [parameterSet_eq hs.pending] at h
  exact EngineError.reported_ofWrite (hcode e (map_eq_error_iff.1 h))

theorem reported_of_slice (hs : s.Whole) {segment : SliceUnit} {sps : Sps} {pps : Pps}
    {target : SliceHeader.Target} {e : WriteError} (h : s.slice segment sps pps target = .error e) :
    (EngineError.ofWrite e).Reported := by
  rw [slice_eq hs.pending] at h
  have hcode := map_eq_error_iff.1 h
  exact EngineError.reported_ofWrite (SliceHeader.failsByContent _ _ sps pps target e hcode)

theorem reported_of_packetData (hs : s.Whole) {memory : Memory} {e : EngineError}
    (h : s.packetData memory = .error e) : e.Reported := by
  obtain ⟨-, rfl⟩ := (packetData_eq_error_iff hs).1 h
  trivial

end BitStream

/-! ## Steps of a splitter -/

namespace TileStreams

variable {α : Type} {t : TileStreams} {sps : Sps} {pps : Pps} {memory : Memory}

theorem reported_of_newStreams {tiles : Nat} {e : EngineError}
    (h : newStreams memory tiles = .error e) : e.Reported := by
  obtain ⟨-, rfl⟩ := newStreams_eq_error_iff.1 h
  trivial

theorem reported_of_openStreams {tiles : Nat} {e : EngineError}
    (h : t.openStreams memory tiles = .error e) : e.Reported := by
  obtain ⟨-, -, rfl⟩ := openStreams_eq_error_iff.1 h
  trivial

/-- Only whole units wait in the streams, and each layout in use has sizes for all its tiles. -/
structure Sized (t : TileStreams) : Prop where
  whole : t.Whole
  sized : t.layouts.Sized

/-- A step leaves it so. If it fails, then with an error that is about the stream. -/
def Reports (t : TileStreams) (p : Step α) : Prop :=
  Leads t p (fun _ t' => t'.Sized) fun e t' => e.Reported ∧ t'.layouts.Sized

theorem reports_prepare (ht : t.Sized) (au : AccessUnit) : t.Reports (prepare memory au) := by
  have hlayouts : Leads t (prepare memory au) (fun _ t' => t'.layouts.Sized)
      fun e t' => e.Reported ∧ t'.layouts.Sized := by
    refine .get_bind ?_
    split
    · split
      · exact .lift_bind (fun e he => ⟨reported_of_newStreams he, ht.sized⟩) fun _ _ => ht.sized
      · exact ⟨by decide, ht.sized⟩
    · exact ht.sized
  exact .of_parts (fun _ t' hok => ⟨(prepare_spec ht.whole hok).whole, hlayouts.of_ok hok⟩)
    fun e t' herror => hlayouts.of_error herror

theorem reports_writeAll (ht : t.Sized) (unitType : UnitType) {code : Code}
    (hcode : code.closed.FailsByContent) : t.Reports (writeAll unitType code.closed) := by
  have hlayouts : Leads t (writeAll unitType code.closed) (fun _ t' => t'.layouts.Sized)
      fun e t' => e.Reported ∧ t'.layouts.Sized := by
    refine .get_bind ?_
    dsimp only
    split
    · exact .throw_bind ⟨by decide, ht.sized⟩ _
    · refine .lift_bind (fun e he => ⟨?_, ht.sized⟩) fun _ _ => ht.sized
      obtain ⟨s, hs, herror⟩ := exists_of_mapM_eq_error he
      exact BitStream.reported_of_parameterSet (ht.whole.streams s hs) hcode herror
  exact .of_parts (fun _ t' hok => ⟨(writeAll_spec ht.whole hok).whole, hlayouts.of_ok hok⟩)
    fun e t' herror => hlayouts.of_error herror

theorem leads_resolve (ht : t.Sized) (sps : Sps) (hcounted : pps.Counted) :
    Leads t (resolve sps pps) (fun l t' => t'.Sized ∧ l.Sized)
      fun e t' => e.Reported ∧ t'.layouts.Sized := by
  refine .get_bind (.lift_bind (fun e he => ⟨?_, ht.sized⟩) fun result hresult => .set_bind ?_)
  · exact EngineError.reported_ofLayout (LayoutTable.isKnown_of_resolve he)
  · obtain ⟨hlayouts, hlayout⟩ := ht.sized.resolve hcounted hresult
    have hworked := (LayoutTable.resolve_spec ht.whole.layouts hresult).2
    exact ⟨⟨⟨hworked, ht.whole.streams⟩, hlayouts⟩, hlayout⟩

theorem reported_of_writeSized {layout : TileLayout} (hlayout : layout.Sized)
    {stream : BitStream × Nat} (hs : stream.1.Whole) (htile : stream.2 < layout.tileCount)
    {e : EngineError} (h : writeSized sps layout stream = .error e) : e.Reported := by
  obtain ⟨width, height, hsize⟩ := hlayout.tileSize htile
  simp only [writeSized, hsize] at h
  obtain ⟨e', hset, rfl⟩ := mapError_eq_error_iff.1 h
  exact BitStream.reported_of_parameterSet hs (sps.resized width height).failsByContent hset

theorem reports_writeSps (ht : t.Sized) (sps : Sps) (hcounted : pps.Counted) :
    t.Reports (writeSps sps pps) := by
  have hlayouts : Leads t (writeSps sps pps) (fun _ t' => t'.layouts.Sized)
      fun e t' => e.Reported ∧ t'.layouts.Sized := by
    refine (leads_resolve ht sps hcounted).bind fun layout t₁ hresolved => .get_bind ?_
    obtain ⟨h₁, hlayout⟩ := hresolved
    dsimp only
    split
    · exact .throw_bind ⟨by decide, h₁.sized⟩ _
    · next hcount =>
      refine .lift_bind (fun e he => ⟨?_, h₁.sized⟩) fun _ _ => h₁.sized
      obtain ⟨⟨s, tile⟩, hmem, herror⟩ := exists_of_mapM_eq_error he
      obtain ⟨-, htile, hs⟩ := List.mem_zipIdx hmem
      rw [Nat.zero_add, not_not.1 hcount] at htile
      have hwhole := h₁.whole.streams s (hs ▸ List.getElem_mem _)
      exact reported_of_writeSized hlayout hwhole htile herror
  exact .of_parts (fun _ t' hok => ⟨(writeSps_spec ht.whole hok).whole, hlayouts.of_ok hok⟩)
    fun e t' herror => hlayouts.of_error herror

/-- Parameter sets that are distributed leave whole units and layouts with sizes for all tiles. -/
theorem reports_distribute {units : List DecodedUnit} (ht : t.Sized)
    (hcounted : ∀ p, .pps p ∈ units → p.Counted) : t.Reports (distribute units) := by
  induction units generalizing t with
  | nil => exact ht
  | cons unit rest ih =>
    have hrest : ∀ {t' : TileStreams}, t'.Sized → t'.Reports (distribute rest) :=
      fun ht' => ih ht' fun p hp => hcounted p (List.mem_cons_of_mem _ hp)
    cases unit with
    | vps set => exact (reports_writeAll ht .vps set.failsByContent).bind fun _ _ => hrest
    | pps pps =>
      exact (reports_writeAll ht .pps (pps.failsByContent .remove)).bind fun _ _ => hrest
    | slice segment => exact hrest ht
    | other header => exact hrest ht
    | sps sps =>
      unfold distribute
      split
      · next pps hafter =>
        obtain ⟨later, rfl, -⟩ := ppsAfter_eq_some hafter
        have hpps := hcounted pps (List.mem_cons_of_mem _ List.mem_cons_self)
        exact (reports_writeSps ht sps hpps).bind fun _ _ => hrest
      · exact .throw_bind ⟨by decide, ht.sized⟩ _

theorem reports_distributeAll {au : AccessUnit} (ht : t.Sized)
    (hcounted : ∀ p, .pps p ∈ au.units → p.Counted) : t.Reports (distributeAll memory au) :=
  (reports_prepare ht au).bind fun _ _ h => reports_distribute h hcounted

/-- A slice can be written only with sets that are in force, and then its tile has a size and a stream.
-/
theorem reports_writeSlice {ctx : Context} (hctx : ctx.Complete) {segment : SliceUnit}
    (hpps : ∃ p, ctx.ppsById segment.header.ppsId = some p) (ht : t.Sized) :
    t.Reports (writeSlice memory ctx segment) := by
  have hlayouts : Leads t (writeSlice memory ctx segment) (fun _ t' => t'.layouts.Sized)
      fun e t' => e.Reported ∧ t'.layouts.Sized := by
    obtain ⟨pps, hpps⟩ := hpps
    obtain ⟨sps, hsps⟩ := hctx.spsOf _ pps hpps
    refine .elim_bind (fun hnone => absurd hpps (by simp [hnone])) fun pps' hpps' => ?_
    obtain rfl := Option.some.inj (hpps.symm.trans hpps')
    refine .elim_bind (fun hnone => absurd hsps (by simp [hnone])) fun sps' hsps' => ?_
    obtain rfl := Option.some.inj (hsps.symm.trans hsps')
    refine (leads_resolve ht sps (hctx.counted _ pps hpps)).bind fun layout t₁ hresolved => ?_
    obtain ⟨h₁, hlayout⟩ := hresolved
    refine .elim_bind (fun _ => ⟨by decide, h₁.sized⟩) fun tile htile => ?_
    obtain ⟨-, _, _, -, -, -, hlt⟩ := TileLayout.tileIndex_eq_some_iff.1 htile
    obtain ⟨width, height, hsize⟩ := hlayout.tileSize hlt
    refine .elim_bind (fun hnone => absurd hsize (by simp [hnone])) fun size _ => ?_
    refine .get_bind (.lift_bind (fun e he => ⟨reported_of_openStreams he, h₁.sized⟩)
      fun streams hopen => .set_bind ?_)
    obtain ⟨-, rfl⟩ := openStreams_eq_ok_iff.1 hopen
    split
    · exact .throw_bind ⟨by decide, h₁.sized⟩ _
    · next hcount =>
      have hstream : (t₁.opened layout.tileCount)[tile]? = some _ :=
        List.getElem?_eq_getElem (by omega)
      refine .elim_bind (fun hnone => absurd hstream (by simp [hnone])) fun stream hmem => ?_
      have hwhole := whole_opened h₁.whole layout.tileCount (List.mem_of_getElem? hmem)
      refine .lift_bind (fun e he => ⟨BitStream.reported_of_slice hwhole he, h₁.sized⟩)
        fun written hwritten => ?_
      have hwhole' := (BitStream.bytes_slice hwhole hwritten).1
      exact .lift_bind (fun e he => ⟨BitStream.reported_of_packetData hwhole' he, h₁.sized⟩)
        fun data _ => h₁.sized
  refine .of_parts ?_ fun e t' herror => hlayouts.of_error herror
  rintro ⟨tile, data⟩ t' hok
  exact ⟨(writeSlice_spec ht.whole hok).whole, hlayouts.of_ok hok⟩

end TileStreams

/-! ## Splitters -/

namespace Splitter

variable {s : Splitter} {memory : Memory}

/-- The sets that slices are written with are in force, and the layouts in use have sizes for all tiles.
-/
structure Consistent (s : Splitter) : Prop where
  ctx : s.ctx.Complete
  layouts : s.tiles.layouts.Sized

theorem Consistent.send (hs : s.Sound) (h : s.Consistent) (packet : Packet) :
    (s.send packet memory).2.Consistent ∧
      ∀ e, (s.send packet memory).1 = .error e → e.Reported := by
  have hreports : ∀ {au ctx}, AccessUnit.decode s.ctx packet.data = .ok (au, ctx) →
      s.tiles.Reports (TileStreams.distributeAll memory au) := by
    intro au ctx hdecode
    have hyields := (AccessUnit.yieldsAll_of_decode hdecode).1
    exact TileStreams.reports_distributeAll ⟨hs.tiles.whole, h.layouts⟩ fun _ => hyields.counted
  have hsends := s.sends packet memory
  generalize s.send packet memory = result at hsends
  cases hsends with
  | busy =>
    refine ⟨h, fun e he => ?_⟩
    cases he
    decide
  | unread => exact ⟨⟨h.ctx, h.layouts⟩, nofun⟩
  | refused idle decode distribute =>
    obtain ⟨hreported, hlayouts⟩ := (hreports decode).of_error distribute
    refine ⟨⟨h.ctx.decode decode, hlayouts⟩, fun e' he => ?_⟩
    cases he
    exact hreported
  | taken idle decode distribute =>
    exact ⟨⟨h.ctx.decode decode, ((hreports decode).of_ok distribute).sized⟩, nofun⟩

theorem Consistent.receive (hs : s.Sound) (h : s.Consistent) :
    (s.receive memory).2.Consistent ∧ ∀ e, (s.receive memory).1 = .error e → e.Reported := by
  -- the picture parameter set of a slice that is left has been in force since the slice was read
  have hwrite : ∀ {input next later}, s.phase = .distributing input next later →
      s.tiles.Reports (TileStreams.writeSlice memory s.ctx next) := by
    intro input next later hphase
    have hleft := hs.left
    rw [hphase] at hleft
    obtain ⟨c, au, given, hdecode, hslices⟩ := hleft
    have hnext : next ∈ au.slices := by
      rw [hslices]
      exact List.mem_append_right _ List.mem_cons_self
    exact TileStreams.reports_writeSlice h.ctx (AccessUnit.ppsById_of_decode hdecode hnext)
      ⟨hs.tiles.whole, h.layouts⟩
  have hreceives := s.receives memory
  generalize s.receive memory = result at hreceives
  cases hreceives with
  | nothing => exact ⟨h, nofun⟩
  | back => exact ⟨⟨h.ctx, h.layouts⟩, nofun⟩
  | failed phase write =>
    obtain ⟨hreported, hlayouts⟩ := (hwrite phase).of_error write
    refine ⟨⟨h.ctx, hlayouts⟩, fun e' he => ?_⟩
    cases he
    exact hreported
  | given phase write => exact ⟨⟨h.ctx, ((hwrite phase).of_ok write).sized⟩, nofun⟩

theorem consistent_ofExtradata {bytes : Bytes} (h : ofExtradata bytes memory = .ok s) :
    s.Consistent := by
  obtain ⟨sets, pps, layouts, hsets, hpps, hlayouts, rfl⟩ := Run.ofExtradata_eq_ok h
  obtain ⟨hctx, hcounted⟩ := Extradata.complete_of_decode hsets
  refine ⟨hctx, ?_⟩
  obtain rfl | ⟨sps, layout, hresolve⟩ := hlayouts
  · exact LayoutTable.sized_empty
  · exact (LayoutTable.sized_empty.resolve (hcounted pps hpps) hresolve).1

theorem reported_of_ofExtradata {bytes : Bytes} {e : EngineError}
    (h : ofExtradata bytes memory = .error e) : e.Reported := by
  obtain h | ⟨sets, -, h⟩ := bind_eq_error_iff.1 h
  · obtain ⟨_, -, rfl⟩ := mapError_eq_error_iff.1 h
    decide
  obtain h | ⟨pps, -, h⟩ := bind_eq_error_iff.1 h
  · obtain ⟨-, rfl⟩ := elim_eq_error_iff.1 h
    decide
  have hresolve : ∀ {sps : Sps} {f : TileLayout × LayoutTable → Splitter},
      ((LayoutTable.empty.resolve sps pps).mapError EngineError.ofLayout >>= fun r => pure (f r)) =
        .error e → e.Reported := by
    intro sps f h
    obtain h | ⟨_, -, h⟩ := bind_eq_error_iff.1 h
    · obtain ⟨e', he', rfl⟩ := mapError_eq_error_iff.1 h
      exact EngineError.reported_ofLayout (LayoutTable.isKnown_of_resolve he')
    · cases h
  cases hsps : sets.ctx.spsOf pps with
  | none =>
    simp only [hsps] at h
    split at h
    · cases h
      decide
    · obtain h | ⟨_, -, h⟩ := bind_eq_error_iff.1 h
      · exact TileStreams.reported_of_newStreams h
      · cases h
  | some sps =>
    simp only [hsps] at h
    split at h
    · cases h
      decide
    · obtain h | ⟨_, -, h⟩ := bind_eq_error_iff.1 h
      · exact TileStreams.reported_of_newStreams h
      · exact hresolve h

theorem Reachable.consistent (h : s.Reachable) : s.Consistent := by
  induction h with
  | empty => exact ⟨.empty, LayoutTable.sized_empty⟩
  | ofExtradata h => exact consistent_ofExtradata h
  | send hs packet _ ih => exact (ih.send hs.sound packet).1
  | receive hs _ ih => exact (ih.receive hs.sound).1
  | flush _ ih => exact ⟨ih.ctx, ih.layouts⟩

end Splitter

/-! ## Placers -/

namespace Placer

variable {s : Placer} {p : Placement} {ctx : Context} {stream : BitStream}

theorem reported_of_check {e : EngineError} (h : p.check = .error e) : e.Reported := by
  have hoption : ∀ {option value max}, Placement.checkOption option value max = .error e →
      e.Reported := by
    intro option value max h
    rw [Placement.checkOption_eq_error h]
    trivial
  simp only [Placement.check, bind_eq_error_iff] at h
  obtain h | ⟨-, -, h | ⟨-, -, h | ⟨-, -, h | ⟨-, -, h | ⟨-, -, h | ⟨-, -, h⟩⟩⟩⟩⟩⟩ := h
  · exact hoption h
  · exact hoption h
  · exact hoption h
  · exact hoption h
  · exact hoption h
  · exact hoption h
  · obtain ⟨option, value, rfl⟩ := Placement.checkGrid_eq_error h
    trivial

theorem reported_of_writeUnit (hs : stream.Whole) {unit : DecodedUnit} {e : EngineError}
    (h : writeUnit p ctx stream unit = .error e) : e.Reported := by
  obtain ⟨option, value, rfl⟩ | ⟨unitType, code, e', hcode, hwrite, rfl⟩ := writeUnit_eq_error h
  · trivial
  · exact BitStream.reported_of_parameterSet hs hcode hwrite

/-- The parameter sets of a slice are in force, and the stream that it is written to is whole. -/
theorem reported_of_writeSlice (hctx : ctx.Complete) {segment : SliceUnit}
    (hpps : ∃ p, ctx.ppsById segment.header.ppsId = some p) (hs : stream.Whole) {e : EngineError}
    (h : writeSlice p ctx stream segment = .error e) : e.Reported := by
  obtain ⟨hnone, -⟩ | ⟨sps, pps, e', hslice, rfl⟩ := writeSlice_eq_error h
  · obtain ⟨pps, hpps⟩ := hpps
    obtain ⟨sps, hsps⟩ := hctx.spsOf _ pps hpps
    rw [Context.paramSets_eq_some_iff.2 ⟨hpps, hsps⟩] at hnone
    cases hnone
  · exact BitStream.reported_of_slice hs hslice

theorem reported_of_place (hctx : ctx.Complete) {c : Context} {bytes : Bytes} {au : AccessUnit}
    (hdecode : AccessUnit.decode c bytes = .ok (au, ctx)) (hs : stream.Whole) {e : EngineError}
    (h : place p ctx stream au = .error e) : e.Reported := by
  obtain ⟨stream₁, hs₁, ⟨unit, hunit⟩ | ⟨segment, hfirst, hslice⟩⟩ := place_eq_error hs h
  · exact reported_of_writeUnit hs₁ hunit
  · have hpps := AccessUnit.ppsById_of_decode hdecode (List.mem_of_head? hfirst)
    exact reported_of_writeSlice hctx hpps hs₁ hslice

theorem complete_filter (h : s.ctx.Complete) (packet : Packet) (memory : Memory) :
    (s.filter packet memory).2.ctx.Complete := by
  have hfilters := s.filters packet memory
  generalize s.filter packet memory = result at hfilters
  cases hfilters with
  | unread => exact h
  | failed decode => exact h.decode decode
  | waits decode => exact h.decode decode
  | kept decode => exact h.decode decode
  | placed decode => exact h.decode decode

theorem Occurs.complete (h : s.Occurs) : s.ctx.Complete := by
  induction h with
  | ofPlacement h =>
    obtain ⟨_, -, h⟩ := bind_eq_ok_iff.1 h
    cases h
    exact .empty
  | filter _ packet memory ih => exact complete_filter ih packet memory
  | flush _ ih => exact ih

theorem Occurs.reported (h : s.Occurs) {packet : Packet} {memory : Memory} {e : EngineError}
    (herror : (s.filter packet memory).1 = .error e) : e.Reported := by
  have hfilters := s.filters packet memory
  generalize s.filter packet memory = result at herror hfilters
  cases hfilters with
  | unread => cases herror
  | waits => cases herror
  | placed => cases herror
  | @failed au ctx e' decode place =>
    cases herror
    exact reported_of_place (h.complete.decode decode) decode h.holdsUnits.whole place
  | @kept au ctx stream e' decode place noData =>
    cases herror
    exact BitStream.reported_of_packetData (holdsUnits_place place h.holdsUnits).whole noData

theorem reported_of_ofPlacement {e : EngineError} (h : ofPlacement p = .error e) : e.Reported := by
  obtain h | ⟨_, -, h⟩ := bind_eq_error_iff.1 h
  · exact reported_of_check h
  · cases h

end Placer

/-- Whatever is asked of an engine and whatever there is room for, also after requests that failed, its
streams are between bytes and hold nothing but whole units, and no request fails because the engine
contradicts itself. The units are parameter sets, as long as a placer has found room for its packets. Nor
does an engine fail to start for such a reason. -/
theorem never_contradicted :
    (∀ s : Splitter, s.Reachable →
      (∀ stream ∈ s.tiles.streams, stream.aligned = true ∧ WrittenSets stream.out.bytes) ∧
      (∀ packet memory e, (s.send packet memory).1 = .error e → e ∉ EngineError.contradictions) ∧
      ∀ memory e, (s.receive memory).1 = .error e → e ∉ EngineError.contradictions) ∧
    (∀ bytes memory e, Splitter.ofExtradata bytes memory = .error e →
      e ∉ EngineError.contradictions) ∧
    (∀ s : Placer, s.Occurs →
      (s.stream.aligned = true ∧ WrittenUnits s.stream.out.bytes) ∧
      (s.Reachable → WrittenSets s.stream.out.bytes) ∧
      ∀ packet memory e, (s.filter packet memory).1 = .error e → e ∉ EngineError.contradictions) ∧
    ∀ p e, Placer.ofPlacement p = .error e → e ∉ EngineError.contradictions := by
  refine ⟨fun s hs => ⟨fun stream hmem => ?_, fun packet memory e h => ?_, fun memory e h => ?_⟩,
    fun bytes memory e h => (Splitter.reported_of_ofExtradata h).not_contradiction,
    fun s hs => ⟨?_, fun hs => hs.sound.stream.sets,
      fun packet memory e h => (hs.reported h).not_contradiction⟩,
    fun p e h => (Placer.reported_of_ofPlacement h).not_contradiction⟩
  · have hholds := hs.holdsSets hmem
    exact ⟨hholds.aligned, hholds.sets⟩
  · exact ((hs.consistent.send hs.sound packet).2 e h).not_contradiction
  · exact ((hs.consistent.receive hs.sound).2 e h).not_contradiction
  · have hholds := hs.holdsUnits
    exact ⟨hholds.aligned, hholds.units⟩

open Sample in
/-- A splitter that has given out the first slice of the picture still holds the parameter sets of the
second tile. One that waits for the next picture, and a placer with a grid that is too fine, refuse
parameter sets that do not fit. Without room for its packet, the picture waits in a placer. -/
theorem never_contradicted_sample :
    (splitter.receive.2.Reachable ∧ (splitter.receive.2.tiles.streams[1]?.map (·.out.bytes.isEmpty)) =
        some false ∧
      ∀ stream ∈ splitter.receive.2.tiles.streams,
        stream.aligned = true ∧ WrittenSets stream.out.bytes) ∧
    (waitingSplitter.Reachable ∧
      (waitingSplitter.send narrowSets).1 = .error (.invalidData "picture size") ∧
      .invalidData "picture size" ∉ EngineError.contradictions) ∧
    ((splitter.receive scarce).1 = .error .outOfMemory ∧
      .outOfMemory ∉ EngineError.contradictions) ∧
    (Splitter.ofExtradata [] = .error (.invalidData "extradata") ∧
      .invalidData "extradata" ∉ EngineError.contradictions) ∧
    (finePlacer.Reachable ∧ WrittenSets finePlacer.stream.out.bytes ∧
      (finePlacer.filter setsAlone).1 = .error (.invalidOption "column" 4) ∧
      .invalidOption "column" 4 ∉ EngineError.contradictions) ∧
    ((placer.filter { data := picture } scarce).2.Occurs ∧
      (placer.filter { data := picture } scarce).2.stream.out.bytes = placedPacket.data ∧
      WrittenUnits (placer.filter { data := picture } scarce).2.stream.out.bytes) ∧
    Placer.ofPlacement { x := 8193 } = .error (.invalidOption "x" 8193) ∧
      .invalidOption "x" 8193 ∉ EngineError.contradictions := by
  obtain ⟨hsplitter, hextradata, hplacer, hplacement⟩ := never_contradicted
  have hsent : splitter.Reachable := .send .empty _
  have hwaiting : waitingSplitter.Reachable := .receive (.receive hsent)
  have hreceived : (splitter.receive scarce).1 = .error .outOfMemory := by decide +kernel
  have hempty : Splitter.ofExtradata [] = .error (.invalidData "extradata") := by decide +kernel
  have hfine : finePlacer.Reachable := .ofPlacement (p := finePlacer.placement) (by decide)
  obtain ⟨-, hsets, hfilter⟩ := hplacer _ hfine.occurs
  have hfull : (placer.filter { data := picture } scarce).2.Occurs :=
    .filter (.ofPlacement (p := Placer.samplePlacement) (by decide +kernel)) _ _
  have hplaced : Placer.ofPlacement { x := 8193 } = .error (.invalidOption "x" 8193) := by
    decide +kernel
  exact ⟨⟨hsent.receive, by decide +kernel, (hsplitter _ hsent.receive).1⟩,
    ⟨hwaiting, send_narrowSets, (hsplitter _ hwaiting).2.1 _ _ _ send_narrowSets⟩,
    ⟨hreceived, (hsplitter _ hsent).2.2 _ _ hreceived⟩, ⟨hempty, hextradata _ _ _ hempty⟩,
    ⟨hfine, hsets hfine, filter_setsAlone, hfilter _ _ _ filter_setsAlone⟩,
    ⟨hfull, by decide +kernel, (hplacer _ hfull).1.2⟩, hplaced, hplacement _ _ hplaced⟩

end TiledVideo
