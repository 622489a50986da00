import TiledVideo.Engine.Splitter
import TiledVideo.Proofs.Nal.Framing
import TiledVideo.Proofs.Tiling.Layout

/-!
# What the stream of a tile gets

Each step of a splitter adds whole units to the streams. What they are depends only on the units of
the access unit and on the tile, not on what has come before.

Results:

* `setBytes`, `sliceBytes`: what a tile gets of the parameter sets and of a slice.
* `distributeAll_spec`: the parameter sets of an access unit go behind what waits in each stream.
* `writeSlice_eq_ok_iff`: when a slice is given out, and what becomes of the streams.
* `writeSlice_spec`: a slice goes behind what waits in the stream of its tile, and all is taken out.
-/

namespace TiledVideo.TileStreams

/-! ## Units for a tile -/

/-- The bytes of a parameter set in a stream of its own. -/
def ownSet (unitType : UnitType) (code : Code) : Except EngineError Bytes :=
  (·.out.bytes) <$> (BitStream.empty.parameterSet unitType code).mapError .ofWrite

/-- The size of a tile in the layout of a pair of parameter sets. -/
def tileSizeOf (sps : Sps) (pps : Pps) (tile : Nat) : Except EngineError (Nat × Nat) := do
  let layout ← (TileLayout.ofParamSets sps pps).mapError .ofLayout
  (layout.tileSize tile).elim (.error .badTileIndex) .ok

/-- What a tile gets of a unit that comes before others, if the unit is a parameter set: a sequence
parameter set has the size of the tile in the layout of the picture parameter set behind it, and a
picture parameter set has no tiles. -/
def ownSetBytes (tile : Nat) (rest : List DecodedUnit) : DecodedUnit → Except EngineError Bytes
  | .vps set => ownSet .vps set.encode
  | .sps sps => do
    let pps ← (ppsAfter sps rest).elim (.error .spsWithoutPps) .ok
    let (width, height) ← tileSizeOf sps pps tile
    ownSet .sps (sps.resized width height).encode
  | .pps pps => ownSet .pps (pps.encode .remove)
  | .slice _ => pure []
  | .other _ => pure []

/-- What a tile gets of the parameter sets among some units. -/
def setBytes (tile : Nat) : List DecodedUnit → Except EngineError Bytes
  | [] => pure []
  | unit :: rest => do
    let own ← ownSetBytes tile rest unit
    let later ← setBytes tile rest
    pure (own ++ later)

/-- Where a slice goes: the corner of the picture of its tile. -/
structure Destination where
  sps : Sps
  pps : Pps
  tile : Nat
  target : SliceHeader.Target

/-- Where a slice goes by the layout of its parameter sets. -/
def destination (ctx : Context) (segment : SliceUnit) : Except EngineError Destination := do
  let pps ← (ctx.ppsById segment.header.ppsId).elim (.error .unknownPps) .ok
  let sps ← (ctx.spsOf pps).elim (.error .unknownSps) .ok
  let layout ← (TileLayout.ofParamSets sps pps).mapError .ofLayout
  let tile ← (layout.tileIndex segment.header.address).elim (.error .addressOutside) .ok
  let (width, height) ← (layout.tileSize tile).elim (.error .badTileIndex) .ok
  pure { sps, pps, tile, target := { width, height, tiles := .remove, x := 0, y := 0 } }

/-- The bytes of a slice in a stream of its own. -/
def ownSlice (segment : SliceUnit) (d : Destination) : Except EngineError Bytes :=
  (·.out.bytes) <$> (BitStream.empty.slice segment d.sps d.pps d.target).mapError .ofWrite

/-- What a tile gets of a slice: nothing if the slice is of another tile. -/
def sliceBytes (tile : Nat) (ctx : Context) (segment : SliceUnit) : Except EngineError Bytes := do
  let d ← destination ctx segment
  if d.tile = tile then ownSlice segment d else pure []

theorem destination_eq_ok_iff {ctx : Context} {segment : SliceUnit} {d : Destination} :
    destination ctx segment = .ok d ↔
      ctx.ppsById segment.header.ppsId = some d.pps ∧ ctx.spsOf d.pps = some d.sps ∧
      ∃ layout width height, TileLayout.ofParamSets d.sps d.pps = .ok layout ∧
        layout.tileIndex segment.header.address = some d.tile ∧
        layout.tileSize d.tile = some (width, height) ∧
        d.target = { width, height, tiles := .remove, x := 0, y := 0 } := by
  constructor
  · intro h
    obtain ⟨pps, hpps, h⟩ := bind_eq_ok_iff.1 h
    obtain ⟨sps, hsps, h⟩ := bind_eq_ok_iff.1 h
    obtain ⟨layout, hlayout, h⟩ := bind_eq_ok_iff.1 h
    obtain ⟨tile, htile, h⟩ := bind_eq_ok_iff.1 h
    obtain ⟨⟨width, height⟩, hsize, h⟩ := bind_eq_ok_iff.1 h
    cases h
    exact ⟨elim_eq_ok_iff.1 hpps, elim_eq_ok_iff.1 hsps, layout, width, height,
      mapError_eq_ok_iff.1 hlayout, elim_eq_ok_iff.1 htile, elim_eq_ok_iff.1 hsize, rfl⟩
  · obtain ⟨sps, pps, tile, target⟩ := d
    rintro ⟨hpps, hsps, layout, width, height, hlayout, htile, hsize, rfl⟩
    exact bind_eq_ok_iff.2 ⟨pps, elim_eq_ok_iff.2 hpps, bind_eq_ok_iff.2
      ⟨sps, elim_eq_ok_iff.2 hsps, bind_eq_ok_iff.2 ⟨layout, mapError_eq_ok_iff.2 hlayout,
        bind_eq_ok_iff.2 ⟨tile, elim_eq_ok_iff.2 htile, bind_eq_ok_iff.2
          ⟨(width, height), elim_eq_ok_iff.2 hsize, rfl⟩⟩⟩⟩⟩

/-! ## Steps that succeed -/

section Steps

variable {α ε : Type} {t t' : TileStreams}

theorem lift_eq_ok {f : ε → EngineError} {x : Except ε α} {a : α} :
    lift f x t = .ok a t' ↔ x = .ok a ∧ t = t' := by
  cases x with
  | error e => exact ⟨nofun, nofun⟩
  | ok b => exact ⟨fun h => by cases h; exact ⟨rfl, rfl⟩, fun ⟨h, h'⟩ => by cases h; cases h'; rfl⟩

theorem get_eq_ok {a : TileStreams} : (get : Step TileStreams) t = .ok a t' ↔ t = a ∧ t = t' :=
  ⟨fun h => by cases h; exact ⟨rfl, rfl⟩, fun ⟨h, h'⟩ => by cases h; cases h'; rfl⟩

theorem set_eq_ok {a : TileStreams} : (set a : Step PUnit) t = .ok ⟨⟩ t' ↔ a = t' :=
  ⟨fun h => by cases h; rfl, fun h => by cases h; rfl⟩

theorem resolve_eq_ok {sps : Sps} {pps : Pps} {layout : TileLayout} :
    resolve sps pps t = .ok layout t' ↔
      ∃ layouts, t.layouts.resolve sps pps = .ok (layout, layouts) ∧ { t with layouts } = t' := by
  unfold resolve
  constructor
  · intro h
    obtain ⟨_, _, h₁, h⟩ := step_bind_eq_ok.1 h
    obtain ⟨rfl, rfl⟩ := get_eq_ok.1 h₁
    obtain ⟨⟨_, layouts⟩, _, h₂, h⟩ := step_bind_eq_ok.1 h
    obtain ⟨hresolve, rfl⟩ := lift_eq_ok.1 h₂
    cases h
    exact ⟨layouts, hresolve, rfl⟩
  · rintro ⟨layouts, hresolve, rfl⟩
    exact step_bind_eq_ok.2 ⟨t, t, rfl, step_bind_eq_ok.2 ⟨_, t, lift_eq_ok.2 ⟨hresolve, rfl⟩, rfl⟩⟩

end Steps

/-! ## Streams of whole units -/

/-- Only whole units wait in the streams, and each layout in use was worked out. -/
structure Whole (t : TileStreams) : Prop where
  layouts : t.layouts.Worked
  streams : ∀ s ∈ t.streams, s.Whole

theorem whole_empty : Whole empty :=
  ⟨LayoutTable.worked_empty, nofun⟩

/-- The layout of a pair of parameter sets is in use. -/
def Uses (t : TileStreams) (sps : Sps) (pps : Pps) (layout : TileLayout) : Prop :=
  t.layouts.get? pps.id = some layout ∧ TileLayout.ofParamSets sps pps = .ok layout

/-- The bytes that wait in the stream of a tile. -/
def waiting (t : TileStreams) (tile : Nat) : Bytes :=
  (t.streams[tile]?.getD .empty).out.bytes

/-- There is a stream for a tile, or none for any. -/
def Serves (t : TileStreams) (tile : Nat) : Prop :=
  t.streams ≠ [] → tile < t.streams.length

variable {memory : Memory} {t t' : TileStreams}

theorem waiting_of_getElem? {tile : Nat} {s : BitStream} (h : t.streams[tile]? = some s) :
    t.waiting tile = s.out.bytes := by
  rw [waiting, h]
  rfl

theorem waiting_set_self {layouts : LayoutTable} {streams : List BitStream} {tile : Nat}
    {s : BitStream} (h : tile < streams.length) :
    waiting ⟨layouts, streams.set tile s⟩ tile = s.out.bytes :=
  waiting_of_getElem? (t := ⟨layouts, streams.set tile s⟩) (List.getElem?_set_self h)

theorem waiting_set_ne {layouts : LayoutTable} {streams : List BitStream} {tile other : Nat}
    {s : BitStream} (h : other ≠ tile) :
    waiting ⟨layouts, streams.set tile s⟩ other = waiting ⟨layouts, streams⟩ other := by
  simp only [waiting, List.getElem?_set_ne (Ne.symm h)]

theorem waiting_fresh {tiles tile : Nat} {layouts : LayoutTable} :
    waiting ⟨layouts, fresh tiles⟩ tile = [] := by
  rw [waiting, fresh, List.getElem?_replicate]
  split <;> rfl

theorem reset_eq (t : TileStreams) : t.reset = { t with streams := fresh t.streams.length } := by
  rw [reset, funext BitStream.reset_eq, List.map_const']
  rfl

@[simp] theorem length_reset (t : TileStreams) : t.reset.streams.length = t.streams.length :=
  List.length_map _

theorem whole_fresh {tiles : Nat} {s : BitStream} (hs : s ∈ fresh tiles) : s.Whole := by
  rw [List.eq_of_mem_replicate hs]
  exact BitStream.whole_empty

/-- A step adds bytes to the streams: what they are is known for each tile that has a stream, as
long as there are streams. -/
structure Adds (t t' : TileStreams) (own : Nat → Except EngineError Bytes) : Prop where
  whole : t'.Whole
  serves : ∀ tile, t'.Serves tile → t.Serves tile
  waiting : ∀ tile, t'.Serves tile → ∃ bytes, own tile = .ok bytes ∧
    t'.waiting tile = t.waiting tile ++ bytes

theorem Adds.nothing (ht : t.Whole) : t.Adds t fun _ => pure [] :=
  ⟨ht, fun _ h => h, fun _ _ => ⟨[], rfl, (List.append_nil _).symm⟩⟩

theorem Adds.trans {t₀ t₁ t₂ : TileStreams} {own₁ own₂ : Nat → Except EngineError Bytes}
    (h₁ : t₀.Adds t₁ own₁) (h₂ : t₁.Adds t₂ own₂) :
    t₀.Adds t₂ fun tile => (do
      let a ← own₁ tile
      let b ← own₂ tile
      pure (a ++ b)) := by
  refine ⟨h₂.whole, fun tile h => h₁.serves tile (h₂.serves tile h), fun tile h => ?_⟩
  obtain ⟨a, ha, hwaiting₁⟩ := h₁.waiting tile (h₂.serves tile h)
  obtain ⟨b, hb, hwaiting₂⟩ := h₂.waiting tile h
  refine ⟨a ++ b, ?_, ?_⟩
  · simp only [ha, hb, bind, Except.bind, pure, Except.pure]
  · rw [hwaiting₂, hwaiting₁, List.append_assoc]

/-- Streams that each get a unit. -/
theorem Adds.of_forall₂ (hne : t.streams ≠ []) {layouts : LayoutTable}
    (hlayouts : layouts.Worked) {streams : List BitStream}
    {own : Nat → Except EngineError Bytes}
    (hlen : streams.length = t.streams.length)
    (h : ∀ tile s s', t.streams[tile]? = some s → streams[tile]? = some s' →
      s'.Whole ∧ ∃ bytes, own tile = .ok bytes ∧ s'.out.bytes = s.out.bytes ++ bytes) :
    t.Adds ⟨layouts, streams⟩ own := by
  have hbehind : ∀ (tile : Nat) (s' : BitStream), streams[tile]? = some s' →
      ∃ s, t.streams[tile]? = some s := fun tile s' hs' => by
    have hlt := (List.getElem?_eq_some_iff.1 hs').1
    exact ⟨_, List.getElem?_eq_getElem (hlen ▸ hlt)⟩
  refine ⟨⟨hlayouts, fun s' hs' => ?_⟩, fun tile htile _ => ?_, fun tile htile => ?_⟩
  · obtain ⟨tile, hs'⟩ := List.getElem?_of_mem hs'
    obtain ⟨s, hs⟩ := hbehind tile s' hs'
    exact (h tile s s' hs hs').1
  · exact hlen ▸ htile (by rw [← List.length_pos_iff, hlen]; exact List.length_pos_iff.2 hne)
  · have hlt : tile < streams.length :=
      htile (by rw [← List.length_pos_iff, hlen]; exact List.length_pos_iff.2 hne)
    have hs' := List.getElem?_eq_getElem hlt
    obtain ⟨s, hs⟩ := hbehind tile _ hs'
    obtain ⟨-, bytes, hown, hbytes⟩ := h tile s _ hs hs'
    exact ⟨bytes, hown, by rw [waiting_of_getElem? hs', waiting_of_getElem? hs, hbytes]⟩

/-! ## Parameter sets -/

theorem parameterSet_spec {s s' : BitStream} (hs : s.Whole) {unitType : UnitType} {code : Code}
    (h : s.parameterSet unitType code.closed = .ok s') :
    s'.Whole ∧ ∃ bytes, ownSet unitType code.closed = .ok bytes ∧
      s'.out.bytes = s.out.bytes ++ bytes := by
  obtain ⟨hs', own, hown, hbytes⟩ := BitStream.bytes_parameterSet hs h
  refine ⟨hs', own.out.bytes, ?_, hbytes⟩
  rw [ownSet, hown]
  rfl

theorem newStreams_eq_ok_iff {tiles : Nat} {streams : List BitStream} :
    newStreams memory tiles = .ok streams ↔ memory.streams tiles = true ∧ fresh tiles = streams := by
  unfold newStreams
  split <;> simp_all

theorem newStreams_eq_error_iff {tiles : Nat} {e : EngineError} :
    newStreams memory tiles = .error e ↔ memory.streams tiles = false ∧ e = .outOfMemory := by
  unfold newStreams
  cases memory.streams tiles with
  | false => simp [eq_comm]
  | true => simp

theorem prepare_spec (ht : t.Whole) {au : AccessUnit} (h : prepare memory au t = .ok () t') :
    t.Adds t' fun _ => pure [] := by
  obtain ⟨_, _, h₁, h⟩ := step_bind_eq_ok.1 h
  obtain ⟨rfl, rfl⟩ := get_eq_ok.1 h₁
  cases hstreams : t.streams with
  | cons s rest =>
    simp only [hstreams] at h
    cases h
    exact .nothing ht
  | nil =>
    cases hpps : au.firstPps with
    | none =>
      simp only [hstreams, hpps] at h
      cases h
      exact .nothing ht
    | some pps =>
      simp only [hstreams, hpps] at h
      split at h
      · obtain ⟨streams, _, hnew, h⟩ := step_bind_eq_ok.1 h
        obtain ⟨hnew', rfl⟩ := lift_eq_ok.1 hnew
        obtain ⟨-, rfl⟩ := newStreams_eq_ok_iff.1 hnew'
        obtain rfl := set_eq_ok.1 h
        refine ⟨⟨ht.layouts, fun s hs => whole_fresh hs⟩, fun _ _ hne => absurd hstreams hne,
          fun tile _ => ⟨[], rfl, ?_⟩⟩
        rw [waiting_fresh, waiting, hstreams]
        rfl
      · cases h

/-- A parameter set is written to all streams, of which there is at least one. -/
theorem writeAll_eq_ok_iff {unitType : UnitType} {code : Code} :
    writeAll unitType code t = .ok () t' ↔
      t.streams ≠ [] ∧ ∃ streams, t.streams.mapM (·.parameterSet unitType code) = .ok streams ∧
        ⟨t.layouts, streams⟩ = t' := by
  constructor
  · intro h
    obtain ⟨_, _, h₁, h⟩ := step_bind_eq_ok.1 h
    obtain ⟨rfl, rfl⟩ := get_eq_ok.1 h₁
    split at h
    · obtain ⟨_, _, h₂, -⟩ := step_bind_eq_ok.1 h
      cases h₂
    · next hne =>
      obtain ⟨streams, _, h₂, h⟩ := step_bind_eq_ok.1 h
      obtain ⟨hwrite, rfl⟩ := lift_eq_ok.1 h₂
      exact ⟨by simpa using hne, streams, hwrite, set_eq_ok.1 h⟩
  · rintro ⟨hne, streams, hwrite, rfl⟩
    refine step_bind_eq_ok.2 ⟨t, t, rfl, ?_⟩
    rw [if_neg (by simpa using hne)]
    exact step_bind_eq_ok.2 ⟨streams, t, lift_eq_ok.2 ⟨hwrite, rfl⟩, rfl⟩

theorem writeAll_spec (ht : t.Whole) {unitType : UnitType} {code : Code}
    (h : writeAll unitType code.closed t = .ok () t') :
    t.Adds t' fun _ => ownSet unitType code.closed := by
  obtain ⟨hne, streams, hwrite, rfl⟩ := writeAll_eq_ok_iff.1 h
  have hwrite := mapM_eq_ok_iff.1 hwrite
  refine .of_forall₂ hne ht.layouts hwrite.length_eq.symm
    fun tile s s' hs hs' => parameterSet_spec (ht.streams s (List.mem_of_getElem? hs)) ?_
  obtain ⟨hlt, rfl⟩ := List.getElem?_eq_some_iff.1 hs
  obtain ⟨hlt', rfl⟩ := List.getElem?_eq_some_iff.1 hs'
  exact hwrite.get hlt hlt'

/-- What a tile gets of a sequence parameter set by the layout of a picture parameter set. -/
def ownSps (sps : Sps) (pps : Pps) (tile : Nat) : Except EngineError Bytes := do
  let (width, height) ← tileSizeOf sps pps tile
  ownSet .sps (sps.resized width height).encode

/-- A sequence parameter set is written to all streams, of which there are as many as tiles, each time
with the size of the tile. -/
theorem writeSps_eq_ok_iff {sps : Sps} {pps : Pps} : writeSps sps pps t = .ok () t' ↔
    ∃ layout layouts streams, t.layouts.resolve sps pps = .ok (layout, layouts) ∧
      t.streams.length = layout.tileCount ∧
      t.streams.zipIdx.mapM (writeSized sps layout) = .ok streams ∧ ⟨layouts, streams⟩ = t' := by
  constructor
  · intro h
    obtain ⟨layout, _, h₁, h⟩ := step_bind_eq_ok.1 h
    obtain ⟨layouts, hresolve, rfl⟩ := resolve_eq_ok.1 h₁
    obtain ⟨_, _, h₂, h⟩ := step_bind_eq_ok.1 h
    obtain ⟨rfl, rfl⟩ := get_eq_ok.1 h₂
    split at h
    · obtain ⟨_, _, h₃, -⟩ := step_bind_eq_ok.1 h
      cases h₃
    · next hcount =>
      obtain ⟨streams, _, h₃, h⟩ := step_bind_eq_ok.1 h
      obtain ⟨hwrite, rfl⟩ := lift_eq_ok.1 h₃
      exact ⟨layout, layouts, streams, hresolve, not_not.1 hcount, hwrite, set_eq_ok.1 h⟩
  · rintro ⟨layout, layouts, streams, hresolve, hcount, hwrite, rfl⟩
    refine step_bind_eq_ok.2 ⟨layout, _, resolve_eq_ok.2 ⟨layouts, hresolve, rfl⟩, ?_⟩
    refine step_bind_eq_ok.2 ⟨_, _, rfl, ?_⟩
    rw [if_neg (not_not.2 hcount)]
    exact step_bind_eq_ok.2 ⟨streams, _, lift_eq_ok.2 ⟨hwrite, rfl⟩, rfl⟩

theorem writeSps_spec (ht : t.Whole) {sps : Sps} {pps : Pps}
    (h : writeSps sps pps t = .ok () t') : t.Adds t' (ownSps sps pps) := by
  obtain ⟨layout, layouts, streams, hresolve, hcount, hwrite, rfl⟩ := writeSps_eq_ok_iff.1 h
  obtain ⟨hlayout, hworked⟩ := LayoutTable.resolve_spec ht.layouts hresolve
  have hwrite := mapM_eq_ok_iff.1 hwrite
  have hne : t.streams ≠ [] := by
    rw [← List.length_pos_iff_ne_nil, hcount]
    exact TileLayout.tileCount_pos hlayout
  refine .of_forall₂ hne hworked (by simpa using hwrite.length_eq.symm)
    fun tile s s' hs hs' => ?_
  obtain ⟨hlt, rfl⟩ := List.getElem?_eq_some_iff.1 hs
  obtain ⟨hlt', rfl⟩ := List.getElem?_eq_some_iff.1 hs'
  have hwrite := hwrite.get (by simpa using hlt) hlt'
  simp only [List.get_eq_getElem, List.getElem_zipIdx, Nat.zero_add, writeSized] at hwrite
  split at hwrite
  · cases hwrite
  · next width height hsize =>
    obtain ⟨hwhole, bytes, hown, hbytes⟩ := parameterSet_spec
      (ht.streams _ (List.getElem_mem hlt)) (mapError_eq_ok_iff.1 hwrite)
    refine ⟨hwhole, bytes, bind_eq_ok_iff.2 ⟨(width, height), ?_, hown⟩, hbytes⟩
    exact bind_eq_ok_iff.2 ⟨layout, mapError_eq_ok_iff.2 hlayout, elim_eq_ok_iff.2 hsize⟩

theorem distribute_sps {sps : Sps} {pps : Pps} {rest : List DecodedUnit}
    (h : ppsAfter sps rest = some pps) :
    distribute (.sps sps :: rest) = (writeSps sps pps >>= fun _ => distribute rest) := by
  simp only [distribute, h]

theorem distribute_sps_eq_ok {sps : Sps} {rest : List DecodedUnit}
    (h : distribute (.sps sps :: rest) t = .ok () t') :
    ∃ pps, ppsAfter sps rest = some pps ∧
      (writeSps sps pps >>= fun _ => distribute rest) t = .ok () t' := by
  cases hafter : ppsAfter sps rest with
  | none =>
    simp only [distribute, hafter] at h
    obtain ⟨_, _, hthrow, -⟩ := step_bind_eq_ok.1 h
    cases hthrow
  | some pps => exact ⟨pps, rfl, distribute_sps hafter ▸ h⟩

/-- Each parameter set goes behind what waits in the stream of each tile. -/
theorem distribute_spec (ht : t.Whole) {units : List DecodedUnit}
    (h : distribute units t = .ok () t') : t.Adds t' fun tile => setBytes tile units := by
  induction units generalizing t with
  | nil =>
    cases h
    exact .nothing ht
  | cons unit rest ih =>
    have hnext : ∀ {t₁}, t.Adds t₁ (fun tile => ownSetBytes tile rest unit) →
        distribute rest t₁ = .ok () t' → t.Adds t' fun tile => setBytes tile (unit :: rest) :=
      fun hown hrest => hown.trans (ih hown.whole hrest)
    cases unit with
    | vps set =>
      obtain ⟨_, t₁, hwrite, h⟩ := step_bind_eq_ok.1 h
      exact hnext (writeAll_spec ht hwrite) h
    | sps sps =>
      obtain ⟨pps, hafter, h⟩ := distribute_sps_eq_ok h
      obtain ⟨_, t₁, hwrite, h⟩ := step_bind_eq_ok.1 h
      refine hnext ?_ h
      simp only [ownSetBytes, hafter]
      exact writeSps_spec ht hwrite
    | pps pps =>
      obtain ⟨_, t₁, hwrite, h⟩ := step_bind_eq_ok.1 h
      exact hnext (writeAll_spec ht hwrite) h
    | slice segment => exact hnext (.nothing ht) h
    | other header => exact hnext (.nothing ht) h

/-- The parameter sets of an access unit go behind what waits in the stream of each tile. -/
theorem distributeAll_spec (ht : t.Whole) {au : AccessUnit}
    (h : distributeAll memory au t = .ok () t') : t.Adds t' fun tile => setBytes tile au.units := by
  obtain ⟨_, t₁, hprepare, h⟩ := step_bind_eq_ok.1 h
  have hadds := prepare_spec ht hprepare
  have hall := hadds.trans (distribute_spec hadds.whole h)
  refine ⟨hall.whole, hall.serves, fun tile htile => ?_⟩
  obtain ⟨bytes, hbytes, hwaiting⟩ := hall.waiting tile htile
  obtain ⟨_, ⟨⟩, hbytes⟩ := bind_eq_ok_iff.1 hbytes
  obtain ⟨own, hown, ⟨⟩⟩ := bind_eq_ok_iff.1 hbytes
  exact ⟨own, hown, hwaiting⟩

/-! ## Slices -/

/-- The streams, which are made for a number of tiles if there are none. -/
def opened (t : TileStreams) (tiles : Nat) : List BitStream :=
  if t.streams.isEmpty then fresh tiles else t.streams

theorem opened_of_ne_nil (h : t.streams ≠ []) (tiles : Nat) : t.opened tiles = t.streams := by
  rw [opened, if_neg (by simpa using h)]

/-- Streams are made only if there are none, and then there is room for them. -/
theorem openStreams_eq_ok_iff {tiles : Nat} {streams : List BitStream} :
    t.openStreams memory tiles = .ok streams ↔
      (t.streams = [] → memory.streams tiles = true) ∧ t.opened tiles = streams := by
  unfold openStreams opened
  split
  · next hnone => simp [newStreams_eq_ok_iff, List.isEmpty_iff.1 hnone]
  · next hsome => simp [List.isEmpty_iff.not.1 hsome]

theorem openStreams_eq_error_iff {tiles : Nat} {e : EngineError} :
    t.openStreams memory tiles = .error e ↔
      t.streams = [] ∧ memory.streams tiles = false ∧ e = .outOfMemory := by
  unfold openStreams
  split
  · next hnone => simp [newStreams_eq_error_iff, List.isEmpty_iff.1 hnone]
  · next hsome => simp [List.isEmpty_iff.not.1 hsome]

theorem waiting_opened (layouts : LayoutTable) (tiles tile : Nat) :
    waiting ⟨layouts, t.opened tiles⟩ tile = t.waiting tile := by
  by_cases h : t.streams = []
  · rw [opened, if_pos (by simpa using h), waiting_fresh, waiting, h]
    rfl
  · rw [opened_of_ne_nil h]
    rfl

theorem whole_opened (ht : t.Whole) (tiles : Nat) {s : BitStream} (hs : s ∈ t.opened tiles) :
    s.Whole := by
  unfold opened at hs
  split at hs
  · exact whole_fresh hs
  · exact ht.streams s hs

/-- A slice is given out exactly if its tile is known, there are as many streams as tiles, it can be
written to the stream of its tile, and there is room for the packet. All that is in this stream is taken
out. -/
theorem writeSlice_eq_ok_iff (ht : t.Whole) {ctx : Context} {segment : SliceUnit} {tile : Nat}
    {data : Bytes} : writeSlice memory ctx segment t = .ok (tile, data) t' ↔
      ∃ d layout layouts stream written, destination ctx segment = .ok d ∧ d.tile = tile ∧
        t.layouts.resolve d.sps d.pps = .ok (layout, layouts) ∧
        (t.streams = [] → memory.streams layout.tileCount = true) ∧
        (t.opened layout.tileCount).length = layout.tileCount ∧
        (t.opened layout.tileCount)[tile]? = some stream ∧
        stream.slice segment d.sps d.pps d.target = .ok written ∧
        written.packetData memory = .ok data ∧
        ⟨layouts, (t.opened layout.tileCount).set tile .empty⟩ = t' := by
  constructor
  · intro h
    obtain ⟨pps, _, h₁, h⟩ := step_bind_eq_ok.1 h
    obtain ⟨hpps, rfl⟩ := lift_eq_ok.1 h₁
    obtain ⟨sps, _, h₂, h⟩ := step_bind_eq_ok.1 h
    obtain ⟨hsps, rfl⟩ := lift_eq_ok.1 h₂
    obtain ⟨layout, _, h₃, h⟩ := step_bind_eq_ok.1 h
    obtain ⟨layouts, hresolve, rfl⟩ := resolve_eq_ok.1 h₃
    obtain ⟨hlayout, -⟩ := LayoutTable.resolve_spec ht.layouts hresolve
    obtain ⟨tile', _, h₄, h⟩ := step_bind_eq_ok.1 h
    obtain ⟨htile, rfl⟩ := lift_eq_ok.1 h₄
    obtain ⟨⟨width, height⟩, _, h₅, h⟩ := step_bind_eq_ok.1 h
    obtain ⟨hsize, rfl⟩ := lift_eq_ok.1 h₅
    obtain ⟨_, _, h₆, h⟩ := step_bind_eq_ok.1 h
    obtain ⟨rfl, rfl⟩ := get_eq_ok.1 h₆
    obtain ⟨_, _, h₇, h⟩ := step_bind_eq_ok.1 h
    obtain ⟨hopen, rfl⟩ := lift_eq_ok.1 h₇
    obtain ⟨hroom, rfl⟩ := openStreams_eq_ok_iff.1 hopen
    obtain ⟨_, _, h₈, h⟩ := step_bind_eq_ok.1 h
    obtain rfl := set_eq_ok.1 h₈
    split at h
    · obtain ⟨_, _, h₉, -⟩ := step_bind_eq_ok.1 h
      cases h₉
    · next hcount =>
      obtain ⟨stream, _, h₉, h⟩ := step_bind_eq_ok.1 h
      obtain ⟨hstream, rfl⟩ := lift_eq_ok.1 h₉
      obtain ⟨written, _, h₁₀, h⟩ := step_bind_eq_ok.1 h
      obtain ⟨hwritten, rfl⟩ := lift_eq_ok.1 h₁₀
      obtain ⟨taken, _, h₁₁, h⟩ := step_bind_eq_ok.1 h
      obtain ⟨htaken, rfl⟩ := lift_eq_ok.1 h₁₁
      obtain ⟨_, _, h₁₂, h⟩ := step_bind_eq_ok.1 h
      obtain rfl := set_eq_ok.1 h₁₂
      cases h
      rw [BitStream.reset_eq]
      refine ⟨⟨sps, pps, tile, ⟨width, height, .remove, 0, 0, true⟩⟩, layout, layouts, stream,
        written, ?_, rfl, hresolve, hroom, not_not.1 hcount, elim_eq_ok_iff.1 hstream, hwritten,
        htaken, rfl⟩
      exact destination_eq_ok_iff.2 ⟨elim_eq_ok_iff.1 hpps, elim_eq_ok_iff.1 hsps, layout, width,
        height, hlayout, elim_eq_ok_iff.1 htile, elim_eq_ok_iff.1 hsize, rfl⟩
  · rintro ⟨d, layout, layouts, stream, written, hd, rfl, hresolve, hroom, hcount, hstream, hwritten,
      htaken, rfl⟩
    obtain ⟨hpps, hsps, layout', width, height, hlayout, htile, hsize, htarget⟩ :=
      destination_eq_ok_iff.1 hd
    obtain rfl : layout = layout' :=
      Except.ok.inj ((LayoutTable.resolve_spec ht.layouts hresolve).1.symm.trans hlayout)
    refine step_bind_eq_ok.2 ⟨d.pps, t, lift_eq_ok.2 ⟨elim_eq_ok_iff.2 hpps, rfl⟩, ?_⟩
    refine step_bind_eq_ok.2 ⟨d.sps, t, lift_eq_ok.2 ⟨elim_eq_ok_iff.2 hsps, rfl⟩, ?_⟩
    refine step_bind_eq_ok.2 ⟨layout, _, resolve_eq_ok.2 ⟨layouts, hresolve, rfl⟩, ?_⟩
    refine step_bind_eq_ok.2 ⟨d.tile, _, lift_eq_ok.2 ⟨elim_eq_ok_iff.2 htile, rfl⟩, ?_⟩
    refine step_bind_eq_ok.2 ⟨(width, height), _, lift_eq_ok.2 ⟨elim_eq_ok_iff.2 hsize, rfl⟩, ?_⟩
    refine step_bind_eq_ok.2 ⟨_, _, rfl, ?_⟩
    have hopen : openStreams memory layout.tileCount ⟨layouts, t.streams⟩ =
        .ok (t.opened layout.tileCount) := openStreams_eq_ok_iff.2 ⟨hroom, rfl⟩
    refine step_bind_eq_ok.2 ⟨_, _, lift_eq_ok.2 ⟨hopen, rfl⟩, ?_⟩
    refine step_bind_eq_ok.2 ⟨⟨⟩, _, rfl, ?_⟩
    rw [if_neg (not_not.2 hcount), ← htarget]
    refine step_bind_eq_ok.2 ⟨stream, _, lift_eq_ok.2 ⟨elim_eq_ok_iff.2 hstream, rfl⟩, ?_⟩
    refine step_bind_eq_ok.2 ⟨written, _, lift_eq_ok.2 ⟨hwritten, rfl⟩, ?_⟩
    refine step_bind_eq_ok.2 ⟨data, _, lift_eq_ok.2 ⟨htaken, rfl⟩, ?_⟩
    rw [BitStream.reset_eq]
    rfl

/-- A slice is given out behind all that waits in the stream of its tile, and the other streams stay
as they are. -/
structure Gives (t t' : TileStreams) (ctx : Context) (segment : SliceUnit) (tile : Nat)
    (data : Bytes) : Prop where
  whole : t'.Whole
  serves : ∀ tile, t'.Serves tile → t.Serves tile
  data : ∃ d own, destination ctx segment = .ok d ∧ d.tile = tile ∧ ownSlice segment d = .ok own ∧
    data = t.waiting tile ++ own
  emptied : t'.waiting tile = []
  others : ∀ other, other ≠ tile → t'.waiting other = t.waiting other
  stream : tile < t'.streams.length
  uses : ∀ d, destination ctx segment = .ok d → ∃ layout, t'.Uses d.sps d.pps layout

theorem writeSlice_spec (ht : t.Whole) {ctx : Context} {segment : SliceUnit} {tile : Nat}
    {data : Bytes} (h : writeSlice memory ctx segment t = .ok (tile, data) t') :
    t.Gives t' ctx segment tile data := by
  obtain ⟨d, layout, layouts, stream, written, hd, rfl, hresolve, -, -, hstream, hwritten, htaken,
    rfl⟩ := (writeSlice_eq_ok_iff ht).1 h
  obtain ⟨hlayout, hworked⟩ := LayoutTable.resolve_spec ht.layouts hresolve
  obtain ⟨hlt, -⟩ := List.getElem?_eq_some_iff.1 hstream
  obtain ⟨-, own, hown, hbytes⟩ := BitStream.bytes_slice
    (whole_opened ht _ (List.mem_of_getElem? hstream)) hwritten
  refine ⟨⟨hworked, fun s hs => ?_⟩, fun other hother hne => ?_, ?_, waiting_set_self hlt,
    fun other hother => (waiting_set_ne hother).trans (waiting_opened _ _ _), ?_, fun d' hd' => ?_⟩
  · obtain hs | rfl := List.mem_or_eq_of_mem_set hs
    · exact whole_opened ht _ hs
    · exact BitStream.whole_empty
  · rw [opened_of_ne_nil hne] at hother
    have hlt := hother (by simpa using hne)
    rwa [List.length_set] at hlt
  · refine ⟨d, own.out.bytes, hd, rfl, map_eq_ok_iff.2 ⟨own, mapError_eq_ok_iff.2 hown, rfl⟩, ?_⟩
    rw [BitStream.bytes_of_packetData htaken, hbytes, ← waiting_opened layouts layout.tileCount,
      waiting_of_getElem? hstream]
  · rwa [List.length_set]
  · obtain rfl : d = d' := Except.ok.inj (hd.symm.trans hd')
    exact ⟨layout, LayoutTable.resolve_eq_ok hresolve, hlayout⟩

end TiledVideo.TileStreams
