import TiledVideo.Proofs.Engine.SetsInForce
import TiledVideo.Proofs.Engine.TileDecoding

/-!
# Tile sizes that are announced

The last sequence parameter set in the stream of a tile announces the size of its pictures. A splitter
takes this size from the layout of the picture parameter set directly behind the sequence parameter
set, but places a slice by the layout of the picture parameter set that the slice refers to. Both
parameter sets may divide the picture in other ways, as long as they have different numbers.

Results:

* `setLog`, `sliceLog`: the units in the stream of a tile, with the sequence parameter sets among them.
* `Run.Announces`: which size each sequence parameter set in force has in the stream of a tile.
* `Run.announced_size`: the size that is announced for a slice that is given out.
* `Run.other_size_announced`: a picture with two layouts, one of which places the slice.
-/

namespace TiledVideo

namespace TileStreams

/-! ## The units in a stream -/

/-- What a stream gets of a unit. -/
structure Entry where
  /-- The unit as it is written, if it is a sequence parameter set. -/
  sps : Option Sps
  bytes : Bytes
  deriving DecidableEq

/-- What a tile gets of a unit that comes before others, if the unit is a parameter set. -/
def ownSetLog (tile : Nat) (rest : List DecodedUnit) :
    DecodedUnit → Except EngineError (List Entry)
  | .sps sps => do
    let pps ← (ppsAfter sps rest).elim (.error .spsWithoutPps) .ok
    let (width, height) ← tileSizeOf sps pps tile
    let bytes ← ownSet .sps (sps.resized width height).encode
    pure [⟨some (sps.resized width height), bytes⟩]
  | unit => (fun bytes => [⟨none, bytes⟩]) <$> ownSetBytes tile rest unit

/-- What a tile gets of the parameter sets among some units. -/
def setLog (tile : Nat) : List DecodedUnit → Except EngineError (List Entry)
  | [] => pure []
  | unit :: rest => do
    let own ← ownSetLog tile rest unit
    let later ← setLog tile rest
    pure (own ++ later)

/-- What a tile gets of a slice. -/
def sliceLog (tile : Nat) (ctx : Context) (segment : SliceUnit) :
    Except EngineError (List Entry) :=
  (fun bytes => [⟨none, bytes⟩]) <$> sliceBytes tile ctx segment

/-- The last sequence parameter set with a given number in a stream. -/
def announced (id : SpsId) (log : List Entry) : Option Sps :=
  log.reverse.findSome? fun entry => entry.sps.filter (·.id = id)

theorem announced_append (id : SpsId) (log later : List Entry) :
    announced id (log ++ later) = (announced id later).or (announced id log) := by
  simp [announced]

/-- A sequence parameter set is written with the size of the tile in the layout of the picture
parameter set behind it. -/
theorem ownSetLog_sps {tile : Nat} {rest : List DecodedUnit} {sps : Sps} {log : List Entry}
    (h : ownSetLog tile rest (.sps sps) = .ok log) :
    ∃ pps width height bytes, ppsAfter sps rest = some pps ∧
      tileSizeOf sps pps tile = .ok (width, height) ∧
      log = [⟨some (sps.resized width height), bytes⟩] := by
  obtain ⟨pps, hafter, h⟩ := bind_eq_ok_iff.1 h
  obtain ⟨⟨width, height⟩, hsize, h⟩ := bind_eq_ok_iff.1 h
  obtain ⟨bytes, -, h⟩ := bind_eq_ok_iff.1 h
  cases h
  exact ⟨pps, width, height, bytes, elim_eq_ok_iff.1 hafter, hsize, rfl⟩

theorem announced_ownSetLog {tile : Nat} {rest : List DecodedUnit} {unit : DecodedUnit}
    {log : List Entry} (hunit : unit.sps? = none) (h : ownSetLog tile rest unit = .ok log)
    (id : SpsId) : announced id log = none := by
  cases unit with
  | sps sps => cases hunit
  | _ =>
    obtain ⟨bytes, -, rfl⟩ := map_eq_ok_iff.1 h
    rfl

theorem ownSetLog_of_ownSetBytes {tile : Nat} {rest : List DecodedUnit} {unit : DecodedUnit}
    {bytes : Bytes} (h : ownSetBytes tile rest unit = .ok bytes) :
    ∃ log, ownSetLog tile rest unit = .ok log ∧ log.flatMap (·.bytes) = bytes := by
  cases unit with
  | sps sps =>
    obtain ⟨pps, hafter, h⟩ := bind_eq_ok_iff.1 h
    obtain ⟨size, hsize, h⟩ := bind_eq_ok_iff.1 h
    refine ⟨[⟨some (sps.resized size.1 size.2), bytes⟩], ?_, List.append_nil _⟩
    exact bind_eq_ok_iff.2 ⟨pps, hafter, bind_eq_ok_iff.2 ⟨size, hsize,
      bind_eq_ok_iff.2 ⟨bytes, h, rfl⟩⟩⟩
  | _ => exact ⟨[⟨none, bytes⟩], map_eq_ok_iff.2 ⟨bytes, h, rfl⟩, List.append_nil _⟩

theorem setLog_of_setBytes {tile : Nat} {units : List DecodedUnit} {bytes : Bytes}
    (h : setBytes tile units = .ok bytes) :
    ∃ log, setLog tile units = .ok log ∧ log.flatMap (·.bytes) = bytes := by
  induction units generalizing bytes with
  | nil =>
    cases h
    exact ⟨[], rfl, rfl⟩
  | cons unit rest ih =>
    obtain ⟨own, hown, h⟩ := bind_eq_ok_iff.1 h
    obtain ⟨later, hlater, h⟩ := bind_eq_ok_iff.1 h
    cases h
    obtain ⟨log₁, hlog₁, rfl⟩ := ownSetLog_of_ownSetBytes hown
    obtain ⟨log₂, hlog₂, rfl⟩ := ih hlater
    exact ⟨log₁ ++ log₂, bind_eq_ok_iff.2 ⟨log₁, hlog₁, bind_eq_ok_iff.2 ⟨log₂, hlog₂, rfl⟩⟩,
      List.flatMap_append⟩

/-! ## Sizes in an access unit -/

/-- Among some units, a picture parameter set directly follows a sequence parameter set and names
it. -/
def Behind (units : List DecodedUnit) (sps : Sps) (pps : Pps) : Prop :=
  ∃ front rest, units = front ++ .sps sps :: rest ∧ ppsAfter sps rest = some pps

theorem Behind.cons {units : List DecodedUnit} {sps : Sps} {pps : Pps} (h : Behind units sps pps)
    (unit : DecodedUnit) : Behind (unit :: units) sps pps := by
  obtain ⟨front, rest, rfl, hafter⟩ := h
  exact ⟨unit :: front, rest, rfl, hafter⟩

/-- The last sequence parameter set among some units is the last one in the stream of a tile, with
the size in the layout of the picture parameter set behind it. -/
theorem announced_setLog {tile : Nat} {units : List DecodedUnit} {log : List Entry}
    (h : setLog tile units = .ok log) (id : SpsId) :
    (lastSps id units = none ∧ announced id log = none) ∨
      ∃ sps pps width height, lastSps id units = some sps ∧ Behind units sps pps ∧
        tileSizeOf sps pps tile = .ok (width, height) ∧
        announced id log = some (sps.resized width height) := by
  induction units generalizing log with
  | nil =>
    cases h
    exact .inl ⟨rfl, rfl⟩
  | cons unit rest ih =>
    obtain ⟨own, hown, h⟩ := bind_eq_ok_iff.1 h
    obtain ⟨later, hlater, h⟩ := bind_eq_ok_iff.1 h
    cases h
    rw [lastSps_cons, announced_append]
    rcases ih hlater with ⟨hnone, hannounced⟩ |
      ⟨sps, pps, width, height, hlast, hbehind, hsize, hannounced⟩
    · rw [hnone, hannounced, Option.none_or, Option.none_or]
      cases hunit : unit.sps? with
      | none => exact .inl ⟨rfl, announced_ownSetLog hunit hown id⟩
      | some sps =>
        obtain rfl : unit = .sps sps := by
          cases unit with
          | sps set =>
            cases hunit
            rfl
          | _ => cases hunit
        obtain ⟨pps, width, height, bytes, hafter, hsize, rfl⟩ := ownSetLog_sps hown
        by_cases hid : sps.id = id
        · refine .inr ⟨sps, pps, width, height, ?_, ⟨[], rest, rfl, hafter⟩, hsize, ?_⟩
          · simp [Option.filter, hid]
          · simp [announced, Option.filter, Sps.resized, hid]
        · refine .inl ⟨?_, ?_⟩
          · simp [Option.filter, hid]
          · simp [announced, Option.filter, Sps.resized, hid]
    · refine .inr ⟨sps, pps, width, height, ?_, hbehind.cons unit, hsize, ?_⟩
      · rw [hlast, Option.some_or]
      · rw [hannounced, Option.some_or]

/-! ## Layouts in use -/

variable {t t' : TileStreams}

theorem Uses.of_keeps {α : Type} {p : Step α} {a : α} {sps : Sps} {pps : Pps} {layout : TileLayout}
    (h : t.Uses sps pps layout) (hp : Keeps (fun u => u.layouts.get? pps.id = some layout) p)
    (hok : p t = .ok a t') : t'.Uses sps pps layout := by
  have hkept := hp t h.1
  rw [hok] at hkept
  exact ⟨hkept, h.2⟩

theorem Uses.tileSize {sps : Sps} {pps : Pps} {layout : TileLayout} {tile width height : Nat}
    (h : t.Uses sps pps layout) (hsize : tileSizeOf sps pps tile = .ok (width, height)) :
    layout.tileSize tile = some (width, height) := by
  obtain ⟨layout', hlayout, hsize⟩ := bind_eq_ok_iff.1 hsize
  obtain rfl : layout = layout' := Except.ok.inj (h.2.symm.trans (mapError_eq_ok_iff.1 hlayout))
  exact elim_eq_ok_iff.1 hsize

theorem uses_of_writeSps {sps : Sps} {pps : Pps} (ht : t.Whole)
    (h : writeSps sps pps t = .ok () t') : ∃ layout, t'.Uses sps pps layout := by
  obtain ⟨layout, layouts, streams, hresolve, -, -, rfl⟩ := writeSps_eq_ok_iff.1 h
  exact ⟨layout, LayoutTable.resolve_eq_ok hresolve,
    (LayoutTable.resolve_spec ht.layouts hresolve).1⟩

/-- Every layout that gives a sequence parameter set its size is in use afterwards. -/
theorem uses_of_distribute {units : List DecodedUnit} (ht : t.Whole)
    (h : distribute units t = .ok () t') {sps : Sps} {pps : Pps} (hbehind : Behind units sps pps) :
    ∃ layout, t'.Uses sps pps layout := by
  obtain ⟨front, rest, rfl, hafter⟩ := hbehind
  induction front generalizing t with
  | nil =>
    rw [List.nil_append, distribute_sps hafter] at h
    obtain ⟨_, t₁, hwrite, h⟩ := step_bind_eq_ok.1 h
    obtain ⟨layout, huses⟩ := uses_of_writeSps ht hwrite
    exact ⟨layout, huses.of_keeps (keeps_distribute (stable_get? _ _) rest) h⟩
  | cons unit front ih =>
    cases unit with
    | vps set =>
      obtain ⟨_, t₁, hwrite, h⟩ := step_bind_eq_ok.1 h
      exact ih (writeAll_spec ht hwrite).whole h
    | sps set =>
      obtain ⟨pps', -, h⟩ := distribute_sps_eq_ok h
      obtain ⟨_, t₁, hwrite, h⟩ := step_bind_eq_ok.1 h
      exact ih (writeSps_spec ht hwrite).whole h
    | pps set =>
      obtain ⟨_, t₁, hwrite, h⟩ := step_bind_eq_ok.1 h
      exact ih (writeAll_spec ht hwrite).whole h
    | slice segment => exact ih ht h
    | other header => exact ih ht h

theorem uses_of_distributeAll {au : AccessUnit} (ht : t.Whole)
    (h : distributeAll .ample au t = .ok () t') {sps : Sps} {pps : Pps}
    (hbehind : Behind au.units sps pps) : ∃ layout, t'.Uses sps pps layout := by
  obtain ⟨_, t₁, hprepare, h⟩ := step_bind_eq_ok.1 h
  exact uses_of_distribute (prepare_spec ht hprepare).whole h hbehind

end TileStreams

namespace Splitter.Run

open TileStreams

/-! ## Runs -/

/-- The layout in use of a picture parameter set that was sent directly behind a sequence parameter
set gives a tile its size. -/
structure Sizes (r : Run) (tile : Nat) (sps : Sps) (pps : Pps) (width height : Nat) : Prop where
  behind : ∃ p ∈ parsed r.sent, Behind p.1.units sps pps
  uses : ∃ layout, r.splitter.tiles.Uses sps pps layout ∧
    layout.tileSize tile = some (width, height)

theorem Sizes.tileSizeOf {r : Run} {tile : Nat} {sps : Sps} {pps : Pps} {width height : Nat}
    (h : r.Sizes tile sps pps width height) : tileSizeOf sps pps tile = .ok (width, height) := by
  obtain ⟨layout, huses, hsize⟩ := h.uses
  exact bind_eq_ok_iff.2 ⟨layout, mapError_eq_ok_iff.2 huses.2, elim_eq_ok_iff.2 hsize⟩

theorem Sizes.mono {r r' : Run} {tile : Nat} {sps : Sps} {pps : Pps} {width height : Nat}
    (h : r.Sizes tile sps pps width height) (hsent : parsed r.sent ⊆ parsed r'.sent)
    (huses : ∀ layout, r.splitter.tiles.Uses sps pps layout →
      r'.splitter.tiles.Uses sps pps layout) : r'.Sizes tile sps pps width height := by
  obtain ⟨⟨p, hp, hbehind⟩, layout, hlayout, hsize⟩ := h
  exact ⟨⟨p, hsent hp, hbehind⟩, layout, huses layout hlayout, hsize⟩

/-- The stream of a tile announces each sequence parameter set in force with the size of the tile in
the layout of a picture parameter set directly behind it. -/
structure Announces (r : Run) : Prop where
  invariant : r.Invariant
  tiles : ∀ tile, r.splitter.tiles.Serves tile → ∃ log,
    shares (setLog tile) (sliceLog tile) r.sent = .ok log ∧
    log.flatMap (·.bytes) =
      (packetsFor r.sent tile).flatMap (·.data) ++ r.splitter.tiles.waiting tile ∧
    ∀ id sps, r.splitter.ctx.spsById id = some sps → ∃ pps width height,
      r.Sizes tile sps pps width height ∧ announced id log = some (sps.resized width height)

theorem announces_start : Announces ⟨empty, []⟩ := by
  refine ⟨invariant_start (.inl rfl), fun tile _ => ⟨[], rfl, rfl, fun id sps hsps => ?_⟩⟩
  have hsome : Context.empty.spsById id = some sps := hsps
  simp at hsome

theorem Announces.step {r r' : Run} (hr : r.Announces) (h : Step r r') : r'.Announces := by
  have hinvariant := hr.invariant.step h
  have hwhole := hr.invariant.whole
  have hsent := parsed_subset_of_step h
  cases effect_of_step hr.invariant.follows h with
  | quiet ctx tiles parsed_eq given adds =>
    refine ⟨hinvariant, fun tile htile => ?_⟩
    rw [tiles] at htile
    obtain ⟨log, hlog, hbytes, hsizes⟩ := hr.tiles tile htile
    rw [given, tiles, ctx]
    refine ⟨log, adds hlog, hbytes, fun id sps hsps => ?_⟩
    obtain ⟨pps, width, height, hsize, hannounced⟩ := hsizes id sps hsps
    exact ⟨pps, width, height, hsize.mono hsent fun _ huses => by rwa [tiles], hannounced⟩
  | @sets packet au decode distribute parsed_eq given adds =>
    have hadds := distributeAll_spec hwhole distribute
    refine ⟨hinvariant, fun tile htile => ?_⟩
    obtain ⟨log, hlog, hbytes, hsizes⟩ := hr.tiles tile (hadds.serves tile htile)
    obtain ⟨bytes, hown, hwaiting⟩ := hadds.waiting tile htile
    obtain ⟨own, hownLog, rfl⟩ := setLog_of_setBytes hown
    refine ⟨log ++ own, adds hlog hownLog, ?_, fun id sps hsps => ?_⟩
    · rw [given, hwaiting, List.flatMap_append, hbytes, List.append_assoc]
    · obtain ⟨-, hctx⟩ := AccessUnit.yieldsAll_of_decode decode
      rw [hctx, DecoderState.spsById_after] at hsps
      rw [announced_append]
      rcases announced_setLog hownLog id with ⟨hnone, hannounced⟩ |
        ⟨sps', pps, width, height, hlast, hbehind, hsize, hannounced⟩
      · -- a sequence parameter set of an earlier access unit is still in force
        rw [hnone, Option.none_or] at hsps
        obtain ⟨pps, width, height, hsize, hearlier⟩ := hsizes id sps hsps
        refine ⟨pps, width, height, hsize.mono hsent fun layout huses => ?_, ?_⟩
        · exact huses.of_keeps (keeps_distributeAll (stable_get? _ _) _ au) distribute
        · rw [hannounced, Option.none_or, hearlier]
      · obtain rfl : sps' = sps := by
          rw [hlast, Option.some_or] at hsps
          exact Option.some.inj hsps
        obtain ⟨layout, huses⟩ := uses_of_distributeAll hwhole distribute hbehind
        have hlatest : (au, r'.splitter.ctx) ∈ parsed r'.sent := by
          rw [parsed_eq]
          exact List.mem_cons_self
        refine ⟨pps, width, height, ⟨⟨_, hlatest, hbehind⟩, layout, huses, huses.tileSize hsize⟩, ?_⟩
        rw [hannounced, Option.some_or]
  | @slice input au next tile data ctx write parsed_eq last next_mem given adds =>
    have hgives := writeSlice_spec hwhole write
    refine ⟨hinvariant, fun other hother => ?_⟩
    obtain ⟨log, hlog, hbytes, hsizes⟩ := hr.tiles other (hgives.serves _ hother)
    obtain ⟨bytes, hown, hgiven⟩ := bytes_of_slice hgives input (packetsFor r.sent other) other
    refine ⟨_, adds hlog (map_eq_ok_iff.2 ⟨bytes, hown, rfl⟩), ?_, fun id sps hsps => ?_⟩
    · rw [given, hgiven, List.flatMap_append, hbytes]
      simp
    · rw [ctx] at hsps
      obtain ⟨pps, width, height, hsize, hannounced⟩ := hsizes id sps hsps
      refine ⟨pps, width, height, hsize.mono hsent fun layout huses => ?_, ?_⟩
      · exact huses.of_keeps (keeps_writeSlice (stable_get? _ _) _ _ next) write
      · -- no slice is a sequence parameter set
        rw [announced_append, hannounced]
        rfl

theorem announces_of_calls {cs : List Call} {r : Run} (h : calls empty cs = .ok r) : r.Announces :=
  calls_induction announces_start (fun _ _ => Announces.step) h

/-- In any run of a new splitter, when a slice is given out, the last sequence parameter set with the
number of the slice's own one in the stream of its tile is that one, with the size of the tile in the
layout of a picture parameter set that was sent directly behind it. The slice itself is placed by the
layout of the picture parameter set that it refers to. That may give the tile another size, but not if
both picture parameter sets have the same number. -/
theorem announced_size {cs : List Call} {r : Run} (h : calls empty cs = .ok r)
    {input packet : Packet} {next : SliceUnit} {later : List SliceUnit}
    (hphase : r.splitter.phase = .distributing input next later)
    (hreceive : r.splitter.receive.1 = .ok (some packet)) :
    ∃ d log pps width height, destination r.splitter.ctx next = .ok d ∧
      packet.tile = some d.tile ∧
      shares (setLog d.tile) (sliceLog d.tile) (received packet r.sent) = .ok log ∧
      log.flatMap (·.bytes) = (packetsFor (received packet r.sent) d.tile).flatMap (·.data) ∧
      (∃ p ∈ parsed r.sent, Behind p.1.units d.sps pps) ∧
      tileSizeOf d.sps pps d.tile = .ok (width, height) ∧
      announced d.pps.spsId log = some (d.sps.resized width height) ∧
      ((width, height) = (d.target.width, d.target.height) ↔
        tileSizeOf d.sps pps d.tile = tileSizeOf d.sps d.pps d.tile) ∧
      (pps.id = d.pps.id → (width, height) = (d.target.width, d.target.height)) := by
  have hr := announces_of_calls h
  obtain ⟨tile, data, tiles, hwrite, rfl⟩ := writeSlice_of_receive hphase hreceive
  have hgives := writeSlice_spec hr.invariant.whole hwrite
  obtain ⟨d, own, hd, rfl, -, -⟩ := hgives.data
  have hr' := hr.step (.slice hphase hwrite)
  obtain ⟨log, hlog, hbytes, hsizes⟩ := hr'.tiles d.tile fun _ => hgives.stream
  rw [hgives.emptied, List.append_nil] at hbytes
  obtain ⟨-, hsps, layout, w, v, hlayout, -, hown, htarget⟩ := destination_eq_ok_iff.1 hd
  obtain ⟨pps, width, height, hsize, hannounced⟩ := hsizes _ _ hsps
  have hbehind := hsize.behind
  rw [parsed_received] at hbehind
  have hownSize : tileSizeOf d.sps d.pps d.tile = .ok (d.target.width, d.target.height) := by
    rw [htarget]
    exact bind_eq_ok_iff.2 ⟨layout, mapError_eq_ok_iff.2 hlayout, elim_eq_ok_iff.2 hown⟩
  refine ⟨d, log, pps, width, height, hd, rfl, hlog, hbytes, hbehind, hsize.tileSizeOf, hannounced,
    ?_, fun hid => ?_⟩
  · rw [hsize.tileSizeOf, hownSize]
    exact ⟨fun hsame => by rw [hsame], Except.ok.inj⟩
  · -- a number stands for one layout as long as the splitter runs
    obtain ⟨held, huses, hheld⟩ := hsize.uses
    obtain ⟨held', huses'⟩ := hgives.uses d hd
    have hsame : held = held' := by
      have hget := huses.1
      rw [hid] at hget
      exact Option.some.inj (hget.symm.trans huses'.1)
    rw [hsame, huses'.tileSize hownSize] at hheld
    exact (Option.some.inj hheld).symm

/-- The second slice of the picture of two tiles. -/
def sampleSlice : SliceUnit := Sample.accessUnit.slices.getD 1 Sample.firstSlice

/-- Its packet, when the picture is sent for the second time. -/
def samplePacket : Packet :=
  match sampleRun.splitter.receive.1 with
  | .ok (some packet) => packet
  | _ => default

theorem announced_size_sample : calls empty sampleCalls = .ok sampleRun ∧
    sampleRun.splitter.phase = .distributing { data := Sample.picture } sampleSlice [] ∧
    sampleRun.splitter.receive.1 = .ok (some samplePacket) ∧
    ∃ d log pps width height, destination sampleRun.splitter.ctx sampleSlice = .ok d ∧
      samplePacket.tile = some d.tile ∧
      shares (setLog d.tile) (sliceLog d.tile) (received samplePacket sampleRun.sent) = .ok log ∧
      log.flatMap (·.bytes) =
        (packetsFor (received samplePacket sampleRun.sent) d.tile).flatMap (·.data) ∧
      (∃ p ∈ parsed sampleRun.sent, Behind p.1.units d.sps pps) ∧
      tileSizeOf d.sps pps d.tile = .ok (width, height) ∧
      announced d.pps.spsId log = some (d.sps.resized width height) ∧
      ((width, height) = (d.target.width, d.target.height) ↔
        tileSizeOf d.sps pps d.tile = tileSizeOf d.sps d.pps d.tile) ∧
      (pps.id = d.pps.id → (width, height) = (d.target.width, d.target.height)) := by
  have hrun : calls empty sampleCalls = .ok sampleRun := by decide +kernel
  have hphase : sampleRun.splitter.phase =
      .distributing { data := Sample.picture } sampleSlice [] := by decide +kernel
  have hreceive : sampleRun.splitter.receive.1 = .ok (some samplePacket) := by decide +kernel
  exact ⟨hrun, hphase, hreceive, announced_size hrun hphase hreceive⟩

/-- A picture with a second picture parameter set, which has columns of other widths. Its slice refers
to that one. -/
def twoLayouts : Bytes :=
  Sample.picture.take 75 ++ [0, 0, 0, 1, 68, 1, 80, 28, 97, 40, 86, 36] ++
    [0, 0, 0, 1, 38, 1, 147, 203, 192, 175, 18, 0, 0, 3, 1, 128]

/-- The run in which it is sent. -/
def twoLayoutsRun : Run :=
  match calls empty [.send { data := twoLayouts }] with
  | .ok r => r
  | .error _ => ⟨empty, []⟩

/-- Its slice, with the parameter sets in force. -/
def twoLayoutsSlice : SliceUnit × Context :=
  match AccessUnit.decode .empty twoLayouts with
  | .ok (au, ctx) => (au.slices.headD Sample.firstSlice, ctx)
  | .error _ => (Sample.firstSlice, .empty)

/-- Where it goes. -/
def twoLayoutsDestination : Destination :=
  match destination twoLayoutsSlice.2 twoLayoutsSlice.1 with
  | .ok d => d
  | .error _ => Sample.firstDestination

/-- Its packet. -/
def twoLayoutsPacket : Packet :=
  match twoLayoutsRun.splitter.receive.1 with
  | .ok (some packet) => packet
  | _ => default

/-- What is in the stream of its tile. -/
def twoLayoutsLog : List Entry :=
  match shares (setLog 0) (sliceLog 0) (received twoLayoutsPacket twoLayoutsRun.sent) with
  | .ok log => log
  | .error _ => []

/-- The tile is 640 samples wide for the slice, but 960 samples are announced. -/
theorem other_size_announced :
    calls empty [.send { data := twoLayouts }] = .ok twoLayoutsRun ∧
      twoLayoutsRun.splitter.phase = .distributing { data := twoLayouts } twoLayoutsSlice.1 [] ∧
      twoLayoutsRun.splitter.receive.1 = .ok (some twoLayoutsPacket) ∧
      destination twoLayoutsRun.splitter.ctx twoLayoutsSlice.1 = .ok twoLayoutsDestination ∧
      twoLayoutsDestination.tile = 0 ∧ twoLayoutsPacket.tile = some 0 ∧
      shares (setLog 0) (sliceLog 0) (received twoLayoutsPacket twoLayoutsRun.sent) =
        .ok twoLayoutsLog ∧
      twoLayoutsLog.flatMap (·.bytes) = twoLayoutsPacket.data ∧
      (announced twoLayoutsDestination.pps.spsId twoLayoutsLog).map
        (fun sps => (sps.format.width, sps.format.height)) = some (960, 1088) ∧
      (twoLayoutsDestination.target.width, twoLayoutsDestination.target.height) = (640, 1088) := by
  decide +kernel

end Splitter.Run

end TiledVideo
