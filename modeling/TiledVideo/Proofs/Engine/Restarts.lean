import TiledVideo.Proofs.Engine.SetsAhead

/-!
# Streams after a failure

If an access unit can be read, but its parameter sets cannot be distributed or one of its slices cannot
be given out, a splitter drops it with all that waits in the streams. A placer does the same with an
access unit that it cannot place. Nothing of it is in any later packet.

But if a placer has placed an access unit and finds no room for the packet, all that it has written stays
in its stream, and comes out in front of the next packet.

Results:

* `Placer.serveAll_behind`: a placer with units in its stream answers like one without them, but for one
  packet at most.
* `restarted_iff_of_error`: after which errors an engine is as if it had just been started with the
  parameter sets and the layouts that it knows, and what is left after the others.
-/

namespace TiledVideo

/-! ## Streams with nothing in them -/

namespace BitStream

/-- Nothing is in a stream, and no zero bytes come before what is written next. -/
structure Clear (s : BitStream) : Prop where
  bytes : s.out.bytes = []
  aligned : s.aligned = true
  zeros : s.out.zeros = 0
  count : s.out.count = 0

theorem clear_empty : Clear .empty :=
  ⟨rfl, rfl, rfl, rfl⟩

end BitStream

/-- Whatever writers have left in the streams, resetting each of them drops it. -/
theorem TileStreams.reset_streams (t : TileStreams) {left : List BitStream}
    (h : left.length = t.streams.length) : t.reset.streams = left.map BitStream.reset := by
  rw [t.reset_eq, funext BitStream.reset_eq, List.map_const', h]
  rfl

/-- A splitter is as if it had just been started with what it knows: it waits for an access unit, and
its streams are what resetting makes of them, whatever is in them. -/
structure Splitter.Restarted (s : Splitter) : Prop where
  idle : s.phase = .idle
  clear : ∀ stream ∈ s.tiles.streams, stream.Clear
  reset : ∀ left : List BitStream, left.length = s.tileCount →
    s.tiles.streams = left.map BitStream.reset
  fresh : s = ⟨s.ctx, ⟨s.tiles.layouts, TileStreams.fresh s.tileCount⟩, .idle⟩
  answers : ∀ requests, serveAll serve s requests =
    serveAll serve ⟨s.ctx, ⟨s.tiles.layouts, TileStreams.fresh s.tileCount⟩, .idle⟩ requests

/-- A placer is as if it had just been started with what it knows. -/
structure Placer.Restarted (s : Placer) : Prop where
  clear : s.stream.Clear
  reset : ∀ left : BitStream, s.stream = left.reset
  answers : ∀ requests, serveAll serve s requests =
    serveAll serve { s with stream := .empty } requests

theorem Splitter.restarted_reset (ctx : Context) (t : TileStreams) :
    Restarted ⟨ctx, t.reset, .idle⟩ := by
  have hfresh : (⟨ctx, t.reset, .idle⟩ : Splitter) =
      ⟨ctx, ⟨t.layouts, TileStreams.fresh t.reset.streams.length⟩, .idle⟩ := by
    rw [t.length_reset, t.reset_eq]
  refine ⟨rfl, fun stream hstream => ?_, fun left hleft => ?_, hfresh, fun requests => ?_⟩
  · rw [hfresh] at hstream
    rw [List.eq_of_mem_replicate hstream]
    exact BitStream.clear_empty
  · rw [tileCount, t.length_reset] at hleft
    exact t.reset_streams hleft
  · exact congrArg (serveAll serve · requests) hfresh

theorem Placer.restarted_empty (p : Placement) (ctx : Context) : Restarted ⟨p, ctx, .empty⟩ :=
  ⟨BitStream.clear_empty, fun left => left.reset_eq.symm, fun _ => rfl⟩

/-! ## Streams with units in front -/

namespace BitStream

/-- One stream has some bytes in front of what is in another one. Both hold whole units. -/
structure Behind (front : Bytes) (s t : BitStream) : Prop where
  whole : s.Whole
  whole' : t.Whole
  bytes : t.out.bytes = front ++ s.out.bytes

/-- Writing fails for both of two streams, or goes behind what is in them. -/
inductive BothWrite (front : Bytes) :
    Except EngineError BitStream → Except EngineError BitStream → Prop where
  | failed (e : EngineError) : BothWrite front (.error e) (.error e)
  | written {s t : BitStream} (behind : Behind front s t) : BothWrite front (.ok s) (.ok t)

variable {front : Bytes} {s t : BitStream}

theorem Whole.behind (h : s.Whole) : Behind s.out.bytes .empty s :=
  ⟨whole_empty, h, (List.append_nil _).symm⟩

theorem BothWrite.bind {x y : Except EngineError BitStream}
    {f g : BitStream → Except EngineError BitStream} (h : BothWrite front x y)
    (hfg : ∀ s t, Behind front s t → BothWrite front (f s) (g t)) :
    BothWrite front (x >>= f) (y >>= g) := by
  cases h with
  | failed e => exact .failed e
  | written behind => exact hfg _ _ behind

theorem BothWrite.marked {x y : Except EngineError BitStream} (h : BothWrite front x y)
    (hasSlice : Bool) :
    (∃ e, (x >>= fun s => pure (s, hasSlice)) = .error e ∧
        (y >>= fun t => pure (t, hasSlice)) = .error e) ∨
      ∃ s t, (x >>= fun s => pure (s, hasSlice)) = .ok (s, hasSlice) ∧
        (y >>= fun t => pure (t, hasSlice)) = .ok (t, hasSlice) ∧ Behind front s t := by
  cases h with
  | failed e => exact .inl ⟨e, rfl, rfl⟩
  | written behind => exact .inr ⟨_, _, rfl, rfl, behind⟩

/-- A unit is written in the same way whatever is in front of it. -/
theorem Behind.unit (h : Behind front s t) (unitType : UnitType) (temporalId : Nat) (code : Code)
    (payload : BitString → Bytes) :
    BothWrite front
      (((fun bits => s.withUnit unitType temporalId (payload bits)) <$> code).mapError .ofWrite)
      (((fun bits => t.withUnit unitType temporalId (payload bits)) <$> code).mapError .ofWrite) := by
  cases code with
  | error e => exact .failed _
  | ok bits =>
    refine .written ⟨h.whole.withUnit _ _, h.whole'.withUnit _ _, ?_⟩
    rw [withUnit_bytes, withUnit_bytes, h.bytes, List.append_assoc]

theorem Behind.parameterSet (h : Behind front s t) (unitType : UnitType) (code : Code) :
    BothWrite front ((s.parameterSet unitType code.closed).mapError .ofWrite)
      ((t.parameterSet unitType code.closed).mapError .ofWrite) := by
  rw [parameterSet_eq h.whole.pending, parameterSet_eq h.whole'.pending]
  exact h.unit unitType 0 code.closed Bits.toBytes

theorem Behind.slice (h : Behind front s t) (segment : SliceUnit) (sps : Sps) (pps : Pps)
    (target : SliceHeader.Target) :
    BothWrite front ((s.slice segment sps pps target).mapError .ofWrite)
      ((t.slice segment sps pps target).mapError .ofWrite) := by
  rw [slice_eq h.whole.pending, slice_eq h.whole'.pending]
  exact h.unit _ _ _ fun bits => Bits.toBytes bits ++ segment.data

theorem bytes_slice_ne_nil {segment : SliceUnit} {sps : Sps} {pps : Pps}
    {target : SliceHeader.Target} (h : empty.slice segment sps pps target = .ok s) :
    s.out.bytes ≠ [] := by
  rw [slice_eq rfl] at h
  obtain ⟨bits, -, rfl⟩ := map_eq_ok_iff.1 h
  simp [framedBytes]

end BitStream

namespace Placer

open BitStream

variable (p : Placement) (ctx : Context) {front : Bytes} {s t : BitStream}

theorem writeUnit_behind (h : s.Behind front t) (unit : DecodedUnit) :
    BothWrite front (writeUnit p ctx s unit) (writeUnit p ctx t unit) := by
  cases unit with
  | vps set => exact h.parameterSet .vps _
  | sps sps => exact h.parameterSet .sps _
  | pps pps =>
    cases hsps : ctx.spsOf pps with
    | none =>
      simp only [writeUnit, hsps]
      exact h.parameterSet .pps _
    | some sps =>
      simp only [writeUnit, hsps]
      cases p.checkGrid sps.log2Ctb with
      | error e => exact .failed e
      | ok _ => exact h.parameterSet .pps _
  | slice segment => exact .written h
  | other header => exact .written h

theorem writeUnits_behind (h : s.Behind front t) (units : List DecodedUnit) :
    BothWrite front (units.foldlM (writeUnit p ctx) s) (units.foldlM (writeUnit p ctx) t) := by
  induction units generalizing s t with
  | nil => exact .written h
  | cons unit rest ih => exact (writeUnit_behind p ctx h unit).bind fun _ _ h => ih h

theorem writeSlice_behind (h : s.Behind front t) (segment : SliceUnit) :
    BothWrite front (writeSlice p ctx s segment) (writeSlice p ctx t segment) := by
  unfold writeSlice
  cases ctx.ppsById segment.header.ppsId with
  | none => exact .failed _
  | some pps =>
    show BothWrite front ((ctx.spsOf pps).elim _ .ok >>= _) ((ctx.spsOf pps).elim _ .ok >>= _)
    cases ctx.spsOf pps with
    | none => exact .failed _
    | some sps => exact h.slice segment sps pps p.target

/-- An access unit is placed in the same way whatever is in front of it in the stream. -/
theorem place_behind (h : s.Behind front t) (au : AccessUnit) :
    (∃ e, place p ctx s au = .error e ∧ place p ctx t au = .error e) ∨
      ∃ s' t' hasSlice, place p ctx s au = .ok (s', hasSlice) ∧
        place p ctx t au = .ok (t', hasSlice) ∧ s'.Behind front t' := by
  unfold place
  cases au.slices.head? with
  | none =>
    refine (writeUnits_behind p ctx h au.units).marked false |>.imp_right ?_
    exact fun ⟨s', t', hs, ht, behind⟩ => ⟨s', t', false, hs, ht, behind⟩
  | some segment =>
    have hwrite := (writeUnits_behind p ctx h au.units).bind
      fun _ _ behind => writeSlice_behind p ctx behind segment
    have hplace := hwrite.marked true
    simp only [bind_assoc] at hplace
    refine hplace.imp_right ?_
    exact fun ⟨s', t', hs, ht, behind⟩ => ⟨s', t', true, hs, ht, behind⟩

/-- What becomes of an access unit that can be read with some bytes in front of what is in the stream: the
same as without them, or a packet with the bytes in front. Behind a packet or a failure they are gone. -/
inductive FiltersBehind (front : Bytes) : Except EngineError (Option Packet) × Placer →
    Except EngineError (Option Packet) × Placer → Prop where
  | failed (e : EngineError) (s : Placer) : FiltersBehind front (.error e, s) (.error e, s)
  | waits (s : Placer) {stream stream' : BitStream} (behind : stream.Behind front stream') :
    FiltersBehind front (.ok none, { s with stream }) (.ok none, { s with stream := stream' })
  | placed (output : Packet) (s : Placer) :
    FiltersBehind front (.ok (some output), s)
      (.ok (some { output with data := front ++ output.data }), s)

theorem filter_behind (s : Placer) {stream stream' : BitStream} (h : stream.Behind front stream')
    {packet : Packet} {au : AccessUnit} {c : Context}
    (hdecode : AccessUnit.decode s.ctx packet.data = .ok (au, c)) :
    FiltersBehind front (filter { s with stream } packet) (filter { s with stream := stream' } packet) := by
  obtain ⟨e, he, he'⟩ | ⟨s₁, t₁, hasSlice, hs, ht, behind⟩ := place_behind s.placement c h au
  · simp only [filter, hdecode, he, he', BitStream.reset_eq]
    exact .failed e _
  · cases hasSlice with
    | false =>
      simp only [filter, hdecode, hs, ht]
      exact .waits { s with ctx := c } behind
    | true =>
      simp only [filter, hdecode, hs, ht, packetData_ample behind.whole,
        packetData_ample behind.whole', BitStream.reset_eq, behind.bytes]
      exact .placed (packet.derive s₁.out.bytes) _

/-- Replies are the same, but for one packet at most, which has some bytes in front. -/
inductive Leaks (front : Bytes) : List Reply → List Reply → Prop where
  | nowhere (replies : List Reply) : Leaks front replies replies
  | once (earlier : List Reply) (output : Packet) (later : List Reply) :
    Leaks front (earlier ++ .filtered (.ok (some output)) :: later)
      (earlier ++ .filtered (.ok (some { output with data := front ++ output.data })) :: later)

theorem Leaks.cons {replies replies' : List Reply} (h : Leaks front replies replies')
    (reply : Reply) : Leaks front (reply :: replies) (reply :: replies') := by
  cases h with
  | nowhere => exact .nowhere _
  | once earlier output later => exact .once (reply :: earlier) output later

/-- What is in front of a stream comes out in front of one packet at most. -/
theorem serveAll_behind (s : Placer) {stream stream' : BitStream} (h : stream.Behind front stream')
    (requests : List Request) :
    Leaks front (serveAll serve { s with stream } requests).1
      (serveAll serve { s with stream := stream' } requests).1 := by
  -- The two streams differ until one of the requests empties both. From there on the replies are equal.
  induction requests generalizing s stream stream' with
  | nil => exact .nowhere []
  | cons request later ih =>
    rw [serveAll_cons, serveAll_cons]
    cases request with
    | flush =>
      simp only [serve, flush_eq]
      exact .nowhere _
    | filter packet =>
      cases hdecode : AccessUnit.decode s.ctx packet.data with
      | error e =>
        simp only [serve, filter, hdecode]
        exact (ih s h).cons _
      | ok result =>
        have hfilter := filter_behind s h hdecode
        simp only [serve]
        -- With the two answers as variables the cases of `FiltersBehind` put in what they are.
        generalize filter { s with stream } packet = answer,
          filter { s with stream := stream' } packet = answer' at hfilter ⊢
        cases hfilter with
        | failed e s => exact .nowhere _
        | waits s behind => exact (ih s behind).cons _
        | placed output s => exact .once [] output _

/-! ## What is left in the stream -/

theorem ofWrite_ne_outOfMemory (e : WriteError) : EngineError.ofWrite e ≠ .outOfMemory := by
  intro h
  cases e <;> cases h

variable {p ctx}

/-- Placing an access unit does not fail for want of room, as no packet is made yet. -/
theorem place_ne_outOfMemory (hs : s.Whole) {au : AccessUnit} {e : EngineError}
    (h : place p ctx s au = .error e) : e ≠ .outOfMemory := by
  obtain ⟨s₁, -, ⟨unit, hunit⟩ | ⟨segment, -, hslice⟩⟩ := place_eq_error hs h
  · obtain ⟨option, value, rfl⟩ | ⟨_, _, e', -, -, rfl⟩ := writeUnit_eq_error hunit
    · exact nofun
    · exact ofWrite_ne_outOfMemory e'
  · obtain ⟨-, rfl | rfl⟩ | ⟨_, _, e', -, rfl⟩ := writeSlice_eq_error hslice
    · exact nofun
    · exact nofun
    · exact ofWrite_ne_outOfMemory e'

/-- A placer has placed an access unit and found no room for the packet. The parameter sets and the slice
are left in the stream behind what has waited there. They come out in front of the next packet, and of no
other one. -/
structure LeavesPicture (s : Placer) (packet : Packet) (memory : Memory) (s' : Placer) : Prop where
  placed : ∃ au ctx segment sps pps sets own,
    AccessUnit.decode s.ctx packet.data = .ok (au, ctx) ∧ au.slices.head? = some segment ∧
    ctx.paramSets segment.header.ppsId = some (sps, pps) ∧ WrittenSets sets ∧
    BitStream.empty.slice segment sps pps s.placement.target = .ok own ∧
    s' = { s with ctx, stream := s'.stream } ∧
    s'.stream.out.bytes = s.stream.out.bytes ++ sets ++ own.out.bytes
  noRoom : memory.bytes s'.stream.out.bytes.length = false
  next : ∀ (packet output : Packet) (s₁ : Placer),
    (∃ result, AccessUnit.decode s'.ctx packet.data = .ok result) →
    filter { s' with stream := .empty } packet = (.ok (some output), s₁) →
    s'.filter packet = (.ok (some { output with data := s'.stream.out.bytes ++ output.data }), s₁)
  later : ∀ requests, Leaks s'.stream.out.bytes
    (serveAll serve { s' with stream := .empty } requests).1 (serveAll serve s' requests).1

theorem leavesPicture_of_place {s : Placer} (hs : s.stream.HoldsUnits) {memory : Memory}
    {packet : Packet} {au : AccessUnit} {stream : BitStream} {e : EngineError}
    (hdecode : AccessUnit.decode s.ctx packet.data = .ok (au, ctx))
    (hplace : place s.placement ctx s.stream au = .ok (stream, true))
    (hdata : stream.packetData memory = .error e) :
    e = .outOfMemory ∧ s.LeavesPicture packet memory { s with ctx, stream } ∧
      ¬ Restarted { s with ctx, stream } := by
  obtain ⟨segment, stream₁, hfirst, hwrite, hslice⟩ := place_eq_ok_true_iff.1 hplace
  obtain ⟨hwhole₁, sets, hsets, hbytes₁⟩ := writeUnits_spec hwrite hs.whole
  obtain ⟨hwhole, sps, pps, own, hknown, hown, hbytes⟩ := writeSlice_spec hslice hwhole₁
  rw [hbytes₁] at hbytes
  obtain ⟨hroom, rfl⟩ := (packetData_eq_error_iff hwhole).1 hdata
  refine ⟨rfl, ⟨⟨au, ctx, segment, sps, pps, sets, own, hdecode, hfirst, hknown, hsets, hown, rfl,
    hbytes⟩, hroom, fun packet output s₁ hread hfilter => ?_, fun requests => ?_⟩, fun hrestarted => ?_⟩
  · obtain ⟨⟨au, c⟩, hread⟩ := hread
    have hbehind := filter_behind { s with ctx } hwhole.behind hread
    generalize hanswer : filter { s with ctx, stream } packet = answer at hbehind ⊢
    rw [show filter { s with ctx, stream := .empty } packet = _ from hfilter] at hbehind
    cases hbehind with
    | placed => rfl
  · exact serveAll_behind { s with ctx } hwhole.behind requests
  · have hnone : s.stream.out.bytes ++ sets ++ own.out.bytes = [] :=
      hbytes.symm.trans hrestarted.clear.bytes
    exact bytes_slice_ne_nil hown (List.append_eq_nil_iff.1 hnone).2

end Placer

/-- If a splitter refuses an access unit for any other reason than packets that are still to be
received, or fails to give the packet of a slice, nothing is left in the streams, wherever writing
failed and whatever there is room for, and all requests are answered from then on as by a splitter with
new streams. The same is true of a placer that fails to place an access unit, but not of one that has no
room for the packet. -/
theorem restarted_iff_of_error (packet : Packet) (memory : Memory) (e : EngineError) :
    (∀ s : Splitter, (s.send packet memory).1 = .error e → e ≠ .pendingOutput →
      (s.send packet memory).2.Restarted) ∧
    (∀ s : Splitter, (s.receive memory).1 = .error e → (s.receive memory).2.Restarted) ∧
    ∀ s : Placer, s.Occurs → (s.filter packet memory).1 = .error e →
      ((s.filter packet memory).2.Restarted ↔ e ≠ .outOfMemory) ∧
      (e = .outOfMemory → s.LeavesPicture packet memory (s.filter packet memory).2) := by
  refine ⟨fun s herror hne => ?_, fun s herror => ?_, fun s hs herror => ?_⟩
  · have hsends := s.sends packet memory
    generalize s.send packet memory = result at herror hsends
    cases hsends with
    | busy => exact absurd (Except.error.inj herror).symm hne
    | unread => cases herror
    | @refused _ au ctx e' tiles => exact Splitter.restarted_reset ctx tiles
    | taken => cases herror
  · have hreceives := s.receives memory
    generalize s.receive memory = result at herror hreceives
    cases hreceives with
    | nothing => cases herror
    | back => cases herror
    | @failed _ _ _ e' tiles => exact Splitter.restarted_reset s.ctx tiles
    | given => cases herror
  · have hfilters := s.filters packet memory
    generalize s.filter packet memory = result at herror hfilters
    cases hfilters with
    | unread => cases herror
    | waits => cases herror
    | placed => cases herror
    | @failed au ctx e' decode place =>
      obtain rfl := Except.error.inj herror
      have hne := Placer.place_ne_outOfMemory hs.holdsUnits.whole place
      exact ⟨iff_of_true (Placer.restarted_empty s.placement ctx) hne, fun he => absurd he hne⟩
    | @kept au ctx stream e' decode place noData =>
      obtain rfl := Except.error.inj herror
      obtain ⟨rfl, hleft, hnot⟩ := Placer.leavesPicture_of_place hs.holdsUnits decode place noData
      exact ⟨iff_of_false hnot fun hne => hne rfl, fun _ => hleft⟩

namespace Sample

/-- The parameter sets of the picture, but for a picture of another size. -/
def narrowSets : Packet where
  data := picture.take 28 ++ [0, 0, 0, 1, 66, 1, 1, 1, 96, 0, 0, 3, 0, 144, 0, 0, 3, 0, 0, 3, 0, 123, 160,
    2, 128, 128, 45, 31, 46, 89, 89, 164, 145, 34, 178] ++ (picture.take 75).drop 64

/-- A splitter that has given out the picture. -/
def waitingSplitter : Splitter := splitter.receive.2.receive.2

/-- A placer whose grid turns out to be too fine for the blocks of the picture. -/
def finePlacer : Placer := ⟨{ width := 64, height := 64, column := 4 }, .empty, .empty⟩

theorem send_narrowSets : (waitingSplitter.send narrowSets).1 = .error (.invalidData "picture size") := by
  decide +kernel

theorem filter_setsAlone : (finePlacer.filter setsAlone).1 = .error (.invalidOption "column" 4) := by
  decide +kernel

/-- There is no room for new streams, and none for packets of more than 16 bytes. -/
def scarce : Memory where
  streams := fun n => n == 0
  bytes := fun n => decide (n ≤ 16)

theorem filter_scarce : (placer.filter { data := picture } scarce).1 = .error .outOfMemory := by
  decide +kernel

end Sample

open Sample in
theorem restarted_iff_of_error_sample :
    (((Splitter.empty.send setsAlone).2.send narrowSets).1 = .error (.invalidData "picture size") ∧
      ((Splitter.empty.send setsAlone).2.send narrowSets).2.Restarted) ∧
    ((Splitter.empty.send setsAlone scarce).1 = .error .outOfMemory ∧
      (Splitter.empty.send setsAlone scarce).2.Restarted) ∧
    (((waitingSplitter.send narrowSets).2.send slicesAlone).2.receive.1 =
        .error (.invalidData "picture size") ∧
      ((waitingSplitter.send narrowSets).2.send slicesAlone).2.receive.2.Restarted) ∧
    ((splitter.receive scarce).1 = .error .outOfMemory ∧ (splitter.receive scarce).2.Restarted) ∧
    ((finePlacer.filter setsAlone).1 = .error (.invalidOption "column" 4) ∧
      (finePlacer.filter setsAlone).2.Restarted) ∧
    (placer.filter { data := picture } scarce).1 = .error .outOfMemory ∧
      ¬ (placer.filter { data := picture } scarce).2.Restarted ∧
      placer.LeavesPicture { data := picture } scarce (placer.filter { data := picture } scarce).2 := by
  have hsent : ((Splitter.empty.send setsAlone).2.send narrowSets).1 =
      .error (.invalidData "picture size") := by decide +kernel
  have hscarce : (Splitter.empty.send setsAlone scarce).1 = .error .outOfMemory := by decide +kernel
  have hreceived : ((waitingSplitter.send narrowSets).2.send slicesAlone).2.receive.1 =
      .error (.invalidData "picture size") := by decide +kernel
  have hreceived' : (splitter.receive scarce).1 = .error .outOfMemory := by decide +kernel
  have hfine : finePlacer.Occurs := .ofPlacement (p := finePlacer.placement) (by decide)
  have hplacer : placer.Occurs := .ofPlacement (p := Placer.samplePlacement) (by decide +kernel)
  obtain ⟨hrestarted, -⟩ :=
    (restarted_iff_of_error setsAlone .ample _).2.2 _ hfine filter_setsAlone
  obtain ⟨hnot, hleaves⟩ :=
    (restarted_iff_of_error { data := picture } scarce _).2.2 _ hplacer filter_scarce
  exact ⟨⟨hsent, (restarted_iff_of_error narrowSets .ample _).1 _ hsent nofun⟩,
    ⟨hscarce, (restarted_iff_of_error setsAlone scarce _).1 _ hscarce nofun⟩,
    ⟨hreceived, (restarted_iff_of_error slicesAlone .ample _).2.1 _ hreceived⟩,
    ⟨hreceived', (restarted_iff_of_error slicesAlone scarce _).2.1 _ hreceived'⟩,
    ⟨filter_setsAlone, hrestarted.2 nofun⟩, filter_scarce, fun h => hnot.1 h rfl, hleaves rfl⟩

open Sample in
/-- There is no room for the packet of a picture that a placer has placed. The next packet has the
parameter sets and the slice of that picture in it, in front of its own slice. From a new stream it would
have had its own slice alone. -/
theorem picture_without_room_leaks :
    placer.Occurs ∧ (placer.filter { data := picture } scarce).1 = .error .outOfMemory ∧
      (placer.filter { data := picture } scarce).2.stream.out.bytes = placedPacket.data ∧
      ∃ own, ({ (placer.filter { data := picture } scarce).2 with stream := .empty }.filter
          slicesAlone).1 = .ok (some (slicesAlone.derive own)) ∧
        ((placer.filter { data := picture } scarce).2.filter slicesAlone).1 =
          .ok (some (slicesAlone.derive (placedPacket.data ++ own))) ∧
        sliceData (placedPacket.data ++ own) = .ok [firstSlice.data, firstSlice.data] := by
  refine ⟨.ofPlacement (p := Placer.samplePlacement) (by decide +kernel), filter_scarce,
    by decide +kernel, placedPacket.data.drop 75, ?_⟩
  decide +kernel

end TiledVideo
