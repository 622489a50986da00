import TiledVideo.Proofs.Engine.TileStreams
import TiledVideo.Proofs.ParamSet.Context

/-!
# Runs of a splitter

A run is any sequence of calls that succeed. What has been given out for a tile, together with what
waits in its stream, is what the tile gets of each access unit by itself. So no unit is lost, given
twice or put in another place, whatever the calls are.

Results:

* `Run.effect_of_step`: what a call does to the streams and to what there is for the tiles.
* `Run.expected_eq`: what has been given out for a tile and what waits in its stream.
-/

namespace TiledVideo.Splitter

open TileStreams

/-! ## Calls -/

/-- A call of a splitter. -/
inductive Call where
  | send (packet : Packet)
  | receive
  deriving DecidableEq, Repr

/-- An access unit that was sent, with what was received for it. -/
structure Sent where
  /-- The access unit and the parameter sets in force after it, if it could be read. -/
  parsed : Option (AccessUnit × Context)
  /-- The packets received since it was sent. -/
  packets : List Packet
  deriving DecidableEq

/-- A packet that is received of a slice is what has been written of it. -/
theorem writeSlice_of_receive {memory : Memory} {s : Splitter} {input packet : Packet}
    {next : SliceUnit} {later : List SliceUnit} (hphase : s.phase = .distributing input next later)
    (hreceive : (s.receive memory).1 = .ok (some packet)) :
    ∃ tile data tiles, writeSlice memory s.ctx next s.tiles = .ok (tile, data) tiles ∧
      packet = { input.derive data with tile := some tile } := by
  unfold receive at hreceive
  simp only [hphase] at hreceive
  cases hwrite : writeSlice memory s.ctx next s.tiles with
  | error e tiles =>
    simp only [hwrite] at hreceive
    cases hreceive
  | ok result tiles =>
    obtain ⟨tile, data⟩ := result
    simp only [hwrite] at hreceive
    cases hreceive
    exact ⟨tile, data, tiles, rfl, rfl⟩

/-! ## What a tile gets -/

section Shares

variable {α : Type} {sets : List DecodedUnit → Except EngineError (List α)}
  {slice : Context → SliceUnit → Except EngineError (List α)}

/-- The packets given out for a tile of an access unit that could be read. -/
def Sent.packetsFor (s : Sent) (tile : Nat) : List Packet :=
  if s.parsed.isSome then s.packets.filter (·.tile == some tile) else []

/-- What there is for a tile of an access unit up to now, if `sets` says what there is for it of the
parameter sets, and `slice` what there is of each slice received. -/
def Sent.share (sets : List DecodedUnit → Except EngineError (List α))
    (slice : Context → SliceUnit → Except EngineError (List α)) (s : Sent) :
    Except EngineError (List α) :=
  match s.parsed with
  | none => pure []
  | some (au, ctx) => do
    let front ← sets au.units
    let slices ← (au.slices.take s.packets.length).mapM (slice ctx)
    pure (front ++ slices.flatten)

/-- All packets given out for a tile. -/
def packetsFor (sent : List Sent) (tile : Nat) : List Packet :=
  sent.reverse.flatMap (·.packetsFor tile)

/-- What there is for a tile of all access units up to now. -/
def shares (sets : List DecodedUnit → Except EngineError (List α))
    (slice : Context → SliceUnit → Except EngineError (List α)) (sent : List Sent) :
    Except EngineError (List α) :=
  List.flatten <$> sent.reverse.mapM (·.share sets slice)

theorem packetsFor_cons (last : Sent) (earlier : List Sent) (tile : Nat) :
    packetsFor (last :: earlier) tile = packetsFor earlier tile ++ last.packetsFor tile := by
  simp [packetsFor]

theorem shares_cons_eq_ok {last : Sent} {earlier : List Sent} {xs : List α} :
    shares sets slice (last :: earlier) = .ok xs ↔
      ∃ a b, shares sets slice earlier = .ok a ∧ last.share sets slice = .ok b ∧ a ++ b = xs := by
  simp only [shares, List.reverse_cons, List.mapM_append, List.mapM_cons, List.mapM_nil]
  rw [map_eq_ok_iff]
  constructor
  · rintro ⟨parts, hparts, rfl⟩
    obtain ⟨as, has, hparts⟩ := bind_eq_ok_iff.1 hparts
    obtain ⟨bs, hbs, hparts⟩ := bind_eq_ok_iff.1 hparts
    obtain ⟨b, hb, hbs⟩ := bind_eq_ok_iff.1 hbs
    cases hbs
    cases hparts
    exact ⟨as.flatten, b, map_eq_ok_iff.2 ⟨as, has, rfl⟩, hb, by simp⟩
  · rintro ⟨a, b, ha, hb, rfl⟩
    obtain ⟨as, has, rfl⟩ := map_eq_ok_iff.1 ha
    refine ⟨as ++ [b], ?_, by simp⟩
    rw [has, hb]
    rfl

end Shares

/-- The bytes that there are for a tile: its parameter sets and the slices received. -/
def expected (tile : Nat) (sent : List Sent) : Except EngineError Bytes :=
  shares (setBytes tile) (sliceBytes tile) sent

/-! ## Runs -/

/-- A splitter and what has become of the access units sent to it, the last one first. -/
structure Run where
  splitter : Splitter
  sent : List Sent
  deriving DecidableEq

namespace Run

/-- A packet received after some access units were sent. -/
def received (packet : Packet) : List Sent → List Sent
  | [] => []
  | last :: earlier => { last with packets := last.packets ++ [packet] } :: earlier

/-- The access units that could be read, with the parameter sets in force after each. -/
def parsed (sent : List Sent) : List (AccessUnit × Context) :=
  sent.filterMap (·.parsed)

theorem parsed_received (packet : Packet) (sent : List Sent) :
    parsed (received packet sent) = parsed sent := by
  cases sent with
  | nil => rfl
  | cons last earlier => simp only [parsed, received, List.filterMap_cons]

/-- The run after a further call, if the call succeeds. -/
def call (r : Run) : Call → Except EngineError Run
  | .send packet =>
    match r.splitter.send packet with
    | (.error e, _) => .error e
    | (.ok (), splitter) =>
      .ok ⟨splitter, ⟨(AccessUnit.decode r.splitter.ctx packet.data).toOption, []⟩ :: r.sent⟩
  | .receive =>
    match r.splitter.receive with
    | (.error e, _) => .error e
    | (.ok none, splitter) => .ok ⟨splitter, r.sent⟩
    | (.ok (some packet), splitter) => .ok ⟨splitter, received packet r.sent⟩

/-- The run in which calls are made one after the other, if all of them succeed. -/
def calls (s : Splitter) (cs : List Call) : Except EngineError Run :=
  cs.foldlM call ⟨s, []⟩

/-! ## Steps of a run -/

/-- What a call that succeeds does to a run. -/
inductive Step (r : Run) : Run → Prop where
  /-- An access unit is taken to be given back as it is. -/
  | unread {packet : Packet} (idle : r.splitter.phase = .idle) :
    Step r ⟨{ r.splitter with phase := .passThrough packet }, ⟨none, []⟩ :: r.sent⟩
  /-- The parameter sets of an access unit are distributed. -/
  | read {packet : Packet} {au : AccessUnit} {ctx : Context} {tiles : TileStreams}
    (idle : r.splitter.phase = .idle)
    (decode : AccessUnit.decode r.splitter.ctx packet.data = .ok (au, ctx))
    (distribute : distributeAll .ample au r.splitter.tiles = .ok () tiles) :
    Step r ⟨⟨ctx, tiles, .ofSlices packet au.slices⟩, ⟨some (au, ctx), []⟩ :: r.sent⟩
  /-- There is nothing to be received. -/
  | nothing : Step r r
  /-- An access unit is given back as it is. -/
  | back {packet : Packet} (phase : r.splitter.phase = .passThrough packet) :
    Step r ⟨{ r.splitter with phase := .idle }, received packet r.sent⟩
  /-- A slice is given out. -/
  | slice {input : Packet} {next : SliceUnit} {later : List SliceUnit} {tile : Nat} {data : Bytes}
    {tiles : TileStreams} (phase : r.splitter.phase = .distributing input next later)
    (write : writeSlice .ample r.splitter.ctx next r.splitter.tiles = .ok (tile, data) tiles) :
    Step r ⟨{ r.splitter with tiles, phase := .ofSlices input later },
      received { input.derive data with tile := some tile } r.sent⟩

theorem step_of_call {r r' : Run} {c : Call} (h : r.call c = .ok r') : Step r r' := by
  obtain ⟨⟨ctx, tiles, phase⟩, sent⟩ := r
  cases c with
  | send packet =>
    cases phase with
    | passThrough input => cases h
    | distributing input next later => cases h
    | idle =>
      cases hdecode : AccessUnit.decode ctx packet.data with
      | error e =>
        simp only [call, send, hdecode] at h
        cases h
        exact .unread rfl
      | ok result =>
        obtain ⟨au, ctx'⟩ := result
        cases hdistribute : distributeAll .ample au tiles with
        | error e tiles' =>
          simp only [call, send, hdecode, hdistribute] at h
          cases h
        | ok _ tiles' =>
          simp only [call, send, hdecode, hdistribute] at h
          cases h
          exact .read rfl hdecode hdistribute
  | receive =>
    cases phase with
    | idle =>
      cases h
      exact .nothing
    | passThrough packet =>
      cases h
      exact .back rfl
    | distributing input next later =>
      cases hwrite : writeSlice .ample ctx next tiles with
      | error e tiles' =>
        simp only [call, receive, hwrite] at h
        cases h
      | ok result tiles' =>
        obtain ⟨tile, data⟩ := result
        simp only [call, receive, hwrite] at h
        cases h
        exact .slice rfl hwrite

/-- What every step preserves holds after every run. -/
theorem calls_induction {P : Run → Prop} {s : Splitter} {cs : List Call} {r : Run}
    (start : P ⟨s, []⟩) (step : ∀ r r', P r → Step r r' → P r') (h : calls s cs = .ok r) : P r := by
  unfold calls at h
  generalize (⟨s, []⟩ : Run) = r₀ at start h
  induction cs generalizing r₀ with
  | nil =>
    cases h
    exact start
  | cons c cs ih =>
    obtain ⟨r₁, hcall, h⟩ := bind_eq_ok_iff.1 h
    exact ih r₁ (step r₀ r₁ start (step_of_call hcall)) h

/-! ## What a step does -/

/-- The phase of a splitter tells which packets of the last access unit are left. -/
def Follows (ctx : Context) : Phase → List Sent → Prop
  | .idle, _ => True
  | .passThrough _, last :: _ => last.parsed = none
  | .distributing _ next later, last :: _ => ∃ au, last.parsed = some (au, ctx) ∧
    au.slices.drop last.packets.length = next :: later
  | _, [] => False

theorem follows_ofSlices {ctx : Context} {input : Packet} {au : AccessUnit}
    {packets : List Packet} {slices : List SliceUnit} {sent : List Sent}
    (h : au.slices.drop packets.length = slices) :
    Follows ctx (.ofSlices input slices) (⟨some (au, ctx), packets⟩ :: sent) := by
  cases slices with
  | nil => trivial
  | cons next later => exact ⟨au, rfl, h⟩

theorem last_of_passThrough {ctx : Context} {packet : Packet} {sent : List Sent}
    (h : Follows ctx (.passThrough packet) sent) :
    ∃ packets earlier, sent = ⟨none, packets⟩ :: earlier := by
  cases sent with
  | nil => cases h
  | cons last earlier =>
    obtain ⟨parsed, packets⟩ := last
    obtain rfl : parsed = none := h
    exact ⟨packets, earlier, rfl⟩

theorem last_of_distributing {ctx : Context} {input : Packet} {next : SliceUnit}
    {later : List SliceUnit} {sent : List Sent} (h : Follows ctx (.distributing input next later) sent) :
    ∃ au packets earlier, sent = ⟨some (au, ctx), packets⟩ :: earlier ∧
      au.slices.drop packets.length = next :: later := by
  cases sent with
  | nil => cases h
  | cons last earlier =>
    obtain ⟨parsed, packets⟩ := last
    obtain ⟨au, rfl, hdrop⟩ := h
    exact ⟨au, packets, earlier, rfl, hdrop⟩

section Sent

variable {α : Type} {sets : List DecodedUnit → Except EngineError (List α)}
  {slice : Context → SliceUnit → Except EngineError (List α)} {xs own : List α}
  {au : AccessUnit} {ctx : Context} {packets : List Packet} {earlier : List Sent}

/-- There is nothing for a tile of an access unit that could not be read. -/
theorem shares_unread (h : shares sets slice earlier = .ok xs) :
    shares sets slice (⟨none, packets⟩ :: earlier) = .ok xs :=
  shares_cons_eq_ok.2 ⟨xs, [], h, rfl, List.append_nil xs⟩

/-- What is given back as it is does not count, whatever tile it is marked with. -/
theorem packetsFor_unread (packets : List Packet) (earlier : List Sent) (tile : Nat) :
    packetsFor (⟨none, packets⟩ :: earlier) tile = packetsFor earlier tile := by
  rw [packetsFor_cons]
  exact List.append_nil _

/-- A further access unit adds its parameter sets to what there is for the tiles. -/
theorem shares_read (hxs : shares sets slice earlier = .ok xs) (hown : sets au.units = .ok own) :
    shares sets slice (⟨some (au, ctx), []⟩ :: earlier) = .ok (xs ++ own) := by
  refine shares_cons_eq_ok.2 ⟨xs, own, hxs, ?_, rfl⟩
  simp [Sent.share, hown, bind, Except.bind, pure, Except.pure]

theorem packetsFor_read (parsed : AccessUnit × Context) (earlier : List Sent) (tile : Nat) :
    packetsFor (⟨some parsed, []⟩ :: earlier) tile = packetsFor earlier tile := by
  rw [packetsFor_cons]
  exact List.append_nil _

/-- A further slice adds to what there is for the tiles. -/
theorem shares_received {next : SliceUnit} {later : List SliceUnit}
    (hdrop : au.slices.drop packets.length = next :: later) (packet : Packet)
    (hxs : shares sets slice (⟨some (au, ctx), packets⟩ :: earlier) = .ok xs)
    (hown : slice ctx next = .ok own) :
    shares sets slice (received packet (⟨some (au, ctx), packets⟩ :: earlier)) =
      .ok (xs ++ own) := by
  obtain ⟨a, b, ha, hb, rfl⟩ := shares_cons_eq_ok.1 hxs
  refine shares_cons_eq_ok.2 ⟨a, b ++ own, ha, ?_, (List.append_assoc _ _ _).symm⟩
  obtain ⟨front, hfront, hb⟩ := bind_eq_ok_iff.1 hb
  obtain ⟨slices, hslices, hb⟩ := bind_eq_ok_iff.1 hb
  cases hb
  have htake : au.slices.take (packets ++ [packet]).length =
      au.slices.take packets.length ++ [next] := by
    have hnext : au.slices[packets.length]? = some next := by
      rw [← List.head?_drop, hdrop]
      rfl
    rw [List.length_append, List.length_singleton, List.take_add_one, hnext]
    rfl
  simp only [Sent.share, htake, List.mapM_append, List.mapM_cons, List.mapM_nil, hfront, hslices,
    hown, bind, Except.bind, pure, Except.pure, List.flatten_append, List.flatten_cons,
    List.flatten_nil, List.append_nil, List.append_assoc]

theorem packetsFor_received (parsed : AccessUnit × Context) (packets : List Packet)
    (earlier : List Sent) (packet : Packet) (tile : Nat) :
    packetsFor (received packet (⟨some parsed, packets⟩ :: earlier)) tile =
      packetsFor (⟨some parsed, packets⟩ :: earlier) tile ++
        if packet.tile = some tile then [packet] else [] := by
  rw [received, packetsFor_cons, packetsFor_cons, List.append_assoc]
  refine congrArg _ ?_
  simp only [Sent.packetsFor, Option.isSome_some, if_true, List.filter_append]
  split
  · next h => simp [h]
  · next h => simp [h]

end Sent

/-- What a step does to a splitter, to the packets given out for its tiles, and to what there is for
them, whatever is looked at of parameter sets and slices. -/
inductive Effect (r r' : Run) : Prop where
  /-- Nothing is written. -/
  | quiet (ctx : r'.splitter.ctx = r.splitter.ctx) (tiles : r'.splitter.tiles = r.splitter.tiles)
    (parsed_eq : parsed r'.sent = parsed r.sent)
    (given : ∀ tile, packetsFor r'.sent tile = packetsFor r.sent tile)
    (adds : ∀ {α : Type} {sets : List DecodedUnit → Except EngineError (List α)}
      {slice : Context → SliceUnit → Except EngineError (List α)} {xs : List α},
      shares sets slice r.sent = .ok xs → shares sets slice r'.sent = .ok xs)
  /-- The parameter sets of an access unit are written. -/
  | sets {packet : Packet} {au : AccessUnit}
    (decode : AccessUnit.decode r.splitter.ctx packet.data = .ok (au, r'.splitter.ctx))
    (distribute : distributeAll .ample au r.splitter.tiles = .ok () r'.splitter.tiles)
    (parsed_eq : parsed r'.sent = (au, r'.splitter.ctx) :: parsed r.sent)
    (given : ∀ tile, packetsFor r'.sent tile = packetsFor r.sent tile)
    (adds : ∀ {α : Type} {sets : List DecodedUnit → Except EngineError (List α)}
      {slice : Context → SliceUnit → Except EngineError (List α)} {xs own : List α},
      shares sets slice r.sent = .ok xs → sets au.units = .ok own →
        shares sets slice r'.sent = .ok (xs ++ own))
  /-- A slice of the last access unit is written and given out. -/
  | slice {input : Packet} {au : AccessUnit} {next : SliceUnit} {tile : Nat} {data : Bytes}
    (ctx : r'.splitter.ctx = r.splitter.ctx)
    (write : writeSlice .ample r.splitter.ctx next r.splitter.tiles = .ok (tile, data) r'.splitter.tiles)
    (parsed_eq : parsed r'.sent = parsed r.sent) (last : (au, r.splitter.ctx) ∈ parsed r.sent)
    (next_mem : next ∈ au.slices)
    (given : ∀ other, packetsFor r'.sent other = packetsFor r.sent other ++
      if tile = other then [{ input.derive data with tile := some tile }] else [])
    (adds : ∀ {α : Type} {sets : List DecodedUnit → Except EngineError (List α)}
      {slice : Context → SliceUnit → Except EngineError (List α)} {xs own : List α},
      shares sets slice r.sent = .ok xs → slice r.splitter.ctx next = .ok own →
        shares sets slice r'.sent = .ok (xs ++ own))

section Step

variable {r r' : Run}

theorem effect_of_step (hr : Follows r.splitter.ctx r.splitter.phase r.sent) (h : Step r r') :
    r.Effect r' := by
  obtain ⟨splitter, sent⟩ := r
  cases h with
  | unread idle =>
    exact .quiet rfl rfl rfl (packetsFor_unread [] sent) shares_unread
  | @read packet au ctx tiles idle decode distribute =>
    exact .sets decode distribute rfl (packetsFor_read (au, ctx) sent) shares_read
  | nothing => exact .quiet rfl rfl rfl (fun _ => rfl) id
  | @back packet phase =>
    dsimp only at hr phase
    rw [phase] at hr
    obtain ⟨packets, earlier, rfl⟩ := last_of_passThrough hr
    refine .quiet rfl rfl (parsed_received packet (_ :: earlier)) (fun tile => ?_) fun hxs => ?_
    · rw [received, packetsFor_unread, packetsFor_unread]
    · obtain ⟨a, b, ha, ⟨⟩, rfl⟩ := shares_cons_eq_ok.1 hxs
      rw [List.append_nil]
      exact shares_unread ha
  | @slice input next later tile data tiles phase write =>
    dsimp only at hr phase
    rw [phase] at hr
    obtain ⟨au, packets, earlier, rfl, hdrop⟩ := last_of_distributing hr
    have hnext : next ∈ au.slices :=
      List.mem_of_mem_drop (i := packets.length) (by rw [hdrop]; exact List.mem_cons_self)
    have hgiven := packetsFor_received (au, splitter.ctx) packets earlier
      { input.derive data with tile := some tile }
    simp only [Option.some.injEq] at hgiven
    exact .slice rfl write (parsed_received _ (_ :: earlier)) List.mem_cons_self hnext hgiven
      (shares_received hdrop _)

theorem follows_of_step (hr : Follows r.splitter.ctx r.splitter.phase r.sent) (h : Step r r') :
    Follows r'.splitter.ctx r'.splitter.phase r'.sent := by
  obtain ⟨splitter, sent⟩ := r
  cases h with
  | unread idle => rfl
  | read idle decode distribute => exact follows_ofSlices rfl
  | nothing => exact hr
  | back phase => trivial
  | slice phase write =>
    dsimp only at hr phase
    rw [phase] at hr
    obtain ⟨au, packets, earlier, rfl, hdrop⟩ := last_of_distributing hr
    refine follows_ofSlices ?_
    rw [List.length_append, ← List.drop_drop, hdrop]
    rfl

end Step

/-! ## The invariant -/

/-- What has been given out for a tile, with what waits in its stream, is what the tile gets. -/
structure Invariant (r : Run) : Prop where
  whole : r.splitter.tiles.Whole
  follows : Follows r.splitter.ctx r.splitter.phase r.sent
  streams : ∀ tile, r.splitter.tiles.Serves tile →
    expected tile r.sent =
      .ok ((packetsFor r.sent tile).flatMap (·.data) ++ r.splitter.tiles.waiting tile)

/-- What is given out of a slice is what a tile gets of it, behind what waited in its stream. -/
theorem bytes_of_slice {t t' : TileStreams} {ctx : Context} {next : SliceUnit} {tile : Nat}
    {data : Bytes} (h : t.Gives t' ctx next tile data) (input : Packet) (packets : List Packet)
    (other : Nat) : ∃ bytes, sliceBytes other ctx next = .ok bytes ∧
      (packets ++ if tile = other then [{ input.derive data with tile := some tile }] else []).flatMap
          Packet.data ++ t'.waiting other =
        packets.flatMap Packet.data ++ t.waiting other ++ bytes := by
  obtain ⟨d, own, hd, htile, hown, hdata⟩ := h.data
  by_cases hsame : tile = other
  · subst hsame
    refine ⟨own, bind_eq_ok_iff.2 ⟨d, hd, (if_pos htile).trans hown⟩, ?_⟩
    rw [if_pos rfl, h.emptied]
    simp [hdata, Packet.derive]
  · refine ⟨[], bind_eq_ok_iff.2 ⟨d, hd, if_neg (by rwa [htile])⟩, ?_⟩
    rw [if_neg hsame, h.others other (Ne.symm hsame), List.append_nil, List.append_nil]

theorem Invariant.step {r r' : Run} (hr : r.Invariant) (h : Step r r') : r'.Invariant := by
  have hfollows := follows_of_step hr.follows h
  cases effect_of_step hr.follows h with
  | quiet ctx tiles parsed_eq given adds =>
    refine ⟨by rw [tiles]; exact hr.whole, hfollows, fun tile htile => ?_⟩
    rw [tiles] at htile
    rw [given, tiles]
    exact adds (hr.streams tile htile)
  | sets decode distribute parsed_eq given adds =>
    have hadds := distributeAll_spec hr.whole distribute
    refine ⟨hadds.whole, hfollows, fun tile htile => ?_⟩
    obtain ⟨bytes, hbytes, hwaiting⟩ := hadds.waiting tile htile
    rw [given, hwaiting, ← List.append_assoc]
    exact adds (hr.streams tile (hadds.serves tile htile)) hbytes
  | slice ctx write parsed_eq last next_mem given adds =>
    have hgives := writeSlice_spec hr.whole write
    refine ⟨hgives.whole, hfollows, fun other hother => ?_⟩
    obtain ⟨bytes, hown, hbytes⟩ := bytes_of_slice hgives _ (packetsFor r.sent other) other
    rw [given, hbytes]
    exact adds (hr.streams other (hgives.serves other hother)) hown

/-- A splitter that knows the parameter sets of extradata has an empty stream for each tile, and at most
the layout of the first picture parameter set in use. -/
theorem ofExtradata_eq_ok {memory : Memory} {s : Splitter} {bytes : Bytes}
    (h : ofExtradata bytes memory = .ok s) :
    ∃ sets pps layouts, Extradata.decode bytes = .ok sets ∧ sets.firstPps = some pps ∧
      (layouts = .empty ∨
        ∃ sps layout, LayoutTable.empty.resolve sps pps = .ok (layout, layouts)) ∧
      s = ⟨sets.ctx, ⟨layouts, fresh pps.partition.tileCount⟩, .idle⟩ := by
  obtain ⟨sets, hsets, h⟩ := bind_eq_ok_iff.1 h
  obtain ⟨pps, hpps, h⟩ := bind_eq_ok_iff.1 h
  refine ⟨sets, pps, s.tiles.layouts, mapError_eq_ok_iff.1 hsets, elim_eq_ok_iff.1 hpps, ?_⟩
  cases hsps : sets.ctx.spsOf pps with
  | none =>
    simp only [hsps] at h
    split at h
    · cases h
    · obtain ⟨streams, hstreams, h⟩ := bind_eq_ok_iff.1 h
      obtain ⟨-, rfl⟩ := newStreams_eq_ok_iff.1 hstreams
      cases h
      exact ⟨.inl rfl, rfl⟩
  | some sps =>
    simp only [hsps] at h
    split at h
    · cases h
    · obtain ⟨streams, hstreams, h⟩ := bind_eq_ok_iff.1 h
      obtain ⟨-, rfl⟩ := newStreams_eq_ok_iff.1 hstreams
      obtain ⟨⟨layout, layouts⟩, hresolve, h⟩ := bind_eq_ok_iff.1 h
      cases h
      exact ⟨.inr ⟨sps, layout, mapError_eq_ok_iff.1 hresolve⟩, rfl⟩

/-- A new splitter has nothing in its streams. -/
theorem ofExtradata_spec {memory : Memory} {s : Splitter} {bytes : Bytes}
    (h : ofExtradata bytes memory = .ok s) :
    s.tiles.Whole ∧ s.phase = .idle ∧ ∀ tile, s.tiles.waiting tile = [] := by
  obtain ⟨sets, pps, layouts, -, -, hlayouts, rfl⟩ := ofExtradata_eq_ok h
  have hworked : layouts.Worked := by
    obtain rfl | ⟨sps, layout, hresolve⟩ := hlayouts
    · exact LayoutTable.worked_empty
    · exact (LayoutTable.resolve_spec LayoutTable.worked_empty hresolve).2
  exact ⟨⟨hworked, fun _ => whole_fresh⟩, rfl, fun _ => waiting_fresh⟩

theorem invariant_start {s : Splitter} (hs : s = empty ∨ ∃ bytes, ofExtradata bytes = .ok s) :
    Invariant ⟨s, []⟩ := by
  have hspec : s.tiles.Whole ∧ s.phase = .idle ∧ ∀ tile, s.tiles.waiting tile = [] := by
    obtain rfl | ⟨bytes, hbytes⟩ := hs
    · exact ⟨whole_empty, rfl, fun _ => rfl⟩
    · exact ofExtradata_spec hbytes
  obtain ⟨hwhole, hphase, hwaiting⟩ := hspec
  refine ⟨hwhole, ?_, fun tile _ => ?_⟩
  · show Follows _ s.phase _
    rw [hphase]
    trivial
  · show _ = Except.ok (_ ++ s.tiles.waiting tile)
    rw [hwaiting]
    rfl

/-- In any run in which all calls succeed, what has been given out for a tile of the access units
that could be read, with what waits in the stream of the tile, is what the tile gets: the parameter
sets of each access unit and then those of its slices received so far that lie in the tile, each
unit written on its own. -/
theorem expected_eq {s : Splitter} (hs : s = empty ∨ ∃ bytes, ofExtradata bytes = .ok s)
    {cs : List Call} {r : Run} (h : calls s cs = .ok r) {tile : Nat}
    (htile : tile < r.splitter.tileCount) :
    ∃ stream, r.splitter.tiles.streams[tile]? = some stream ∧ stream.pending = [] ∧
      expected tile r.sent = .ok ((packetsFor r.sent tile).flatMap (·.data) ++ stream.out.bytes) := by
  have hr : r.Invariant := calls_induction (invariant_start hs) (fun _ _ => Invariant.step) h
  have hstream := List.getElem?_eq_getElem htile
  refine ⟨_, hstream, (hr.whole.streams _ (List.getElem_mem htile)).pending, ?_⟩
  rw [← waiting_of_getElem? hstream]
  exact hr.streams tile fun _ => htile

/-- The calls that send a picture of two tiles twice, before the slice of the second tile has been
received once more. -/
def sampleCalls : List Call :=
  [.send { data := Sample.picture }, .receive, .receive, .send { data := Sample.picture }, .receive]

/-- The run of these calls. -/
def sampleRun : Run :=
  match calls empty sampleCalls with
  | .ok r => r
  | .error _ => ⟨empty, []⟩

theorem expected_eq_sample : calls empty sampleCalls = .ok sampleRun ∧
    1 < sampleRun.splitter.tileCount ∧
    ∃ stream, sampleRun.splitter.tiles.streams[1]? = some stream ∧ stream.pending = [] ∧
      expected 1 sampleRun.sent =
        .ok ((packetsFor sampleRun.sent 1).flatMap (·.data) ++ stream.out.bytes) := by
  have hrun : calls empty sampleCalls = .ok sampleRun := by decide +kernel
  have htile : 1 < sampleRun.splitter.tileCount := by decide +kernel
  exact ⟨hrun, htile, expected_eq (.inl rfl) hrun htile⟩

end Run

end TiledVideo.Splitter
