import TiledVideo.Proofs.Engine.SetsAhead
import TiledVideo.Proofs.Nal.OtherData

/-!
# Slice data in a run

A splitter does the same whatever the data of a slice are. Each of its steps passes over them, up to the
one that writes the slice, and there they come last in the packet. So two runs in which a slice has other
data are at the same before the slice is given out and again behind it.

Results:

* `TileStreams.writeSlice_withData`: what is written of a slice with other data.
* `Splitter.serveAll_alikeBut`: two runs in which a slice has other data.
* `Splitter.other_slice_data`: a splitter that is sent an access unit with other data for a slice.
-/

namespace TiledVideo

namespace TileStreams

/-! ## Parameter sets -/

/-- Parameter sets are distributed without a look at the slices. -/
theorem distribute_slice (front back : List DecodedUnit) (x x' : SliceUnit) :
    distribute (front ++ .slice x :: back) = distribute (front ++ .slice x' :: back) :=
  distribute_append_congr rfl fun _ _ => rfl

theorem distributeAll_slice (memory : Memory) (front back : List DecodedUnit) (x x' : SliceUnit) :
    distributeAll memory ⟨front ++ .slice x :: back⟩ =
      distributeAll memory ⟨front ++ .slice x' :: back⟩ := by
  have hpps : AccessUnit.firstPps ⟨front ++ .slice x :: back⟩ =
      AccessUnit.firstPps ⟨front ++ .slice x' :: back⟩ := by
    simp only [AccessUnit.firstPps, List.findSome?_append, List.findSome?_cons, DecodedUnit.pps?]
  rw [distributeAll, distributeAll, prepare_congr hpps, distribute_slice front back x x']

/-! ## Slices -/

section Steps

variable {α β γ ε : Type} {t : TileStreams}

/-- Two runs of a step go on from the same streams. -/
theorem step_bind_eq_map {p : Step α} {f : α → Step β}
    {g : α → Step γ} {k : γ → β} (h : ∀ a t', p t = .ok a t' → f a t' = (k <$> g a) t') :
    (p >>= f) t = (k <$> (p >>= g)) t := by
  show EStateM.bind p f t = EStateM.map k (EStateM.bind p g) t
  rw [EStateM.map, EStateM.bind, EStateM.bind]
  cases hp : p t with
  | error e t' => rfl
  | ok a t' => exact h a t' hp

theorem step_map (k : α → β) (p : Step α) : (k <$> p) t =
    match p t with
    | .ok a t' => .ok (k a) t'
    | .error e t' => .error e t' := by
  show EStateM.map k p t = _
  rw [EStateM.map]
  cases p t <;> rfl

theorem lift_lift_bind (f : ε → EngineError) (x : Except ε α) (g : α → Except EngineError β)
    (k : β → Step γ) :
    (lift f x >>= fun a => lift id (g a) >>= k) = (lift id (x.mapError f >>= g) >>= k) := by
  cases x <;> rfl

end Steps

/-- The data of a slice come last in its unit. -/
theorem packetData_withData {s : BitStream} (hs : s.Whole) {x : SliceUnit}
    (hoffset : x.dataOffset = x.front.length) (sps : Sps) (pps : Pps)
    (target : SliceHeader.Target) (data : Bytes) :
    ((s.slice (x.withData data) sps pps target).mapError .ofWrite >>= BitStream.packetData .ample) =
      (· ++ Emulation.escape data) <$> ((s.slice (x.withData []) sps pps target).mapError .ofWrite >>=
        BitStream.packetData .ample) := by
  simp only [BitStream.slice_eq hs.pending, SliceUnit.data_withData hoffset,
    SliceUnit.header_withData, SliceUnit.nalHeader_withData, List.append_nil]
  cases hcode : x.header.encode x.nalHeader.unitType sps pps target with
  | error e => rfl
  | ok bits =>
    have htaken : ∀ payload, (s.withUnit x.nalHeader.unitType x.nalHeader.temporalId.val
        payload).packetData .ample = .ok (s.out.bytes ++ framedBytes x.nalHeader.unitType
          x.nalHeader.temporalId.val payload) :=
      fun payload => BitStream.packetData_ample (hs.withUnit _ payload)
    rw [Except.map_ok, Except.map_ok]
    show (s.withUnit _ _ _).packetData .ample = _ <$> (s.withUnit _ _ _).packetData .ample
    simp only [htaken, Except.map_ok, framedBytes, nalBytes,
      Emulation.escape_append (getLast?_toBytes_closed hcode), List.append_assoc, List.cons_append]

/-- The data of a slice are at the end of what is given out, and have no part in anything else. -/
theorem writeSlice_withData {t : TileStreams} (ht : t.Whole) (ctx : Context) {x : SliceUnit}
    (hoffset : x.dataOffset = x.front.length) (data : Bytes) :
    writeSlice .ample ctx (x.withData data) t =
      ((fun r => (r.1, r.2 ++ Emulation.escape data)) <$> writeSlice .ample ctx (x.withData [])) t := by
  refine step_bind_eq_map fun pps _ h₁ => ?_
  obtain ⟨-, rfl⟩ := lift_eq_ok.1 h₁
  refine step_bind_eq_map fun sps _ h₂ => ?_
  obtain ⟨-, rfl⟩ := lift_eq_ok.1 h₂
  refine step_bind_eq_map fun layout _ h₃ => ?_
  obtain ⟨layouts, -, rfl⟩ := resolve_eq_ok.1 h₃
  refine step_bind_eq_map fun tile _ h₄ => ?_
  obtain ⟨-, rfl⟩ := lift_eq_ok.1 h₄
  refine step_bind_eq_map fun size _ h₅ => ?_
  obtain ⟨-, rfl⟩ := lift_eq_ok.1 h₅
  refine step_bind_eq_map fun _ _ h₆ => ?_
  obtain ⟨rfl, rfl⟩ := get_eq_ok.1 h₆
  refine step_bind_eq_map fun streams _ h₇ => ?_
  obtain ⟨hopen, rfl⟩ := lift_eq_ok.1 h₇
  obtain ⟨-, rfl⟩ := openStreams_eq_ok_iff.1 hopen
  refine step_bind_eq_map fun _ _ h₈ => ?_
  obtain rfl := set_eq_ok.1 h₈
  split
  · rfl
  · refine step_bind_eq_map fun stream _ h₉ => ?_
    obtain ⟨hstream, rfl⟩ := lift_eq_ok.1 h₉
    have hwhole := whole_opened ht _ (List.mem_of_getElem? (elim_eq_ok_iff.1 hstream))
    have hdata := packetData_withData hwhole hoffset sps pps
      { width := size.1, height := size.2, tiles := .remove, x := 0, y := 0 } data
    simp only [BitStream.reset_eq]
    rw [lift_lift_bind, lift_lift_bind, hdata]
    generalize (stream.slice (x.withData []) sps pps _).mapError _ >>= BitStream.packetData _ = taken
    cases taken <;> rfl

end TileStreams

namespace Splitter

/-! ## Runs -/

/-- Where in a run the packet of slice number `k` is given out, counted among those that are left. Those
before it are asked for first, and it is not given out if one of them fails or all are dropped. -/
def packetAt : Nat → List (Request × Reply) → Option Nat
  | k, (.send _, _) :: later => (packetAt k later).map (· + 1)
  | 0, (.receive, .received (.ok _)) :: _ => some 0
  | k + 1, (.receive, .received (.ok _)) :: later => (packetAt k later).map (· + 1)
  | _, _ => none

/-- The same requests are answered with the same replies in a second run, apart from the packet of slice
number `k`: in its place there are replies that are related by `own`. -/
structure AlikeBut (k : Nat) (own : Reply → Reply → Prop) (requests : List Request)
    (replies replies' : List Reply) : Prop where
  same : packetAt k (requests.zip replies) = none → replies' = replies
  own : ∀ j, packetAt k (requests.zip replies) = some j → ∃ reply reply', own reply reply' ∧
    replies[j]? = some reply ∧ replies' = replies.set j reply'

/-- Two packets are the same up to the escaped slice data, which are the last of their bytes. -/
def OtherEnd (data data' : Bytes) (reply reply' : Reply) : Prop :=
  ∃ (packet : Packet) (written : Bytes),
    reply = .received (.ok (some { packet with data := written ++ Emulation.escape data })) ∧
    reply' = .received (.ok (some { packet with data := written ++ Emulation.escape data' }))

section AlikeBut

variable {k : Nat} {own : Reply → Reply → Prop} {requests : List Request}
  {replies replies' : List Reply}

theorem AlikeBut.of_none (h : packetAt k (requests.zip replies) = none) :
    AlikeBut k own requests replies replies := by
  refine ⟨fun _ => rfl, fun j hj => ?_⟩
  rw [h] at hj
  cases hj

theorem AlikeBut.cons (h : AlikeBut k own requests replies replies') {m : Nat}
    {request : Request} {reply : Reply} (hplace : packetAt m ((request, reply) ::
      requests.zip replies) = (packetAt k (requests.zip replies)).map (· + 1)) :
    AlikeBut m own (request :: requests) (reply :: replies) (reply :: replies') := by
  refine ⟨fun hnone => ?_, fun j hj => ?_⟩
  · rw [List.zip_cons_cons, hplace, Option.map_eq_none_iff] at hnone
    rw [h.same hnone]
  · rw [List.zip_cons_cons, hplace, Option.map_eq_some_iff] at hj
    obtain ⟨i, hi, rfl⟩ := hj
    obtain ⟨first, second, hown, hfirst, hset⟩ := h.own i hi
    exact ⟨first, second, hown, hfirst, congrArg (reply :: ·) hset⟩

theorem AlikeBut.of_own {packet packet' : Packet}
    (h : own (.received (.ok (some packet))) (.received (.ok (some packet')))) :
    AlikeBut 0 own (.receive :: requests) (.received (.ok (some packet)) :: replies)
      (.received (.ok (some packet')) :: replies) := by
  refine ⟨nofun, fun j hj => ?_⟩
  cases hj
  exact ⟨_, _, h, rfl, rfl⟩

end AlikeBut

variable {p p' : Packet} {ctx : Context} {tiles : TileStreams}

/-- The data of the packet at hand have no part in a run. -/
theorem serveAll_sameTiming (h : p.sameTiming p' = true) (slices : List SliceUnit)
    (requests : List Request) :
    (serveAll serve ⟨ctx, tiles, .ofSlices p slices⟩ requests).1 =
      (serveAll serve ⟨ctx, tiles, .ofSlices p' slices⟩ requests).1 := by
  have hserve : ∀ (s t : Splitter) (request request' : Request), s.Alike t → request = request' →
      (t.serve request').1 = (s.serve request).1 ∧
        (s.serve request).2.Alike (t.serve request').2 := by
    rintro s t request _ halike rfl
    exact serve_alike halike request
  exact (serveAll_alike hserve (alike_ofSlices h ctx tiles slices)
    (.refl (fun _ _ => rfl) _ requests)).1.symm

/-- As long as the slice has not been given out, both runs are at the same, and they are again behind
it. -/
theorem serveAll_alikeBut (ctx : Context) (htiming : p.sameTiming p' = true) (ht : tiles.Whole)
    {x : SliceUnit} (hoffset : x.dataOffset = x.front.length) (front back : List SliceUnit)
    (data data' : Bytes) (requests : List Request) :
    AlikeBut front.length (OtherEnd data data') requests
      (serveAll serve ⟨ctx, tiles, .ofSlices p (front ++ x.withData data :: back)⟩ requests).1
      (serveAll serve ⟨ctx, tiles, .ofSlices p' (front ++ x.withData data' :: back)⟩ requests).1 := by
  induction requests generalizing tiles front with
  | nil => exact .of_none rfl
  | cons request requests ih =>
    rw [serveAll_cons, serveAll_cons]
    cases request with
    | send packet =>
      -- slices are left
      have hbusy : ∀ (input : Packet) (y : SliceUnit),
          serve ⟨ctx, tiles, .ofSlices input (front ++ y :: back)⟩ (.send packet) =
            (.sent (.error .pendingOutput), ⟨ctx, tiles, .ofSlices input (front ++ y :: back)⟩) := by
        intro input y
        cases front <;> rfl
      rw [hbusy, hbusy]
      exact (ih ht front).cons rfl
    | flush =>
      have hdropped : ∀ (input : Packet) (slices : List SliceUnit),
          serve ⟨ctx, tiles, .ofSlices input slices⟩ .flush =
            (.flushed, ⟨ctx, tiles.reset, .idle⟩) := fun _ _ => rfl
      rw [hdropped, hdropped]
      exact .of_none rfl
    | receive =>
      cases front with
      | nil =>
        simp only [List.nil_append, serve, receive_ofSlices, derive_congr htiming,
          TileStreams.writeSlice_withData ht ctx hoffset data,
          TileStreams.writeSlice_withData ht ctx hoffset data', TileStreams.step_map]
        cases TileStreams.writeSlice .ample ctx (x.withData []) tiles with
        | error e tiles' => exact .of_none rfl
        | ok written tiles' =>
          dsimp only
          rw [serveAll_sameTiming htiming]
          exact .of_own ⟨{ p'.derive [] with tile := some written.1 }, written.2, rfl, rfl⟩
      | cons next front =>
        simp only [List.cons_append, serve, receive_ofSlices, derive_congr htiming]
        cases hwrite : TileStreams.writeSlice .ample ctx next tiles with
        | error e tiles' => exact .of_none rfl
        | ok written tiles' =>
          exact (ih (TileStreams.writeSlice_spec ht hwrite).whole front).cons rfl

/-- An access unit that could not be read is given back. -/
theorem serveAll_passThrough (p p' : Packet) (requests : List Request) :
    AlikeBut 0 (fun r r' => r = .received (.ok (some p)) ∧ r' = .received (.ok (some p'))) requests
      (serveAll serve ⟨ctx, tiles, .passThrough p⟩ requests).1
      (serveAll serve ⟨ctx, tiles, .passThrough p'⟩ requests).1 := by
  induction requests with
  | nil => exact .of_none rfl
  | cons request requests ih =>
    cases request with
    | send packet => exact ih.cons rfl
    | receive => exact .of_own ⟨rfl, rfl⟩
    | flush => exact .of_none rfl

theorem send_of_busy {s : Splitter} (h : s.phase ≠ .idle) (packet : Packet) :
    s.send packet = (.error .pendingOutput, s) := by
  have hsends := s.sends packet
  generalize s.send packet = result at hsends
  cases hsends with
  | busy => rfl
  | unread idle | refused idle | taken idle => exact absurd idle h

section Read

variable {s : Splitter} {packet : Packet} {au : AccessUnit} (hidle : s.phase = .idle)
  (hdecode : AccessUnit.decode s.ctx packet.data = .ok (au, ctx))
include hidle hdecode

theorem send_of_taken (h : TileStreams.distributeAll .ample au s.tiles = .ok () tiles) :
    s.send packet = (.ok (), ⟨ctx, tiles, .ofSlices packet au.slices⟩) := by
  simp only [send, hidle, hdecode, h]

theorem send_of_refused {e : EngineError}
    (h : TileStreams.distributeAll .ample au s.tiles = .error e tiles) :
    s.send packet = (.error e, ⟨ctx, tiles.reset, .idle⟩) := by
  simp only [send, hidle, hdecode, h]

end Read

/-- Slice data have no part in what is written. A header is read in the same way whatever is behind it.
So there are all other data that do not end in a zero byte for a slice that is sent, and with them a
splitter does what it does without the change: it takes or refuses the access unit, and then gives the
same replies to all requests, apart from the packet of the slice, in which the data are at the end. An
access unit that cannot be read is given back with the data that it has. -/
theorem other_slice_data :
    (∀ (ctx : Context) (unitType : UnitType) (previous : Option SliceHeader) (front data : Bytes)
      (header : SliceHeader),
      (SliceHeader.parse ctx unitType previous).decodeFront (front ++ data) =
        .ok (header, 8 * front.length) →
      ∀ data' : Bytes, (SliceHeader.parse ctx unitType previous).decodeFront (front ++ data') =
        .ok (header, 8 * front.length)) ∧
    ∀ (s : Splitter) (p : Packet) (before : List DecodedUnit) (x : SliceUnit), s.Reachable →
      SliceAt s.ctx p.data before x → ∀ data : Bytes,
        (data.getLast? ≠ some 0 → ∃ bytes, OtherData p.data before.length x data bytes) ∧
        ∀ p' : Packet, p.sameTiming p' = true → OtherData p.data before.length x data p'.data →
          (s.send p').1 = (s.send p).1 ∧
          ((s.send p).1 ≠ .ok () → (s.send p').2 = (s.send p).2) ∧
          ((s.send p).1 = .ok () → ∀ requests : List Request,
            (∀ result, AccessUnit.decode s.ctx p.data = .ok result →
              AlikeBut (AccessUnit.slices ⟨before⟩).length (OtherEnd x.data data) requests
                (serveAll serve (s.send p).2 requests).1
                (serveAll serve (s.send p').2 requests).1) ∧
            ∀ e, AccessUnit.decode s.ctx p.data = .error e →
              AlikeBut 0 (fun r r' => r = .received (.ok (some p)) ∧
                r' = .received (.ok (some p'))) requests
                (serveAll serve (s.send p).2 requests).1
                (serveAll serve (s.send p').2 requests).1) := by
  refine ⟨fun ctx unitType previous front data header h => ?_,
    fun s p before x hs hat data => ⟨AccessUnit.exists_otherData hat, fun p' htiming hother => ?_⟩⟩
  · exact (SliceHeader.closesByte_parse ctx unitType previous).isLocal.decodeFront h
  · obtain ⟨herror, hok⟩ := AccessUnit.decode_otherData hat hother
    by_cases hidle : s.phase = .idle
    · cases hdecode : AccessUnit.decode s.ctx p.data with
      | error e =>
        rw [send_unreadable hidle ⟨e, hdecode⟩, send_unreadable hidle ⟨e, herror e hdecode⟩]
        exact ⟨rfl, fun h => absurd rfl h, fun _ requests =>
          ⟨fun _ h => (by cases h), fun _ _ => serveAll_passThrough p p' requests⟩⟩
      | ok result =>
        obtain ⟨au, ctx⟩ := result
        obtain ⟨back, rfl, hdecode'⟩ := hok au ctx hdecode
        have hslices : ∀ y, AccessUnit.slices ⟨before ++ .slice y :: back⟩ =
            AccessUnit.slices ⟨before⟩ ++ y :: AccessUnit.slices ⟨back⟩ := by
          intro y
          simp only [AccessUnit.slices, List.filterMap_append, List.filterMap_cons,
            DecodedUnit.slice?]
        have hsame := TileStreams.distributeAll_slice .ample before back x (x.withData data)
        cases hdistribute : TileStreams.distributeAll .ample ⟨before ++ .slice x :: back⟩ s.tiles with
        | error e tiles =>
          rw [send_of_refused hidle hdecode hdistribute,
            send_of_refused hidle hdecode' (hsame ▸ hdistribute)]
          exact ⟨rfl, fun _ => rfl, fun h => by cases h⟩
        | ok _ tiles =>
          have hwhole := (hs.sound.tiles.distributeAll hdistribute).whole
          rw [send_of_taken hidle hdecode hdistribute,
            send_of_taken hidle hdecode' (hsame ▸ hdistribute), hslices, hslices]
          refine ⟨rfl, fun h => absurd rfl h, fun _ requests => ⟨fun _ _ => ?_, fun _ h => by cases h⟩⟩
          have hrun := serveAll_alikeBut ctx htiming hwhole hat.dataOffset
            (AccessUnit.slices ⟨before⟩) (AccessUnit.slices ⟨back⟩) x.data data requests
          rwa [x.withData_data] at hrun
    · rw [send_of_busy hidle, send_of_busy hidle]
      exact ⟨rfl, fun _ => rfl, fun h => by cases h⟩

end Splitter

deriving instance DecidableEq for DecoderState

namespace Sample

/-- The parameter sets of the picture. -/
def setUnits : List DecodedUnit := accessUnit.units.take 3

/-- Slice data with a start code in them. -/
def otherBytes : Bytes := [5, 0, 0, 1]

/-- The unit of the first slice with these data. -/
def otherUnit : Bytes :=
  nalBytes firstSlice.nalHeader.unitType firstSlice.nalHeader.temporalId.val
    (firstSlice.front ++ otherBytes)

/-- The picture with these data in its first slice. -/
def otherPicture : Packet :=
  { data := ByteStream.framedAll ((ByteStream.nals picture).set 3 otherUnit) }

/-- Requests that end before all slices have been given out. -/
def fewRequests : List Splitter.Request := [.send { data := picture }, .receive, .flush, .receive]

theorem sliceAt_firstSlice : SliceAt .empty picture setUnits firstSlice where
  startCode := by decide
  read := ⟨(ByteStream.nals picture).take 3, ((ByteStream.nals picture).drop 3).headD [],
    (ByteStream.nals picture).drop 4, ⟨Sample.ctx, none⟩, by decide +kernel, by decide +kernel,
    by decide +kernel⟩

theorem otherData_otherPicture :
    OtherData picture setUnits.length firstSlice otherBytes otherPicture.data where
  startCode := by decide +kernel
  units := ⟨otherUnit, ⟨by decide +kernel, by decide +kernel⟩, by decide +kernel⟩

end Sample

namespace Splitter

open Sample in
theorem other_slice_data_sample :
    ((SliceHeader.parse Sample.ctx firstSlice.nalHeader.unitType none).decodeFront
        (firstSlice.front ++ firstSlice.data) =
          .ok (firstSlice.header, 8 * firstSlice.front.length) ∧
      (SliceHeader.parse Sample.ctx firstSlice.nalHeader.unitType none).decodeFront
        (firstSlice.front ++ otherBytes) = .ok (firstSlice.header, 8 * firstSlice.front.length)) ∧
    Splitter.empty.Reachable ∧ SliceAt .empty picture setUnits firstSlice ∧
    OtherData picture setUnits.length firstSlice otherBytes otherPicture.data ∧
    (Splitter.empty.send { data := picture }).1 = .ok () ∧
    AccessUnit.decode .empty picture = .ok (accessUnit, Sample.ctx) ∧
    packetAt 0 (fewRequests.zip
      (serveAll serve (Splitter.empty.send { data := picture }).2 fewRequests).1) = some 1 ∧
    ∃ reply reply', OtherEnd firstSlice.data otherBytes reply reply' ∧
      (serveAll serve (Splitter.empty.send { data := picture }).2 fewRequests).1[1]? = some reply ∧
      (serveAll serve (Splitter.empty.send otherPicture).2 fewRequests).1 =
        (serveAll serve (Splitter.empty.send { data := picture }).2 fewRequests).1.set 1 reply' := by
  have hheader : (SliceHeader.parse Sample.ctx firstSlice.nalHeader.unitType none).decodeFront
      (firstSlice.front ++ firstSlice.data) =
        .ok (firstSlice.header, 8 * firstSlice.front.length) := by decide +kernel
  have hsend : (Splitter.empty.send { data := picture }).1 = .ok () := by decide +kernel
  have hdecode : AccessUnit.decode .empty picture = .ok (accessUnit, Sample.ctx) := by
    decide +kernel
  have hplace : packetAt 0 (fewRequests.zip
      (serveAll serve (Splitter.empty.send { data := picture }).2 fewRequests).1) = some 1 := by
    decide +kernel
  have hnone : (AccessUnit.slices ⟨setUnits⟩).length = 0 := by decide +kernel
  obtain ⟨hheaders, hruns⟩ := other_slice_data
  obtain ⟨-, hother⟩ := hruns .empty { data := picture } setUnits firstSlice .empty
    sliceAt_firstSlice otherBytes
  obtain ⟨-, -, hrun⟩ := hother otherPicture (by decide) otherData_otherPicture
  obtain ⟨hread, -⟩ := hrun hsend fewRequests
  have halike := hread _ hdecode
  rw [hnone] at halike
  exact ⟨⟨hheader, hheaders Sample.ctx _ none _ _ _ hheader otherBytes⟩, .empty,
    sliceAt_firstSlice, otherData_otherPicture, hsend, hdecode, hplace, halike.own 1 hplace⟩

end Splitter

end TiledVideo
