import TiledVideo.Proofs.Engine.Room
import TiledVideo.Proofs.Engine.SetsInForce

/-!
# Sending access units and receiving packets

A splitter that has taken an access unit owes a packet for each of its slices, and takes no other one
until it has given them all out. The slices are given out in their order, and each packet is for the
tile that its slice is in.

Results:

* `tileCount_serveAll_serveIn`: the number of tiles stays as it is once it is known, whatever there is
  room for.
* `phase_serveAll`: which slices are left after any requests.
* `owes_after_send`: what a splitter answers after it has taken an access unit.
-/

namespace TiledVideo.Splitter

variable {s : Splitter} {input : Packet}

/-! ## The number of tiles -/

theorem tileCount_serveIn {n : Nat} (hn : n ≠ 0) (call : Request × Memory) (s : Splitter)
    (h : s.tileCount = n) : (s.serveIn call).2.tileCount = n := by
  obtain ⟨request, memory⟩ := call
  cases request with
  | send packet =>
    show (s.send packet memory).2.tileCount = n
    have hsends := s.sends packet memory
    generalize s.send packet memory = result at hsends
    cases hsends with
    | busy => exact h
    | unread => exact h
    | @refused _ au _ _ tiles decode distribute =>
      have hkeeps := TileStreams.keeps_distributeAll (TileStreams.stable_count hn) memory au
      exact tiles.length_reset.trans (hkeeps.of_error h distribute).2
    | @taken _ au _ _ decode distribute =>
      have hkeeps := TileStreams.keeps_distributeAll (TileStreams.stable_count hn) memory au
      exact hkeeps.of_ok h distribute
  | receive =>
    show (s.receive memory).2.tileCount = n
    have hreceives := s.receives memory
    generalize s.receive memory = result at hreceives
    cases hreceives with
    | nothing => exact h
    | back => exact h
    | @failed _ next _ _ tiles phase write =>
      have hkeeps := TileStreams.keeps_writeSlice (TileStreams.stable_count hn) memory s.ctx next
      exact tiles.length_reset.trans (hkeeps.of_error h write).2
    | @given _ next _ _ _ _ phase write =>
      have hkeeps := TileStreams.keeps_writeSlice (TileStreams.stable_count hn) memory s.ctx next
      exact hkeeps.of_ok h write
  | flush => exact s.tiles.length_reset.trans h

/-- The number of tiles stays as it is once it is known, whatever there is room for. -/
theorem tileCount_serveAll_serveIn (h : s.tileCount ≠ 0) (calls : List (Request × Memory)) :
    (serveAll serveIn s calls).2.tileCount = s.tileCount :=
  serveAll_keeps (P := fun s' : Splitter => s'.tileCount = s.tileCount)
    (fun call _ => tileCount_serveIn h call) rfl

theorem tileCount_serveAll (h : s.tileCount ≠ 0) (requests : List Request) :
    (serveAll serve s requests).2.tileCount = s.tileCount := by
  refine serveAll_keeps (P := fun s' : Splitter => s'.tileCount = s.tileCount)
    (fun request _ s' hs' => ?_) rfl
  rw [← serveIn_ample]
  exact tileCount_serveIn h (request, .ample) s' hs'

/-! ## Slices that are left -/

theorem send_of_distributing {next : SliceUnit} {later : List SliceUnit}
    (h : s.phase = .distributing input next later) (packet : Packet) :
    s.send packet = (.error .pendingOutput, s) := by
  simp only [send, h]

/-- A splitter that waits for an access unit does not refuse it for packets to be received. -/
theorem send_of_idle (h : s.phase = .idle) (packet : Packet) :
    (s.send packet).1 ≠ .error .pendingOutput := by
  intro hsend
  have hsends := s.sends packet
  generalize s.send packet = result at hsend hsends
  cases hsends with
  | busy busy => exact busy h
  | unread => cases hsend
  | @refused _ au _ _ _ decode distribute =>
    have hkeeps := TileStreams.keeps_distributeAll (P := fun _ => True)
      ⟨fun _ _ => trivial, fun _ _ => trivial⟩ .ample au
    exact (hkeeps.of_error trivial distribute).1 (Except.error.inj hsend)
  | taken => cases hsend

/-- Requests behind an access unit of `n` slices: no flush, no packet that fails, and another access
unit is sent only as long as not all packets have been received. -/
structure Uninterrupted (s : Splitter) (n : Nat) (requests : List Request) : Prop where
  noFlush : .flush ∉ requests
  noFailure : ∀ e, .received (.error e) ∉ (serveAll serve s requests).1
  early : ∀ front packet later, requests = front ++ .send packet :: later → front.count .receive < n

/-- The slices that are left are those that have not been received. -/
theorem phase_serveAll {slices : List SliceUnit} (h : s.phase = .ofSlices input slices)
    {requests : List Request} (hrequests : s.Uninterrupted slices.length requests) :
    (serveAll serve s requests).2.phase =
        .ofSlices input (slices.drop (requests.count .receive)) ∧
      (serveAll serve s requests).2.ctx = s.ctx := by
  induction requests generalizing s slices with
  | nil => exact ⟨h, rfl⟩
  | cons request later ih =>
    obtain ⟨hflush, hfailure, hearly⟩ := hrequests
    rw [serveAll_cons] at hfailure ⊢
    have hflush' : .flush ∉ later := fun hin => hflush (List.mem_cons_of_mem _ hin)
    have hfailure' : ∀ e, .received (.error e) ∉ (serveAll serve (s.serve request).2 later).1 :=
      fun e hin => hfailure e (List.mem_cons_of_mem _ hin)
    cases request with
    | send packet =>
      -- slices are left, so nothing changes
      have hlen : 0 < slices.length := by simpa using hearly [] packet later rfl
      obtain ⟨next, rest, rfl⟩ := List.exists_cons_of_length_pos hlen
      have hsame : (s.serve (.send packet)).2 = s := by
        simp only [serve, send_of_distributing h]
      have hother : Request.send packet ≠ .receive := by simp
      rw [hsame] at hfailure' ⊢
      rw [List.count_cons_of_ne hother]
      refine ih h ⟨hflush', hfailure', fun front other rest' hlater => ?_⟩
      have hfront := hearly (.send packet :: front) other rest' (by rw [hlater]; rfl)
      rwa [List.count_cons_of_ne hother] at hfront
    | receive =>
      obtain ⟨result, hresult⟩ : ∃ result, s.receive.1 = .ok result := by
        cases hreceive : s.receive.1 with
        | ok result => exact ⟨result, rfl⟩
        | error e =>
          refine absurd ?_ (hfailure e)
          rw [← hreceive]
          exact List.mem_cons_self
      obtain ⟨hphase, hctx⟩ := phase_receive_of_ok h hresult
      have hnext := ih hphase ⟨hflush', hfailure', fun front other rest' hlater => ?_⟩
      · rw [List.drop_drop, Nat.add_comm] at hnext
        rw [List.count_cons_self]
        exact ⟨hnext.1, hnext.2.trans hctx⟩
      · have hfront := hearly (.receive :: front) other rest' (by rw [hlater]; rfl)
        rw [List.count_cons_self] at hfront
        rw [List.length_drop]
        omega
    | flush => exact absurd List.mem_cons_self hflush

/-! ## Packets that are owed -/

/-- The packet is that of a slice of an access unit: it has the timing and the flags of the access
unit and ends in the slice, and it is for the tile that the slice is in by the layout of its parameter
sets. -/
structure GivenFor (packet input : Packet) (ctx : Context) (segment : SliceUnit) (tile : Nat) :
    Prop where
  ofTile : packet.tile = some tile
  timing : packet.pts = input.pts ∧ packet.dts = input.dts ∧ packet.flags = input.flags
  slice : ∃ sps pps layout width height,
    ctx.paramSets segment.header.ppsId = some (sps, pps) ∧
    TileLayout.ofParamSets sps pps = .ok layout ∧
    layout.tileIndex segment.header.address = some tile ∧
    layout.tileSize tile = some (width, height) ∧
    EndsInWritten packet.data segment sps pps { width, height, tiles := .remove, x := 0, y := 0 }

/-- What a splitter answers when some slices of an access unit are left: it gives out the next one and
refuses other access units. If none are left, it has nothing to give out and refuses none. -/
structure Owes (s : Splitter) (input : Packet) (ctx : Context) (slices : List SliceUnit) : Prop where
  refuse : slices ≠ [] → ∀ packet, s.send packet = (.error .pendingOutput, s)
  give : ∀ next ∈ slices.head?, ∀ result, s.receive.1 = .ok result →
    ∃ packet tile, result = some packet ∧ GivenFor packet input ctx next tile ∧
      ∀ requests, tile < (serveAll serve s.receive.2 requests).2.tileCount
  finished : slices = [] → s.receive = (.ok none, s)
  accept : slices = [] → ∀ packet, (s.send packet).1 ≠ .error .pendingOutput

/-- A slice that can be written is given out in a packet for its tile. -/
theorem Reachable.givenFor (hs : s.Reachable) (input : Packet) {next : SliceUnit} {tile : Nat}
    {data : Bytes} {tiles : TileStreams}
    (hwrite : TileStreams.writeSlice .ample s.ctx next s.tiles = .ok (tile, data) tiles) :
    GivenFor { input.derive data with tile := some tile } input s.ctx next tile ∧
      tile < tiles.streams.length := by
  have hgives := TileStreams.writeSlice_spec hs.sound.tiles.whole hwrite
  obtain ⟨d, own, hd, htile, hown, hdata⟩ := hgives.data
  obtain ⟨stream, hstream, rfl⟩ := map_eq_ok_iff.1 hown
  have hstream := mapError_eq_ok_iff.1 hstream
  obtain ⟨hpps, hsps, layout, width, height, hlayout, hindex, hsize, htarget⟩ :=
    TileStreams.destination_eq_ok_iff.1 hd
  have hsets := Context.paramSets_eq_some_iff.2 ⟨hpps, hsps⟩
  rw [htarget] at hstream
  rw [htile] at hindex hsize
  have hends : EndsInWritten data next d.sps d.pps
      { width, height, tiles := .remove, x := 0, y := 0 } := by
    refine ⟨stream, hstream, ?_⟩
    rw [hdata]
    exact List.suffix_append _ _
  exact ⟨⟨rfl, ⟨rfl, rfl, rfl⟩, d.sps, d.pps, layout, width, height, hsets, hlayout, hindex, hsize,
    hends⟩, hgives.stream⟩

theorem Reachable.owes (hs : s.Reachable) {slices : List SliceUnit}
    (h : s.phase = .ofSlices input slices) : s.Owes input s.ctx slices := by
  cases slices with
  | nil =>
    refine ⟨fun hne => absurd rfl hne, ?_, fun _ => ?_, fun _ => send_of_idle h⟩
    · intro next hnext
      cases hnext
    · unfold Splitter.receive
      rw [h]
      rfl
  | cons next later =>
    have hne : next :: later ≠ [] := List.cons_ne_nil next later
    refine ⟨fun _ => send_of_distributing h, ?_, fun hnil => absurd hnil hne,
      fun hnil => absurd hnil hne⟩
    intro first hfirst result hresult
    obtain rfl := Option.some.inj hfirst
    have hphase : s.phase = .distributing input next later := h
    cases hwrite : TileStreams.writeSlice .ample s.ctx next s.tiles with
    | error e tiles =>
      simp only [Splitter.receive, hphase, hwrite] at hresult
      cases hresult
    | ok written tiles =>
      obtain ⟨tile, data⟩ := written
      have hreceive : s.receive = (.ok (some { input.derive data with tile := some tile }),
          { s with tiles, phase := .ofSlices input later }) := by
        simp only [Splitter.receive, hphase, hwrite]
      rw [hreceive] at hresult
      obtain rfl := Except.ok.inj hresult
      obtain ⟨hgiven, hlt⟩ := hs.givenFor input hwrite
      refine ⟨_, tile, rfl, hgiven, fun requests => ?_⟩
      have hcount : s.receive.2.tileCount = tiles.streams.length := by
        rw [hreceive]
        rfl
      rw [tileCount_serveAll (by omega), hcount]
      exact hlt

theorem Reachable.serve (hs : s.Reachable) (request : Request) : (s.serve request).2.Reachable := by
  cases request with
  | send packet => exact hs.send packet
  | receive => exact hs.receive
  | flush => exact hs.flush

/-- After a splitter has taken an access unit, it owes a packet for each of its slices. As long as
none fails and there is no flush, each `receive` gives the packet of the next slice, and other access
units are refused. When the packets of all slices have been received, `receive` gives none, and the
next access unit is not refused. The number of tiles stays as it is once it is known.

The parameter sets of a slice are those in force behind the access unit with the numbers that it
refers to. It was read with the same ones, unless others behind it took their place. -/
theorem owes_after_send (hs : s.Reachable) :
    (∀ requests, s.tileCount ≠ 0 → (serveAll Splitter.serve s requests).2.tileCount = s.tileCount) ∧
    ∀ (input : Packet) (au : AccessUnit) (ctx : Context),
      AccessUnit.decode s.ctx input.data = .ok (au, ctx) → (s.send input).1 = .ok () →
      ∀ requests, (s.send input).2.Uninterrupted au.slices.length requests →
        (serveAll Splitter.serve (s.send input).2 requests).2.Owes input ctx
          (au.slices.drop (requests.count .receive)) := by
  refine ⟨fun requests h => tileCount_serveAll h requests, ?_⟩
  intro input au ctx hdecode hsend requests hrequests
  obtain ⟨hphase, hctx⟩ := phase_send_of_ok hdecode hsend
  obtain ⟨hlast, hlastCtx⟩ := phase_serveAll hphase hrequests
  have hreachable : (serveAll Splitter.serve (s.send input).2 requests).2.Reachable :=
    serveAll_keeps (fun request _ _ h => h.serve request) (hs.send input)
  have howes := hreachable.owes hlast
  rwa [hlastCtx, hctx] at howes

deriving instance DecidableEq for Reply

/-- An access unit that is sent too early, and the packet of the first slice. -/
def sampleRequests : List Request :=
  [.send { data := Sample.picture }, .receive]

open Sample in
theorem owes_after_send_sample :
    Reachable .empty ∧
      AccessUnit.decode Splitter.empty.ctx picture = .ok (accessUnit, Sample.ctx) ∧
      (Splitter.empty.send { data := picture }).1 = .ok () ∧
      splitter.Uninterrupted accessUnit.slices.length sampleRequests ∧
      (serveAll serve splitter sampleRequests).2.Owes { data := picture } Sample.ctx
        (accessUnit.slices.drop (sampleRequests.count .receive)) := by
  have hdecode : AccessUnit.decode .empty picture = .ok (accessUnit, Sample.ctx) := by
    decide +kernel
  have hsend : (Splitter.empty.send { data := picture }).1 = .ok () := by decide +kernel
  have hreplies : (serveAll serve splitter sampleRequests).1 =
      [.sent (.error .pendingOutput), .received (.ok (some firstPacket))] := by
    decide +kernel
  have hlen : accessUnit.slices.length = 2 := by decide +kernel
  have hrequests : splitter.Uninterrupted accessUnit.slices.length sampleRequests := by
    refine ⟨by decide, fun e => ?_, fun front packet later h => ?_⟩
    · rw [hreplies]
      simp
    · rw [hlen]
      match front, h with
      | [], _ => decide
      | [_], h => simp [sampleRequests] at h
      | _ :: _ :: _, h => simp [sampleRequests] at h
  exact ⟨.empty, hdecode, hsend, hrequests,
    (owes_after_send .empty).2 { data := picture } accessUnit Sample.ctx hdecode hsend
      sampleRequests hrequests⟩

end TiledVideo.Splitter
