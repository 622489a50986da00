import TiledVideo.Engine.Placer
import TiledVideo.Engine.Splitter

/-!
# Runs of requests

An engine answers one request after the other, also those that it refuses. What every request keeps is
kept by all of them. Requests that leave an engine as it was can be put in anywhere: all others are
answered as they would be without them.

Results:

* `serveAll_keeps`: what is true of an engine after any requests.
* `serveAll_eq_of_each`: calls that are answered like requests, one by one.
* `serveParts_eq`: requests that are put in between others and leave no trace.
* `serveAll_alike`: requests that are altered, but not in what is done with them.
* `Splitter.sends`, `Splitter.receives`, `Placer.filters`: all ways in which a request can go.
-/

namespace TiledVideo

section Serve

variable {σ ρ α : Type}

/-- Answers requests one after the other. Gives the replies and what the engine is at then. -/
def serveAll (serve : σ → ρ → α × σ) (s : σ) : List ρ → List α × σ
  | [] => ([], s)
  | request :: later =>
    let (reply, s) := serve s request
    let (replies, s) := serveAll serve s later
    (reply :: replies, s)

variable {serve : σ → ρ → α × σ} {s : σ}

theorem serveAll_cons (request : ρ) (later : List ρ) :
    serveAll serve s (request :: later) =
      ((serve s request).1 :: (serveAll serve (serve s request).2 later).1,
        (serveAll serve (serve s request).2 later).2) :=
  rfl

/-- What each of some requests keeps is kept by all of them. -/
theorem serveAll_keeps {P : σ → Prop} {requests : List ρ}
    (hserve : ∀ request ∈ requests, ∀ s, P s → P (serve s request).2) (hs : P s) :
    P (serveAll serve s requests).2 := by
  induction requests generalizing s with
  | nil => exact hs
  | cons request later ih =>
    exact ih (fun r hr => hserve r (List.mem_cons_of_mem _ hr))
      (hserve request List.mem_cons_self s hs)

/-- If each call of a run is answered like a request, or else there is something about its reply that is
true of no reply, then the run is answered like the requests. -/
theorem serveAll_eq_of_each {κ : Type} {answer : σ → κ → α × σ} {request : κ → ρ}
    {exceptional : α → Prop}
    (heach : ∀ s call, answer s call = serve s (request call) ∨ exceptional (answer s call).1)
    {calls : List κ} (h : ∀ reply ∈ (serveAll answer s calls).1, ¬ exceptional reply) :
    serveAll answer s calls = serveAll serve s (calls.map request) := by
  induction calls generalizing s with
  | nil => rfl
  | cons call later ih =>
    rw [serveAll_cons] at h
    have hcall := (heach s call).resolve_right (h _ List.mem_cons_self)
    have hlater := ih fun reply hreply => h reply (List.mem_cons_of_mem _ hreply)
    rw [List.map_cons, serveAll_cons, serveAll_cons, hlater, hcall]

/-! ## Requests that are put in -/

/-- A request, or some that are put in between others. -/
inductive RunPart (ρ : Type) where
  | own (request : ρ)
  | inserted (requests : List ρ)

/-- The requests without those that are put in. -/
def ownRequests (parts : List (RunPart ρ)) : List ρ :=
  parts.filterMap fun
    | .own request => some request
    | .inserted _ => none

/-- Answers all requests, also those that are put in. Gives the replies to the others, and what the
engine is at then. -/
def serveParts (serve : σ → ρ → α × σ) (s : σ) : List (RunPart ρ) → List α × σ
  | [] => ([], s)
  | .own request :: later =>
    let (reply, s) := serve s request
    let (replies, s) := serveParts serve s later
    (reply :: replies, s)
  | .inserted requests :: later => serveParts serve (serveAll serve s requests).2 later

/-- All requests that are put in fit what the engine is at when they come. -/
def AllFit (serve : σ → ρ → α × σ) (fits : σ → List ρ → Prop) (s : σ) : List (RunPart ρ) → Prop
  | [] => True
  | .own request :: later => AllFit serve fits (serve s request).2 later
  | .inserted requests :: later =>
    fits s requests ∧ AllFit serve fits (serveAll serve s requests).2 later

instance AllFit.decidable {fits : σ → List ρ → Prop} [∀ s requests, Decidable (fits s requests)] :
    ∀ s parts, Decidable (AllFit serve fits s parts)
  | _, [] => .isTrue trivial
  | s, .own request :: later => AllFit.decidable (serve s request).2 later
  | s, .inserted requests :: later =>
    have : Decidable (AllFit serve fits (serveAll serve s requests).2 later) :=
      AllFit.decidable _ later
    inferInstanceAs (Decidable (fits s requests ∧ _))

/-- If what is put in leaves the engine as it was, then all other requests are answered as without it,
and the engine is at the same in the end. -/
theorem serveParts_eq {fits : σ → List ρ → Prop}
    (hfits : ∀ s requests, fits s requests → (serveAll serve s requests).2 = s)
    {parts : List (RunPart ρ)} (h : AllFit serve fits s parts) :
    serveParts serve s parts = serveAll serve s (ownRequests parts) := by
  induction parts generalizing s with
  | nil => rfl
  | cons part later ih =>
    cases part with
    | own request =>
      show ((serve s request).1 :: (serveParts serve (serve s request).2 later).1, _) =
        serveAll serve s (request :: ownRequests later)
      rw [serveAll_cons, ih h]
    | inserted requests =>
      obtain ⟨hrequests, h⟩ := h
      rw [hfits s requests hrequests] at h
      show serveParts serve (serveAll serve s requests).2 later =
        serveAll serve s (ownRequests later)
      rw [hfits s requests hrequests, ih h]

/-! ## Requests that are altered -/

/-- The second requests are the first ones, each of them altered in a way that goes with what the engine
is at when the first one comes. -/
inductive Altered (serve : σ → ρ → α × σ) (alters : σ → ρ → ρ → Prop) : σ → List ρ → List ρ → Prop
    where
  | nil (s : σ) : Altered serve alters s [] []
  | cons {s : σ} {request request' : ρ} {later later' : List ρ}
    (request_alters : alters s request request')
    (later_altered : Altered serve alters (serve s request).2 later later') :
    Altered serve alters s (request :: later) (request' :: later')

theorem Altered.refl {alters : σ → ρ → ρ → Prop} (halters : ∀ s request, alters s request request)
    (s : σ) (requests : List ρ) : Altered serve alters s requests requests := by
  induction requests generalizing s with
  | nil => exact .nil s
  | cons request later ih => exact .cons (halters s request) (ih _)

/-- If engines that are alike give the same reply to a request and its altered form and are alike behind
it, then they give the same replies to all requests. -/
theorem serveAll_alike {alike : σ → σ → Prop} {alters : σ → ρ → ρ → Prop}
    (hserve : ∀ (s t : σ) (request request' : ρ), alike s t → alters s request request' →
      (serve t request').1 = (serve s request).1 ∧ alike (serve s request).2 (serve t request').2)
    {t : σ} {requests requests' : List ρ} (hst : alike s t)
    (h : Altered serve alters s requests requests') :
    (serveAll serve t requests').1 = (serveAll serve s requests).1 ∧
      alike (serveAll serve s requests).2 (serveAll serve t requests').2 := by
  induction h generalizing t with
  | nil s => exact ⟨rfl, hst⟩
  | cons request_alters _ ih =>
    obtain ⟨hreply, hnext⟩ := hserve _ _ _ _ hst request_alters
    obtain ⟨hreplies, hlast⟩ := ih hnext
    rw [serveAll_cons, serveAll_cons, hreply, hreplies]
    exact ⟨rfl, hlast⟩

end Serve

/-! ## The requests of the engines -/

namespace Splitter

/-- What a splitter can be asked for. -/
inductive Request where
  | send (packet : Packet)
  | receive
  | flush
  deriving DecidableEq, Repr

/-- What a splitter answers. -/
inductive Reply where
  | sent (result : Except EngineError Unit)
  | received (result : Except EngineError (Option Packet))
  | flushed

/-- Answers a request. -/
def serve (s : Splitter) : Request → Reply × Splitter
  | .send packet => (.sent (s.send packet).1, (s.send packet).2)
  | .receive => (.received s.receive.1, s.receive.2)
  | .flush => (.flushed, s.flush)

/-- How it can go when an access unit is sent. -/
inductive Sends (memory : Memory) (s : Splitter) (packet : Packet) :
    Except EngineError Unit × Splitter → Prop where
  /-- Packets are still to be received. -/
  | busy (busy : s.phase ≠ .idle) : Sends memory s packet (.error .pendingOutput, s)
  /-- It cannot be read, and is taken to be given back. -/
  | unread (idle : s.phase = .idle) {e : UnitError}
    (decode : AccessUnit.decode s.ctx packet.data = .error e) :
    Sends memory s packet (.ok (), { s with phase := .passThrough packet })
  /-- It is read, but its parameter sets cannot be distributed. -/
  | refused (idle : s.phase = .idle) {au : AccessUnit} {ctx : Context} {e : EngineError}
    {tiles : TileStreams} (decode : AccessUnit.decode s.ctx packet.data = .ok (au, ctx))
    (distribute : TileStreams.distributeAll memory au s.tiles = .error e tiles) :
    Sends memory s packet (.error e, ⟨ctx, tiles.reset, .idle⟩)
  /-- It is taken, and its slices are to be given out. -/
  | taken (idle : s.phase = .idle) {au : AccessUnit} {ctx : Context} {tiles : TileStreams}
    (decode : AccessUnit.decode s.ctx packet.data = .ok (au, ctx))
    (distribute : TileStreams.distributeAll memory au s.tiles = .ok () tiles) :
    Sends memory s packet (.ok (), ⟨ctx, tiles, .ofSlices packet au.slices⟩)

theorem sends (s : Splitter) (packet : Packet) (memory : Memory := .ample) :
    Sends memory s packet (s.send packet memory) := by
  obtain ⟨ctx, tiles, phase⟩ := s
  cases phase with
  | passThrough input => exact .busy nofun
  | distributing input next later => exact .busy nofun
  | idle =>
    cases hdecode : AccessUnit.decode ctx packet.data with
    | error e =>
      simp only [send, hdecode]
      exact .unread rfl hdecode
    | ok result =>
      obtain ⟨au, ctx'⟩ := result
      cases hdistribute : TileStreams.distributeAll memory au tiles with
      | error e tiles' =>
        simp only [send, hdecode, hdistribute]
        exact .refused rfl hdecode hdistribute
      | ok _ tiles' =>
        simp only [send, hdecode, hdistribute]
        exact .taken rfl hdecode hdistribute

/-- How it can go when a packet is to be received. -/
inductive Receives (memory : Memory) (s : Splitter) :
    Except EngineError (Option Packet) × Splitter → Prop where
  /-- There is none. -/
  | nothing (idle : s.phase = .idle) : Receives memory s (.ok none, s)
  /-- An access unit that could not be read is given back. -/
  | back {packet : Packet} (phase : s.phase = .passThrough packet) :
    Receives memory s (.ok (some packet), { s with phase := .idle })
  /-- The next slice cannot be written. -/
  | failed {input : Packet} {next : SliceUnit} {later : List SliceUnit} {e : EngineError}
    {tiles : TileStreams} (phase : s.phase = .distributing input next later)
    (write : TileStreams.writeSlice memory s.ctx next s.tiles = .error e tiles) :
    Receives memory s (.error e, { s with tiles := tiles.reset, phase := .idle })
  /-- The next slice is given out. -/
  | given {input : Packet} {next : SliceUnit} {later : List SliceUnit} {tile : Nat} {data : Bytes}
    {tiles : TileStreams} (phase : s.phase = .distributing input next later)
    (write : TileStreams.writeSlice memory s.ctx next s.tiles = .ok (tile, data) tiles) :
    Receives memory s (.ok (some { input.derive data with tile := some tile }),
      { s with tiles, phase := .ofSlices input later })

theorem receives (s : Splitter) (memory : Memory := .ample) :
    Receives memory s (s.receive memory) := by
  obtain ⟨ctx, tiles, phase⟩ := s
  cases phase with
  | idle => exact .nothing rfl
  | passThrough packet => exact .back rfl
  | distributing input next later =>
    cases hwrite : TileStreams.writeSlice memory ctx next tiles with
    | error e tiles' =>
      simp only [receive, hwrite]
      exact .failed rfl hwrite
    | ok written tiles' =>
      simp only [receive, hwrite]
      exact .given rfl hwrite

end Splitter

namespace Placer

/-- What a placer can be asked for. -/
inductive Request where
  | filter (packet : Packet)
  | flush
  deriving DecidableEq, Repr

/-- What a placer answers. -/
inductive Reply where
  | filtered (result : Except EngineError (Option Packet))
  | flushed

/-- Answers a request. -/
def serve (s : Placer) : Request → Reply × Placer
  | .filter packet => (.filtered (s.filter packet).1, (s.filter packet).2)
  | .flush => (.flushed, s.flush)

/-- How it can go when an access unit is to be placed. -/
inductive Filters (memory : Memory) (s : Placer) (packet : Packet) :
    Except EngineError (Option Packet) × Placer → Prop where
  /-- It cannot be read, and is given back. -/
  | unread {e : UnitError} (decode : AccessUnit.decode s.ctx packet.data = .error e) :
    Filters memory s packet (.ok (some packet), s)
  /-- It is read, but cannot be placed. -/
  | failed {au : AccessUnit} {ctx : Context} {e : EngineError}
    (decode : AccessUnit.decode s.ctx packet.data = .ok (au, ctx))
    (place : place s.placement ctx s.stream au = .error e) :
    Filters memory s packet (.error e, { s with ctx, stream := .empty })
  /-- It has no slice, and what it brings waits. -/
  | waits {au : AccessUnit} {ctx : Context} {stream : BitStream}
    (decode : AccessUnit.decode s.ctx packet.data = .ok (au, ctx))
    (place : place s.placement ctx s.stream au = .ok (stream, false)) :
    Filters memory s packet (.ok none, { s with ctx, stream })
  /-- It is placed, but no packet can be made of it. -/
  | kept {au : AccessUnit} {ctx : Context} {stream : BitStream} {e : EngineError}
    (decode : AccessUnit.decode s.ctx packet.data = .ok (au, ctx))
    (place : place s.placement ctx s.stream au = .ok (stream, true))
    (noData : stream.packetData memory = .error e) :
    Filters memory s packet (.error e, { s with ctx, stream })
  /-- It is placed and given out. -/
  | placed {au : AccessUnit} {ctx : Context} {stream : BitStream} {data : Bytes}
    (decode : AccessUnit.decode s.ctx packet.data = .ok (au, ctx))
    (place : place s.placement ctx s.stream au = .ok (stream, true))
    (packetData : stream.packetData memory = .ok data) :
    Filters memory s packet (.ok (some (packet.derive data)), { s with ctx, stream := .empty })

theorem filters (s : Placer) (packet : Packet) (memory : Memory := .ample) :
    Filters memory s packet (s.filter packet memory) := by
  cases hdecode : AccessUnit.decode s.ctx packet.data with
  | error e =>
    simp only [filter, hdecode]
    exact .unread hdecode
  | ok result =>
    obtain ⟨au, ctx⟩ := result
    cases hplace : place s.placement ctx s.stream au with
    | error e =>
      simp only [filter, hdecode, hplace, BitStream.reset_eq]
      exact .failed hdecode hplace
    | ok placed =>
      obtain ⟨stream, hasSlice⟩ := placed
      cases hasSlice with
      | false =>
        simp only [filter, hdecode, hplace]
        exact .waits hdecode hplace
      | true =>
        cases hdata : stream.packetData memory with
        | error e =>
          simp only [filter, hdecode, hplace, hdata]
          exact .kept hdecode hplace hdata
        | ok data =>
          simp only [filter, hdecode, hplace, hdata, BitStream.reset_eq]
          exact .placed hdecode hplace hdata

end Placer

end TiledVideo
