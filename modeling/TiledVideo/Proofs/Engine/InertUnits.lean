import TiledVideo.Proofs.Engine.OtherData
import TiledVideo.Proofs.Nal.InertUnits

/-!
# Units that are not decoded, in a run

Units that are not decoded can be put into the access units that engines are asked for: all requests
are answered as without them. They are passed over before anything is kept of an access unit, and
neither the parameter sets that are distributed nor the slices that are given out are found by their
place.

Directly behind a sequence parameter set this is not so, since its picture parameter set is looked for
at that place.

Results:

* `GainsOther.distribute`: parameter sets are distributed as without a unit that is put in.
* `AccessUnit.decode_insertsAll`: nothing that an engine does with an access unit is changed.
* `Splitter.serve_inserted`, `Placer.serve_inserted`: a request for an access unit with units put in.
* `inert_units`: whole runs of requests.
-/

namespace TiledVideo

/-! ## What is done with an access unit -/

namespace GainsOther

variable {units units' : List DecodedUnit}

theorem slices (h : GainsOther units units') :
    units'.filterMap DecodedUnit.slice? = units.filterMap DecodedUnit.slice? := by
  obtain ⟨front, header, back, rfl, rfl, -⟩ := h
  simp only [List.filterMap_append, List.filterMap_cons, DecodedUnit.slice?]

theorem firstPps (h : GainsOther units units') :
    units'.findSome? DecodedUnit.pps? = units.findSome? DecodedUnit.pps? := by
  obtain ⟨front, header, back, rfl, rfl, -⟩ := h
  simp only [List.findSome?_append, List.findSome?_cons, DecodedUnit.pps?]

/-- Parameter sets are distributed as without the unit, since none of them looks for the next one at its
place. -/
theorem distribute (h : GainsOther units units') :
    TileStreams.distribute units' = TileStreams.distribute units := by
  obtain ⟨front, header, back, rfl, rfl, hlast⟩ := h
  exact TileStreams.distribute_append_congr rfl fun set hset => absurd hset (hlast set)

theorem writeUnits (h : GainsOther units units') (p : Placement) (ctx : Context)
    (stream : BitStream) : units'.foldlM (Placer.writeUnit p ctx) stream =
      units.foldlM (Placer.writeUnit p ctx) stream := by
  obtain ⟨front, header, back, rfl, rfl, -⟩ := h
  simp only [List.foldlM_append, List.foldlM_cons, Placer.writeUnit, pure_bind]

end GainsOther

namespace AccessUnit

/-- Engines do the same with two access units. -/
structure Alike (au au' : AccessUnit) : Prop where
  slices : au'.slices = au.slices
  distributeAll : ∀ memory, TileStreams.distributeAll memory au' = TileStreams.distributeAll memory au
  place : ∀ p ctx stream, Placer.place p ctx stream au' = Placer.place p ctx stream au

namespace Alike

variable {au au₁ au₂ : AccessUnit}

theorem refl (au : AccessUnit) : au.Alike au := ⟨rfl, fun _ => rfl, fun _ _ _ => rfl⟩

theorem trans (h : au.Alike au₁) (h' : au₁.Alike au₂) : au.Alike au₂ :=
  ⟨h'.slices.trans h.slices, fun memory => (h'.distributeAll memory).trans (h.distributeAll memory),
    fun p ctx stream => (h'.place p ctx stream).trans (h.place p ctx stream)⟩

theorem of_gains (h : GainsOther au.units au₁.units) : au.Alike au₁ := by
  have hslices : au₁.slices = au.slices := h.slices
  refine ⟨hslices, fun memory => ?_, fun p ctx stream => ?_⟩
  · rw [TileStreams.distributeAll, TileStreams.distributeAll, TileStreams.prepare_congr h.firstPps,
      h.distribute]
  · rw [Placer.place, Placer.place, h.writeUnits, hslices]

end Alike

open Relation in
/-- An access unit with any number of units put in is read, with the same parameter sets in force behind
it, and engines do the same with it. -/
theorem decode_insertsAll {c c' : Context} {bytes bytes' : Bytes} {au : AccessUnit}
    (h : decode c bytes = .ok (au, c')) (hinserts : ReflTransGen ByteStream.Inserts bytes bytes') :
    ∃ au', decode c bytes' = .ok (au', c') ∧ au.Alike au' := by
  induction hinserts with
  | refl => exact ⟨au, h, .refl au⟩
  | tail _ hstep ih =>
    obtain ⟨au₁, h₁, halike⟩ := ih
    obtain ⟨au₂, h₂, hgains⟩ := decode_inserts h₁ hstep
    exact ⟨au₂, h₂, halike.trans (.of_gains hgains)⟩

end AccessUnit

/-! ## Splitters -/

namespace Splitter

/-- A request, or one in which units that are not decoded are put into the access unit. If the splitter
waits for an access unit, then it is one that can be read. -/
inductive Inserted (s : Splitter) : Request → Request → Prop where
  | same (request : Request) : Inserted s request request
  | send {packet : Packet} {data : Bytes}
    (inserts : Relation.ReflTransGen ByteStream.Inserts packet.data data)
    (read : s.phase = .idle → ∃ au c, AccessUnit.decode s.ctx packet.data = .ok (au, c)) :
    Inserted s (.send packet) (.send { packet with data })

theorem Phase.Alike.idle_iff {phase phase' : Phase} (h : phase.Alike phase') :
    phase' = .idle ↔ phase = .idle := by
  cases h with
  | refl => exact Iff.rfl
  | distributing => exact ⟨nofun, nofun⟩

theorem serve_inserted (s t : Splitter) (request request' : Request) (h : s.Alike t)
    (hinserted : s.Inserted request request') :
    (t.serve request').1 = (s.serve request).1 ∧ (s.serve request).2.Alike (t.serve request').2 := by
  cases hinserted with
  | same => exact serve_alike h request
  | @send packet data inserts read =>
    have htiming : packet.sameTiming { packet with data } = true := by simp [Packet.sameTiming]
    simp only [serve]
    by_cases hidle : s.phase = .idle
    · have hidle' : t.phase = .idle := h.phase.idle_iff.2 hidle
      obtain ⟨au, c, hdecode⟩ := read hidle
      obtain ⟨au', hread, halike⟩ := AccessUnit.decode_insertsAll hdecode inserts
      have hdecode' : AccessUnit.decode t.ctx ({ packet with data } : Packet).data = .ok (au', c) := by
        rw [h.ctx]
        exact hread
      cases hdistribute : TileStreams.distributeAll .ample au s.tiles with
      | error e tiles =>
        have hdistribute' : TileStreams.distributeAll .ample au' t.tiles = .error e tiles := by
          rw [halike.distributeAll, h.tiles, hdistribute]
        rw [send_of_refused hidle hdecode hdistribute, send_of_refused hidle' hdecode' hdistribute']
        exact ⟨rfl, .refl _⟩
      | ok _ tiles =>
        have hdistribute' : TileStreams.distributeAll .ample au' t.tiles = .ok () tiles := by
          rw [halike.distributeAll, h.tiles, hdistribute]
        rw [send_of_taken hidle hdecode hdistribute, send_of_taken hidle' hdecode' hdistribute',
          halike.slices]
        exact ⟨rfl, alike_ofSlices htiming c tiles au.slices⟩
    · rw [send_of_busy hidle, send_of_busy (mt h.phase.idle_iff.1 hidle)]
      exact ⟨rfl, h⟩

theorem Alike.tileCount {s t : Splitter} (h : s.Alike t) : t.tileCount = s.tileCount := by
  rw [Splitter.tileCount, Splitter.tileCount, h.tiles]

end Splitter

/-! ## Placers -/

namespace Placer

/-- A request, or one in which units that are not decoded are put into an access unit that can be
read. -/
inductive Inserted (s : Placer) : Request → Request → Prop where
  | same (request : Request) : Inserted s request request
  | filter {packet : Packet} {data : Bytes}
    (inserts : Relation.ReflTransGen ByteStream.Inserts packet.data data)
    (read : ∃ au c, AccessUnit.decode s.ctx packet.data = .ok (au, c)) :
    Inserted s (.filter packet) (.filter { packet with data })

theorem serve_inserted {s : Placer} {request request' : Request}
    (hinserted : s.Inserted request request') : s.serve request' = s.serve request := by
  cases hinserted with
  | same => rfl
  | filter inserts read =>
    obtain ⟨au, c, hdecode⟩ := read
    obtain ⟨au', hdecode', halike⟩ := AccessUnit.decode_insertsAll hdecode inserts
    simp only [serve, Placer.filter, hdecode, hdecode', halike.place]
    rfl

end Placer

/-! ## Runs -/

/-- Units that are not decoded leave no trace in a run. They can be put into all access units that are
read, in any number and at all places but those directly behind a sequence parameter set of the base
layer: a splitter then gives the same replies to all requests, and knows the same number of tiles, and a
placer gives the same replies and is at the same in the end. -/
theorem inert_units :
    (∀ (s : Splitter) (requests requests' : List Splitter.Request),
      Altered Splitter.serve Splitter.Inserted s requests requests' →
        (serveAll Splitter.serve s requests').1 = (serveAll Splitter.serve s requests).1 ∧
        (serveAll Splitter.serve s requests').2.tileCount =
          (serveAll Splitter.serve s requests).2.tileCount) ∧
    ∀ (s : Placer) (requests requests' : List Placer.Request),
      Altered Placer.serve Placer.Inserted s requests requests' →
        serveAll Placer.serve s requests' = serveAll Placer.serve s requests := by
  constructor
  · intro s requests requests' h
    obtain ⟨hreplies, hlast⟩ := serveAll_alike Splitter.serve_inserted (.refl s) h
    exact ⟨hreplies, hlast.tileCount⟩
  · intro s requests requests' h
    have hserve : ∀ (s t : Placer) (request request' : Placer.Request), s = t →
        s.Inserted request request' → (t.serve request').1 = (s.serve request).1 ∧
          (s.serve request).2 = (t.serve request').2 := by
      rintro s _ request request' rfl hinserted
      rw [Placer.serve_inserted hinserted]
      exact ⟨rfl, rfl⟩
    obtain ⟨hreplies, hlast⟩ := serveAll_alike hserve rfl h
    exact Prod.ext hreplies hlast.symm

namespace Sample

/-- An access unit delimiter. -/
def delimiter : Bytes := [70, 1, 80]

/-- A unit of the type of slices in another layer. -/
def otherLayer : Bytes := [2, 9, 200]

/-- The picture with a delimiter in front of its slices. -/
def delimited : Bytes := ByteStream.putIn picture 75 1 delimiter

/-- The same with a unit of another layer behind them. -/
def layered : Bytes := ByteStream.putIn delimited 111 2 otherLayer

theorem inserts_layered : Relation.ReflTransGen ByteStream.Inserts picture layered := by
  have hdelimiter : ByteStream.Inserts picture delimited :=
    .mk 75 1 delimiter ⟨⟨35⟩, 0, 0⟩ (.inl (by decide)) ⟨by decide, by decide, by decide⟩
      (by decide +kernel) (by decide) (by decide +kernel)
  have hlayer : ByteStream.Inserts delimited layered :=
    .mk 111 2 otherLayer ⟨⟨1⟩, 1, 0⟩ (.inr (by decide +kernel)) ⟨by decide, by decide, by decide⟩
      (by decide +kernel) (by decide) (by decide +kernel)
  exact .tail (.single hdelimiter) hlayer

end Sample

open Sample in
/-- A splitter is sent the picture, refuses another one, and gives out a packet. A placer places it. -/
theorem inert_units_sample :
    ((serveAll Splitter.serve .empty
        [.send { data := layered }, .send { data := layered }, .receive]).1 =
      (serveAll Splitter.serve .empty
        [.send { data := picture }, .send { data := picture }, .receive]).1 ∧
      (serveAll Splitter.serve .empty
        [.send { data := layered }, .send { data := layered }, .receive]).2.tileCount = 2) ∧
    serveAll Placer.serve placer [.filter { data := layered }] =
      serveAll Placer.serve placer [.filter { data := picture }] := by
  obtain ⟨hsplitter, hplacer⟩ := inert_units
  have hread : AccessUnit.decode .empty picture = .ok (accessUnit, Sample.ctx) := by decide +kernel
  have hbusy : (Splitter.serve .empty (.send { data := picture })).2.phase ≠ .idle := by
    decide +kernel
  have hcount : (serveAll Splitter.serve .empty
      [.send { data := picture }, .send { data := picture }, .receive]).2.tileCount = 2 := by
    decide +kernel
  have hrun := hsplitter .empty [.send { data := picture }, .send { data := picture }, .receive]
    [.send { data := layered }, .send { data := layered }, .receive]
    (.cons (.send inserts_layered fun _ => ⟨_, _, hread⟩)
      (.cons (.send inserts_layered fun hidle => absurd hidle hbusy)
        (.cons (.same .receive) (.nil _))))
  exact ⟨⟨hrun.1, hrun.2.trans hcount⟩,
    hplacer placer [.filter { data := picture }] [.filter { data := layered }]
      (.cons (.filter inserts_layered ⟨_, _, hread⟩) (.nil _))⟩

end TiledVideo
