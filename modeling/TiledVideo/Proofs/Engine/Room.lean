import TiledVideo.Proofs.Engine.Requests
import TiledVideo.Proofs.Engine.Steps
import TiledVideo.Proofs.Success

/-!
# Runs with little room

What there is room for during a call decides whether the call fails for want of room, and nothing else.
So in any run in which no call fails for want of room, all answers and the state of the engine in the end
are those of the same requests with room for everything.

Results:

* `TileStreams.sameIfRoom_distributeAll`, `TileStreams.sameIfRoom_writeSlice`: the steps of a splitter.
* `Splitter.send_eq_or_no_room`, `Splitter.receive_eq_or_no_room`, `Placer.filter_eq_or_no_room`: single
  calls.
* `Splitter.ofExtradata_eq_or_no_room`: what a splitter is made from.
* `Splitter.serveAll_serveIn`, `Placer.serveAll_serveIn`: runs.
-/

namespace TiledVideo

/-! ## Memory -/

section Memory

variable (memory : Memory)

theorem Memory.alloc_eq_or_no_room (n : Nat) :
    memory.alloc n = Memory.ample.alloc n ∨ memory.alloc n = .error .outOfMemory := by
  unfold alloc
  cases memory.bytes n with
  | true => exact .inl rfl
  | false => exact .inr rfl

theorem TileStreams.newStreams_eq_or_no_room (tiles : Nat) :
    newStreams memory tiles = newStreams .ample tiles ∨
      newStreams memory tiles = .error .outOfMemory := by
  unfold newStreams
  cases memory.streams tiles with
  | true => exact .inl rfl
  | false => exact .inr rfl

theorem TileStreams.openStreams_eq_or_no_room (t : TileStreams) (tiles : Nat) :
    t.openStreams memory tiles = t.openStreams .ample tiles ∨
      t.openStreams memory tiles = .error .outOfMemory := by
  unfold openStreams
  split
  · exact newStreams_eq_or_no_room memory tiles
  · exact .inl rfl

theorem bind_eq_or_no_room {α β : Type} {x y : Except EngineError α}
    {f g : α → Except EngineError β} (h : x = y ∨ x = .error .outOfMemory)
    (hf : ∀ a, f a = g a ∨ f a = .error .outOfMemory) :
    (x >>= f) = (y >>= g) ∨ (x >>= f) = .error .outOfMemory := by
  obtain rfl | rfl := h
  · cases x with
    | error e => exact .inl rfl
    | ok a => exact hf a
  · exact .inr rfl

theorem BitStream.packetData_eq_or_no_room (s : BitStream) :
    s.packetData memory = s.packetData .ample ∨ s.packetData memory = .error .outOfMemory :=
  bind_eq_or_no_room (.inl rfl) fun room =>
    bind_eq_or_no_room (memory.alloc_eq_or_no_room room) fun _ => .inl rfl

end Memory

/-! ## Steps of a splitter -/

namespace TileStreams

variable {α β : Type} {p q : Step α} {f g : α → Step β}

/-- A step does the same as another one, or fails for want of room. -/
def SameIfRoom (p q : Step α) : Prop :=
  ∀ t, p t = q t ∨ ∃ t', p t = .error .outOfMemory t'

theorem SameIfRoom.refl (p : Step α) : SameIfRoom p p :=
  fun _ => .inl rfl

theorem SameIfRoom.bind (h : SameIfRoom p q) (hf : ∀ a, SameIfRoom (f a) (g a)) :
    SameIfRoom (p >>= f) (q >>= g) := by
  intro t
  show EStateM.bind p f t = EStateM.bind q g t ∨ ∃ t', EStateM.bind p f t = .error .outOfMemory t'
  unfold EStateM.bind
  obtain h | ⟨t', h⟩ := h t
  · rw [h]
    cases q t with
    | error e t' => exact .inl rfl
    | ok a t' => exact hf a t'
  · rw [h]
    exact .inr ⟨t', rfl⟩

theorem SameIfRoom.lift {x y : Except EngineError α} (h : x = y ∨ x = .error .outOfMemory) :
    SameIfRoom (TileStreams.lift id x) (TileStreams.lift id y) := by
  intro t
  obtain rfl | rfl := h
  · exact .inl rfl
  · exact .inr ⟨t, rfl⟩

theorem SameIfRoom.ite {c : Prop} [Decidable c] {p' q' : Step α} (h : SameIfRoom p q)
    (h' : SameIfRoom p' q') : SameIfRoom (if c then p else p') (if c then q else q') := by
  split
  · exact h
  · exact h'

theorem sameIfRoom_prepare (memory : Memory) (au : AccessUnit) :
    SameIfRoom (prepare memory au) (prepare .ample au) := by
  refine .bind (.refl _) fun t => ?_
  split
  · exact .ite (.bind (.lift (newStreams_eq_or_no_room memory _)) fun _ => .refl _) (.refl _)
  · exact .refl _

theorem sameIfRoom_distributeAll (memory : Memory) (au : AccessUnit) :
    SameIfRoom (distributeAll memory au) (distributeAll .ample au) :=
  .bind (sameIfRoom_prepare memory au) fun _ => .refl _

theorem sameIfRoom_writeSlice (memory : Memory) (ctx : Context) (segment : SliceUnit) :
    SameIfRoom (writeSlice memory ctx segment) (writeSlice .ample ctx segment) := by
  refine .bind (.refl _) fun pps => .bind (.refl _) fun sps => .bind (.refl _) fun layout => ?_
  refine .bind (.refl _) fun tile => .bind (.refl _) fun size => .bind (.refl _) fun t => ?_
  refine .bind (.lift (openStreams_eq_or_no_room memory t _)) fun streams => .bind (.refl _) fun _ => ?_
  refine .ite (.refl _) (.bind (.refl _) fun stream => .bind (.refl _) fun written => ?_)
  exact .bind (.lift (BitStream.packetData_eq_or_no_room memory written)) fun _ => .refl _

end TileStreams

/-! ## Calls -/

namespace Splitter

theorem ofExtradata_eq_or_no_room (bytes : Bytes) (memory : Memory) :
    ofExtradata bytes memory = ofExtradata bytes ∨
      ofExtradata bytes memory = .error .outOfMemory := by
  refine bind_eq_or_no_room (.inl rfl) fun sets => bind_eq_or_no_room (.inl rfl) fun pps => ?_
  have hstreams := TileStreams.newStreams_eq_or_no_room memory pps.partition.tileCount
  cases pps.partition.tiles.isNone with
  | true => exact .inl (by cases sets.ctx.spsOf pps <;> rfl)
  | false =>
    cases sets.ctx.spsOf pps with
    | none => exact bind_eq_or_no_room hstreams fun _ => .inl rfl
    | some sps => exact bind_eq_or_no_room hstreams fun _ => .inl rfl

variable (s : Splitter)

theorem send_eq_or_no_room (packet : Packet) (memory : Memory) :
    s.send packet memory = s.send packet ∨ (s.send packet memory).1 = .error .outOfMemory := by
  unfold send
  cases s.phase with
  | passThrough input => exact .inl rfl
  | distributing input next later => exact .inl rfl
  | idle =>
    cases AccessUnit.decode s.ctx packet.data with
    | error e => exact .inl rfl
    | ok result =>
      obtain ⟨au, ctx⟩ := result
      obtain h | ⟨t', h⟩ := TileStreams.sameIfRoom_distributeAll memory au s.tiles
      · exact .inl (by simp only [h])
      · exact .inr (by simp only [h])

theorem receive_eq_or_no_room (memory : Memory) :
    s.receive memory = s.receive ∨ (s.receive memory).1 = .error .outOfMemory := by
  unfold receive
  cases s.phase with
  | idle => exact .inl rfl
  | passThrough packet => exact .inl rfl
  | distributing input next later =>
    obtain h | ⟨t', h⟩ := TileStreams.sameIfRoom_writeSlice memory s.ctx next s.tiles
    · exact .inl (by simp only [h])
    · exact .inr (by simp only [h])

/-- Answers a request with what there is room for. -/
def serveIn (s : Splitter) : Request × Memory → Reply × Splitter
  | (.send packet, memory) => (.sent (s.send packet memory).1, (s.send packet memory).2)
  | (.receive, memory) => (.received (s.receive memory).1, (s.receive memory).2)
  | (.flush, _) => (.flushed, s.flush)

/-- A request has failed for want of room. -/
def Reply.NoRoom : Reply → Prop
  | .sent result => result = .error .outOfMemory
  | .received result => result = .error .outOfMemory
  | .flushed => False

theorem serveIn_ample (request : Request) : s.serveIn (request, .ample) = s.serve request := by
  cases request with
  | send packet => rfl
  | receive => rfl
  | flush => rfl

theorem serveIn_eq_or_no_room (call : Request × Memory) :
    s.serveIn call = s.serve call.1 ∨ (s.serveIn call).1.NoRoom := by
  obtain ⟨request, memory⟩ := call
  cases request with
  | send packet =>
    refine (s.send_eq_or_no_room packet memory).imp_left fun h => ?_
    simp only [serveIn, serve, h]
  | receive =>
    refine (s.receive_eq_or_no_room memory).imp_left fun h => ?_
    simp only [serveIn, serve, h]
  | flush => exact .inl rfl

/-- Requests of which none fails for want of room are answered as if there were room for everything. -/
theorem serveAll_serveIn {calls : List (Request × Memory)}
    (h : ∀ reply ∈ (serveAll serveIn s calls).1, ¬ reply.NoRoom) :
    serveAll serveIn s calls = serveAll serve s (calls.map Prod.fst) :=
  serveAll_eq_of_each serveIn_eq_or_no_room h

end Splitter

namespace Placer

variable (s : Placer)

theorem filter_eq_or_no_room (packet : Packet) (memory : Memory) :
    s.filter packet memory = s.filter packet ∨
      (s.filter packet memory).1 = .error .outOfMemory := by
  unfold filter
  split
  · exact .inl rfl
  · split
    · exact .inl rfl
    · exact .inl rfl
    · next stream _ =>
      obtain h | h := BitStream.packetData_eq_or_no_room memory stream
      · exact .inl (by simp only [h])
      · exact .inr (by simp only [h])

/-- Answers a request with what there is room for. -/
def serveIn (s : Placer) : Request × Memory → Reply × Placer
  | (.filter packet, memory) => (.filtered (s.filter packet memory).1, (s.filter packet memory).2)
  | (.flush, _) => (.flushed, s.flush)

/-- A request has failed for want of room. -/
def Reply.NoRoom : Reply → Prop
  | .filtered result => result = .error .outOfMemory
  | .flushed => False

theorem serveIn_eq_or_no_room (call : Request × Memory) :
    s.serveIn call = s.serve call.1 ∨ (s.serveIn call).1.NoRoom := by
  obtain ⟨request, memory⟩ := call
  cases request with
  | filter packet =>
    refine (s.filter_eq_or_no_room packet memory).imp_left fun h => ?_
    simp only [serveIn, serve, h]
  | flush => exact .inl rfl

/-- Requests of which none fails for want of room are answered as if there were room for everything. -/
theorem serveAll_serveIn {calls : List (Request × Memory)}
    (h : ∀ reply ∈ (serveAll serveIn s calls).1, ¬ reply.NoRoom) :
    serveAll serveIn s calls = serveAll serve s (calls.map Prod.fst) :=
  serveAll_eq_of_each serveIn_eq_or_no_room h

end Placer

end TiledVideo
