import TiledVideo.Proofs.Nal.WrittenUnits

/-!
# Reading back a written stream

Units are written one after the other into one stream. Each has a short or a long start code, and its
payload comes in pieces. Escaping goes on from piece to piece and begins again at each start code, so
the stream holds the units on their own, and a reader finds them all.

Results:

* `nalUnits_adds`: what a list of units adds to a stream.
* `units_nalUnits`: the units found are those written, each with its own start code.
* `nalUnits_found`: types, temporal identifiers and payloads are read back.
* `not_forall_found`: a stream without units has no start code, so it is not read.
-/

namespace TiledVideo

/-- A unit of the base layer to be written. -/
structure UnitDraft where
  unitType : UnitType
  temporalId : Fin 7
  /-- Whether the start code gets an extra zero byte. -/
  long : Bool
  /-- The payload, cut into the pieces in which it is written. -/
  pieces : List Bytes
  deriving DecidableEq, Repr

namespace UnitDraft

def payload (u : UnitDraft) : Bytes :=
  u.pieces.flatten

/-- The header of the unit, and its payload as it is escaped at once. -/
def nal (u : UnitDraft) : Bytes :=
  nalBytes u.unitType u.temporalId.val u.payload

/-- The unit behind the number of zero bytes that its start code is extended by. -/
def behind (u : UnitDraft) : Nat × Bytes :=
  (u.long.toNat, u.nal)

theorem solid_behind {u : UnitDraft} (h : u.payload.getLast? ≠ some 0) :
    ByteStream.Solid u.behind.2 :=
  solid_nalBytes u.unitType u.temporalId.isLt h

/-- A unit that was found is the one that was written. -/
structure ReadAs (u : UnitDraft) (found : FramedUnit) : Prop where
  header : NalHeader.ofBytes found.nal = .ok ⟨u.unitType, 0, u.temporalId⟩
  payload : nalPayload found.nal = .ok u.payload

theorem readAs_behindZeros (u : UnitDraft) : u.ReadAs (ByteStream.behindZeros u.behind) where
  header := ofBytes_nalBytes u.unitType u.temporalId u.payload
  payload := nalPayload_nalBytes u.unitType u.temporalId.val u.payload

end UnitDraft

namespace BitStream

variable {s : BitStream}

/-- Writes a unit: its header, then its payload piece by piece. -/
def nalUnit (s : BitStream) (u : UnitDraft) : Except WriteError BitStream := do
  let begun ← s.nalHeader u.unitType u.temporalId.val u.long
  u.pieces.foldlM payload begun

/-- Writes units one after the other. -/
def nalUnits (s : BitStream) (us : List UnitDraft) : Except WriteError BitStream :=
  us.foldlM nalUnit s

/-! ## What is written -/

/-- Pieces are escaped as if they were written at once. -/
theorem foldlM_payload (hs : s.pending = []) (pieces : List Bytes) :
    pieces.foldlM payload s = .ok { s with out := s.out.write pieces.flatten } := by
  induction pieces generalizing s with
  | nil =>
    rw [List.flatten_nil, EscapedStream.write_nil]
    rfl
  | cons piece pieces ih =>
    have hnext : { s with out := s.out.write piece }.pending = [] := hs
    rw [List.foldlM_cons, payload_eq hs, List.flatten_cons, EscapedStream.write_append]
    exact ih hnext

/-- What a unit adds does not depend on what comes before it. -/
theorem nalUnit_adds (hs : s.pending = []) (u : UnitDraft) :
    ∃ s', s.nalUnit u = .ok s' ∧ s'.pending = [] ∧
      s'.out.bytes = s.out.bytes ++ ByteStream.spaced [u.behind] := by
  obtain ⟨hescape, hzeros⟩ := escapeFrom_header u.unitType u.temporalId.isLt
  have hbegun : s.nalHeader u.unitType u.temporalId.val u.long = _ :=
    nalHeader_eq hs u.temporalId.isLt u.long
  refine ⟨_, bind_eq_ok_iff.2 ⟨_, hbegun, foldlM_payload (by exact hs) u.pieces⟩, hs, ?_⟩
  simp only [EscapedStream.write, EscapedStream.writeRaw, hescape, hzeros, ByteStream.spaced,
    List.flatMap_singleton, UnitDraft.behind, UnitDraft.nal, UnitDraft.payload, nalBytes,
    Emulation.escape, List.append_assoc]

theorem nalUnits_adds (hs : s.pending = []) (us : List UnitDraft) :
    ∃ s', s.nalUnits us = .ok s' ∧ s'.pending = [] ∧
      s'.out.bytes = s.out.bytes ++ ByteStream.spaced (us.map UnitDraft.behind) := by
  induction us generalizing s with
  | nil => exact ⟨s, rfl, hs, (List.append_nil _).symm⟩
  | cons u us ih =>
    obtain ⟨s₁, hfirst, hs₁, hbytes₁⟩ := nalUnit_adds hs u
    obtain ⟨s₂, hrest, hs₂, hbytes₂⟩ := ih hs₁
    refine ⟨s₂, ?_, hs₂, ?_⟩
    · rw [nalUnits, List.foldlM_cons, hfirst]
      exact hrest
    · rw [hbytes₂, hbytes₁, List.append_assoc]
      simp [ByteStream.spaced]

/-! ## What is found -/

theorem units_nalUnits {us : List UnitDraft} (hne : us ≠ [])
    (hlast : ∀ u ∈ us, u.payload.getLast? ≠ some 0) :
    ∃ s bytes, empty.nalUnits us = .ok s ∧ s.take = .ok (bytes, empty) ∧
      ByteStream.units bytes = .ok (us.map fun u => ByteStream.behindZeros u.behind) := by
  have hempty : empty.pending = [] := rfl
  obtain ⟨s, hwritten, hpending, hbytes⟩ := nalUnits_adds hempty us
  have htake : s.take = .ok (s.out.bytes, empty) := by
    rw [take, wholeBytes_eq hpending]
    rfl
  have hsolid : ∀ b ∈ us.map UnitDraft.behind, ByteStream.Solid b.2 := by
    intro b hb
    obtain ⟨u, hu, rfl⟩ := List.mem_map.1 hb
    exact UnitDraft.solid_behind (hlast u hu)
  have hunits := ByteStream.units_spaced (mt List.map_eq_nil_iff.1 hne) hsolid
  refine ⟨s, s.out.bytes, hwritten, htake, ?_⟩
  rw [hbytes]
  exact hunits.trans (congrArg Except.ok List.map_map)

end BitStream

/-- Units can be written into one stream, and the units found there are read back as those. -/
def UnitDraft.Found (us : List UnitDraft) : Prop :=
  ∃ s bytes found, BitStream.empty.nalUnits us = .ok s ∧ s.take = .ok (bytes, BitStream.empty) ∧
    ByteStream.units bytes = .ok found ∧ List.Forall₂ UnitDraft.ReadAs us found

/-- Types, temporal identifiers and payloads are read back, however the payloads were cut. -/
theorem nalUnits_found {us : List UnitDraft} (hne : us ≠ [])
    (hlast : ∀ u ∈ us, u.payload.getLast? ≠ some 0) : UnitDraft.Found us := by
  obtain ⟨s, bytes, hwritten, htake, hunits⟩ := BitStream.units_nalUnits hne hlast
  refine ⟨s, bytes, _, hwritten, htake, hunits, ?_⟩
  rw [List.forall₂_map_right_iff, List.forall₂_same]
  intro u _
  exact u.readAs_behindZeros

/-- Zero bytes and bytes `03` at the ends of pieces, headers that begin with a zero byte, payloads
without bytes, and start codes of both lengths. -/
def UnitDraft.samples : List UnitDraft := [
  ⟨⟨0⟩, 0, false, [[0], [0], [], [1, 0, 0], [3]]⟩,
  ⟨⟨63⟩, 6, true, []⟩,
  ⟨⟨0⟩, 0, true, [[0, 0, 0], [0, 0, 0, 2], [0, 0, 3, 0, 0, 3]]⟩,
  ⟨⟨32⟩, 3, false, [[]]⟩,
  ⟨⟨1⟩, 0, false, [[3], [0, 0], [0], [4]]⟩]

theorem nalUnits_found_samples : UnitDraft.Found UnitDraft.samples :=
  nalUnits_found (by decide) (by decide)

/-- A reader asks for a start code at the front, and there is none if nothing was written. -/
theorem not_forall_found :
    ¬ ∀ us : List UnitDraft, (∀ u ∈ us, u.payload.getLast? ≠ some 0) → UnitDraft.Found us := by
  intro h
  obtain ⟨s, bytes, found, hwritten, htake, hunits, -⟩ := h [] (by decide)
  obtain rfl : BitStream.empty = s := Except.ok.inj hwritten
  obtain ⟨rfl, -⟩ : [] = bytes ∧ BitStream.empty = BitStream.empty :=
    Prod.mk.inj (Except.ok.inj htake)
  cases hunits

end TiledVideo
