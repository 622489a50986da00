import TiledVideo.Engine.UnitWriter
import TiledVideo.Proofs.Bitstream.Endings

/-!
# Units in a stream

A stream that holds whole units takes a further unit as if it were the only one: the start code ends
whatever zero bytes came before, and the bits of a unit fill its bytes.

Results:

* `parameterSet_eq`, `slice_eq`: what a stream holds after a parameter set or a slice.
* `bytes_parameterSet`, `bytes_slice`: it is what it held before, then the unit on its own.
* `packetData_eq`: whole units can be taken out.
-/

namespace TiledVideo

/-! ## Bytes of a unit -/

/-- The two header bytes of a unit in the base layer. -/
def headerBytes (unitType : UnitType) (temporalId : Nat) : Bytes :=
  [UInt8.ofNat (unitType.id.val * 2), UInt8.ofNat (temporalId + 1)]

/-- A unit with its header and its escaped payload. -/
def nalBytes (unitType : UnitType) (temporalId : Nat) (payload : Bytes) : Bytes :=
  headerBytes unitType temporalId ++ Emulation.escape payload

/-- A unit with a long start code. -/
def framedBytes (unitType : UnitType) (temporalId : Nat) (payload : Bytes) : Bytes :=
  0 :: startCode ++ nalBytes unitType temporalId payload

theorem temporalId_byte_ne_zero {temporalId : Nat} (h : temporalId < 7) :
    UInt8.ofNat (temporalId + 1) ≠ 0 := by
  intro h0
  have := congrArg UInt8.toNat h0
  rw [UInt8.toNat_ofNat_of_lt' (by show temporalId + 1 < 256; omega)] at this
  exact Nat.succ_ne_zero _ this

/-- The second header byte is not zero, so a payload is escaped as if nothing came before it. -/
theorem escapeFrom_header (unitType : UnitType) {temporalId : Nat} (h : temporalId < 7) :
    Emulation.escapeFrom 0 (headerBytes unitType temporalId) = headerBytes unitType temporalId ∧
      Emulation.zerosAfter 0 (headerBytes unitType temporalId) = 0 := by
  have hne := temporalId_byte_ne_zero h
  simp only [headerBytes, Emulation.escapeFrom, Emulation.zerosAfter]
  split_ifs <;> simp_all

namespace BitStream

variable {s : BitStream} {unitType : UnitType}

/-- Only whole units were written, and none of them were taken out. -/
structure Whole (s : BitStream) : Prop where
  pending : s.pending = []
  count : s.out.count = s.out.bytes.length

theorem whole_empty : empty.Whole := ⟨rfl, rfl⟩

/-- The stream with a further unit. -/
def withUnit (s : BitStream) (unitType : UnitType) (temporalId : Nat) (payload : Bytes) :
    BitStream where
  out := {
    bytes := s.out.bytes ++ framedBytes unitType temporalId payload
    zeros := Emulation.zerosAfter 0 payload
    count := s.out.count + (framedBytes unitType temporalId payload).length }

theorem Whole.withUnit (hs : s.Whole) (temporalId : Nat) (payload : Bytes) :
    (s.withUnit unitType temporalId payload).Whole :=
  ⟨rfl, by simp only [BitStream.withUnit, List.length_append, hs.count]⟩

@[simp] theorem withUnit_bytes (temporalId : Nat) (payload : Bytes) :
    (s.withUnit unitType temporalId payload).out.bytes =
      s.out.bytes ++ framedBytes unitType temporalId payload := rfl

/-! ## Writing a unit -/

theorem wholeBytes_eq (hs : s.pending = []) : s.wholeBytes = .ok s.out := by
  rw [wholeBytes, aligned, hs]
  rfl

theorem nalHeader_eq (hs : s.pending = []) {temporalId : Nat} (ht : temporalId < 7)
    (long : Bool) :
    s.nalHeader unitType temporalId long =
      .ok { s with
        out := (s.out.writeRaw (List.replicate long.toNat 0 ++ startCode)).write
          (headerBytes unitType temporalId) } := by
  rw [nalHeader, if_neg (by omega), wholeBytes_eq hs]
  cases long <;> rfl

theorem payload_eq (hs : s.pending = []) (bytes : Bytes) :
    s.payload bytes = .ok { s with out := s.out.write bytes } := by
  rw [payload, wholeBytes_eq hs]
  rfl

/-- A code that fills bytes becomes the payload of the unit that has been begun. -/
theorem append_header (hs : s.pending = []) {temporalId : Nat} (ht : temporalId < 7)
    {bits : BitString} (hbits : bits.length % 8 = 0) :
    append { s with out :=
      (s.out.writeRaw (0 :: startCode)).write (headerBytes unitType temporalId) } bits =
      s.withUnit unitType temporalId (Bits.toBytes bits) := by
  obtain ⟨hescape, hzeros⟩ := escapeFrom_header unitType ht
  simp only [append, hs, List.nil_append, Bits.leftover_eq_nil hbits, withUnit,
    EscapedStream.write, EscapedStream.writeRaw, hescape, hzeros, framedBytes, nalBytes,
    Emulation.escape, List.append_assoc, List.cons_append, List.length_append, List.length_cons]
  congr 2
  omega

theorem parameterSet_eq (hs : s.pending = []) (code : Code) :
    s.parameterSet unitType code.closed =
      (fun bits => s.withUnit unitType 0 (Bits.toBytes bits)) <$> code.closed := by
  rw [parameterSet, nalHeader_eq hs (by decide) true]
  cases hcode : code.closed with
  | error e => rfl
  | ok bits => exact congrArg Except.ok (append_header hs (by decide) (Code.length_closed hcode))

/-- The data of a slice is written as a continuation of its header. -/
theorem payload_withUnit (temporalId : Nat) (front data : Bytes) :
    (s.withUnit unitType temporalId front).payload data =
      .ok (s.withUnit unitType temporalId (front ++ data)) := by
  rw [payload_eq rfl]
  refine congrArg Except.ok ?_
  simp only [withUnit, EscapedStream.write, framedBytes, nalBytes, Emulation.escape,
    Emulation.escapeFrom_append, Emulation.zerosAfter_append, List.append_assoc,
    List.cons_append, List.length_append, List.length_cons]
  congr 2
  omega

theorem slice_eq (hs : s.pending = []) (segment : SliceUnit) (sps : Sps) (pps : Pps)
    (target : SliceHeader.Target) :
    s.slice segment sps pps target =
      (fun bits => s.withUnit segment.nalHeader.unitType segment.nalHeader.temporalId.val
        (Bits.toBytes bits ++ segment.data)) <$>
          segment.header.encode segment.nalHeader.unitType sps pps target := by
  rw [slice, nalHeader_eq hs segment.nalHeader.temporalId.isLt true]
  cases hcode : segment.header.encode segment.nalHeader.unitType sps pps target with
  | error e => rfl
  | ok bits =>
    have happend : _ = s.withUnit segment.nalHeader.unitType _ _ :=
      append_header hs segment.nalHeader.temporalId.isLt (Code.length_closed hcode)
    exact (congrArg (·.payload segment.data) happend).trans (payload_withUnit _ _ _)

/-! ## Units on their own -/

theorem bytes_parameterSet (hs : s.Whole) {code : Code} {s' : BitStream}
    (h : s.parameterSet unitType code.closed = .ok s') :
    s'.Whole ∧ ∃ own, empty.parameterSet unitType code.closed = .ok own ∧
      s'.out.bytes = s.out.bytes ++ own.out.bytes := by
  rw [parameterSet_eq hs.pending] at h
  obtain ⟨bits, hbits, rfl⟩ := map_eq_ok_iff.1 h
  refine ⟨hs.withUnit _ _, empty.withUnit unitType 0 (Bits.toBytes bits), ?_, rfl⟩
  rw [parameterSet_eq rfl, hbits]
  rfl

theorem bytes_slice (hs : s.Whole) {segment : SliceUnit} {sps : Sps} {pps : Pps}
    {target : SliceHeader.Target} {s' : BitStream}
    (h : s.slice segment sps pps target = .ok s') :
    s'.Whole ∧ ∃ own, empty.slice segment sps pps target = .ok own ∧
      s'.out.bytes = s.out.bytes ++ own.out.bytes := by
  rw [slice_eq hs.pending] at h
  obtain ⟨bits, hbits, rfl⟩ := map_eq_ok_iff.1 h
  refine ⟨hs.withUnit _ _, empty.withUnit _ _ (Bits.toBytes bits ++ segment.data), ?_, rfl⟩
  rw [slice_eq rfl, hbits]
  rfl

/-! ## Taking out units -/

theorem bytes_of_packetData {memory : Memory} {data : Bytes} (h : s.packetData memory = .ok data) :
    data = s.out.bytes := by
  obtain ⟨room, -, h⟩ := bind_eq_ok_iff.1 h
  obtain ⟨_, -, h⟩ := bind_eq_ok_iff.1 h
  obtain ⟨out, hout, h⟩ := bind_eq_ok_iff.1 (mapError_eq_ok_iff.1 h)
  rw [wholeBytes] at hout
  split at hout
  · cases hout
    split at h
    · cases h
      rfl
    · cases h
  · cases hout

/-- Whole units can be taken out if there is room for them, as no more bytes are in a stream than were
written to it. -/
theorem packetData_eq (hs : s.Whole) (memory : Memory) :
    s.packetData memory = (fun _ => s.out.bytes) <$> memory.alloc s.out.bytes.length := by
  have hfetch : s.fetch s.out.bytes.length = .ok s.out.bytes := by
    simp only [fetch, wholeBytes_eq hs.pending]
    exact if_pos (Nat.le_refl _)
  simp only [packetData, byteCount, wholeBytes_eq hs.pending, Except.map_ok, hs.count]
  show (do memory.alloc s.out.bytes.length; (s.fetch s.out.bytes.length).mapError .ofWrite) = _
  rw [hfetch, map_eq_pure_bind]
  rfl

theorem packetData_ample (hs : s.Whole) : s.packetData .ample = .ok s.out.bytes := by
  rw [packetData_eq hs, Memory.alloc_ample]
  rfl

/-- Only want of room keeps whole units from being taken out. -/
theorem packetData_eq_error_iff (hs : s.Whole) {memory : Memory} {e : EngineError} :
    s.packetData memory = .error e ↔
      memory.bytes s.out.bytes.length = false ∧ e = .outOfMemory := by
  rw [packetData_eq hs, map_eq_error_iff, Memory.alloc_eq_error_iff]

end BitStream

end TiledVideo
