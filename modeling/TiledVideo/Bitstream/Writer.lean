import TiledVideo.Bitstream.Code
import TiledVideo.Bitstream.Emulation

/-!
# Byte streams under construction

An `EscapedStream` takes bytes and escapes them as it goes. A `BitStream` also takes bits and holds
back those that do not fill a byte yet. What is written depends only on the bits put in, not on how
they were cut into pieces.

Results:

* `EscapedStream.write_append`: writing in pieces is the same as writing at once.
* `BitStream.reset_eq`: nothing is left of a stream that is reset, wherever writing has stopped.
* `BitStream.aligned_append_iff`: a stream is aligned after a number of bits that fills its bytes.
-/

namespace TiledVideo

/-! ## Bytes -/

/-- Bytes written so far, with the state that escaping carries from one write to the next (`ByteWriter`).
-/
structure EscapedStream where
  /-- The bytes written and not yet taken out. -/
  bytes : Bytes := []
  /-- How many zero bytes the next byte follows; at most two. -/
  zeros : Nat := 0
  /-- How many bytes were written, those taken out included. -/
  count : Nat := 0
  deriving DecidableEq, Repr, Inhabited

namespace EscapedStream

/-- Writes bytes, escaped where needed (`ByteWriter::write`). -/
def write (s : EscapedStream) (payload : Bytes) : EscapedStream :=
  let escaped := Emulation.escapeFrom s.zeros payload
  { bytes := s.bytes ++ escaped
    zeros := Emulation.zerosAfter s.zeros payload
    count := s.count + escaped.length }

/-- Writes bytes as they are; the zero bytes before them no longer matter (`ByteWriter::write_raw`). -/
def writeRaw (s : EscapedStream) (raw : Bytes) : EscapedStream :=
  { bytes := s.bytes ++ raw, zeros := 0, count := s.count + raw.length }

/-- Takes out the bytes written so far; counting and escaping go on (`ByteWriter::get_mut`). -/
def drain (s : EscapedStream) : Bytes × EscapedStream :=
  (s.bytes, { s with bytes := [] })

theorem write_nil (s : EscapedStream) : s.write [] = s := by
  simp [write, Emulation.escapeFrom, Emulation.zerosAfter]

theorem write_append (s : EscapedStream) (a b : Bytes) :
    s.write (a ++ b) = (s.write a).write b := by
  simp [write, Emulation.escapeFrom_append, Emulation.zerosAfter_append, Nat.add_assoc]

end EscapedStream

/-! ## Bits -/

/-- A byte stream that is written bit by bit (`BitWriter`). -/
structure BitStream where
  /-- The whole bytes. -/
  out : EscapedStream := {}
  /-- The bits of the byte that has been begun; at most seven. -/
  pending : BitString := []
  deriving DecidableEq, Repr, Inhabited

namespace BitStream

/-- A stream with nothing in it (`BitWriter::new`). -/
def empty : BitStream := {}

/-- Whether no byte has been begun (`BitWriter::byte_aligned`). -/
def aligned (s : BitStream) : Bool :=
  s.pending.isEmpty

/-- Writes bits (`BitWriter::write_bits`). -/
def append (s : BitStream) (bits : BitString) : BitStream :=
  let all := s.pending ++ bits
  { out := s.out.write (Bits.toBytes all), pending := Bits.leftover all }

/-- Writes the code of a syntax structure, if it has one. -/
def appendCode (s : BitStream) (code : Code) : Except WriteError BitStream :=
  s.append <$> code

/-- Writes a stop bit and fills up its byte (`BitWriter::write_rbsp_trailing_bits`). -/
def close (s : BitStream) : BitStream :=
  s.append (Code.stopBits s.pending.length)

/-- The byte stream, which can be used as such only between bytes (`BitWriter::byte_writer`). -/
def wholeBytes (s : BitStream) : Except WriteError EscapedStream :=
  if s.aligned then .ok s.out else .error .notByteAligned

/-- Writes whole bytes, escaped where needed (`BitWriter::write_payload`). -/
def payload (s : BitStream) (bytes : Bytes) : Except WriteError BitStream := do
  let out ← s.wholeBytes
  pure { s with out := out.write bytes }

/-- The number of bytes written (`BitWriter::byte_count`). -/
def byteCount (s : BitStream) : Except WriteError Nat :=
  EscapedStream.count <$> s.wholeBytes

/-- The bytes written, if no more than `room` (`BitWriter::fetch_into`). -/
def fetch (s : BitStream) (room : Nat) : Except WriteError Bytes := do
  let out ← s.wholeBytes
  if out.bytes.length ≤ room then pure out.bytes
  else throw (.invalidValue "fetch_into buffer length" out.bytes.length)

/-- Drops all that was written, also the bits of a byte that has been begun (`BitWriter::reset`). The
buffer is kept if it can be taken out, which is not so in the middle of a byte. -/
def reset (s : BitStream) : BitStream :=
  match s.wholeBytes with
  | .ok out => { out := { bytes := out.bytes.take 0 } }
  | .error _ => {}

/-- Takes out the bytes written and leaves a stream with nothing in it (`BitWriter::take`). -/
def take (s : BitStream) : Except WriteError (Bytes × BitStream) := do
  let out ← s.wholeBytes
  pure (out.bytes, empty)

@[simp] theorem reset_eq (s : BitStream) : s.reset = .empty := by
  unfold reset
  split
  · rw [List.take_zero]
    rfl
  · rfl

theorem aligned_iff (s : BitStream) : s.aligned = true ↔ s.pending = [] := by
  simp [aligned]

theorem aligned_append_iff (s : BitStream) (bits : BitString) :
    (s.append bits).aligned = true ↔ (s.pending.length + bits.length) % 8 = 0 := by
  rw [aligned_iff, ← List.length_eq_zero_iff, append, Bits.length_leftover, List.length_append]

end BitStream

namespace Code

/-- The bytes that a code becomes in a stream of its own. -/
def toEscapedBytes (code : Code) : Except WriteError Bytes :=
  (fun bits => (BitStream.empty.append bits).out.bytes) <$> code

end Code

end TiledVideo
