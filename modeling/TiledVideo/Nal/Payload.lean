import TiledVideo.Bitstream.Emulation
import TiledVideo.Bitstream.Reader

/-!
# Payloads of NAL units
-/

namespace TiledVideo

/-- The number of bytes of a NAL unit header. -/
def nalHeaderLength : Nat := 2

/-- The payload of a NAL unit, without its header and without emulation prevention bytes (`decode_nal`).
-/
def nalPayload (nal : Bytes) : Except ReadError Bytes :=
  if nal.length < nalHeaderLength then .error (.endOfData "nal_unit_header")
  else .ok (Emulation.unescape (nal.drop nalHeaderLength))

end TiledVideo
