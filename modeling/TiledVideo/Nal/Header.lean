import TiledVideo.Bitstream.Reader
import TiledVideo.Nal.UnitType

/-!
# NAL units

A NAL unit is a header of two bytes and an escaped payload.

Results:

* `NalHeader.ofBytes_toBytes`: a header is recovered from its two bytes.
-/

namespace TiledVideo

/-- The header of a NAL unit. -/
structure NalHeader where
  unitType : UnitType
  layerId : Fin 64
  temporalId : Fin 7
  deriving DecidableEq, Repr

/-- Why two bytes are no NAL unit header. -/
inductive NalHeaderError where
  /-- The first bit was set. -/
  | forbiddenZeroBit
  /-- The temporal identifier is coded plus one, so it cannot be coded as zero. -/
  | zeroTemporalIdPlus1
  /-- There were fewer than two bytes. -/
  | truncated
  deriving DecidableEq, Repr

namespace NalHeader

/-- The header as a number of 16 bits (`u16::from`). -/
def value (h : NalHeader) : Nat :=
  h.unitType.id.val * 512 + h.layerId.val * 8 + (h.temporalId.val + 1)

/-- The header as two bytes. -/
def toBytes (h : NalHeader) : Bytes :=
  [UInt8.ofNat (h.value / 256), UInt8.ofNat (h.value % 256)]

/-- The header that a number of 16 bits stands for (`NalHeader::new`). -/
def ofValue (v : Nat) : Except NalHeaderError NalHeader :=
  if v / 32768 % 2 = 1 then .error .forbiddenZeroBit
  else if v % 8 = 0 then .error .zeroTemporalIdPlus1
  else .ok {
    unitType := ⟨⟨v / 512 % 64, by omega⟩⟩
    layerId := ⟨v / 8 % 64, by omega⟩
    temporalId := ⟨v % 8 - 1, by omega⟩ }

/-- The header at the front of a NAL unit (`NalHeader::from_bytes`). -/
def ofBytes : Bytes → Except NalHeaderError NalHeader
  | a :: b :: _ => ofValue (a.toNat * 256 + b.toNat)
  | _ => .error .truncated

theorem value_lt (h : NalHeader) : h.value < 32768 := by
  have := h.unitType.id.isLt
  have := h.layerId.isLt
  have := h.temporalId.isLt
  unfold value
  omega

theorem ofValue_value (h : NalHeader) : ofValue h.value = .ok h := by
  have h₁ := h.unitType.id.isLt
  have h₂ := h.layerId.isLt
  have h₃ := h.temporalId.isLt
  have hv := h.value_lt
  obtain ⟨⟨⟨u, hu⟩⟩, ⟨l, hl⟩, ⟨t, ht⟩⟩ := h
  simp only [value] at hv ⊢
  simp only at h₁ h₂ h₃
  unfold ofValue
  rw [if_neg (by omega), if_neg (by omega)]
  congr 4 <;> omega

theorem ofBytes_toBytes (h : NalHeader) (rest : Bytes) :
    ofBytes (h.toBytes ++ rest) = .ok h := by
  have hv := h.value_lt
  have : h.value / 256 * 256 + h.value % 256 = h.value := by omega
  simp only [toBytes, List.cons_append, List.nil_append, ofBytes]
  rw [UInt8.toNat_ofNat_of_lt' (by show h.value / 256 < 256; omega),
    UInt8.toNat_ofNat_of_lt' (by show h.value % 256 < 256; omega), this, ofValue_value]

end NalHeader

end TiledVideo
