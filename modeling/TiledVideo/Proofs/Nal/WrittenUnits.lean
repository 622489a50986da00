import TiledVideo.Proofs.Nal.ByteStream
import TiledVideo.Proofs.Nal.Framing
import TiledVideo.Proofs.ParamSet.Context
import TiledVideo.Proofs.Slice.Header

/-!
# Decoding written units

A unit that was written is found in the byte stream and decoded as what was written, up to what is
not written of it.

Results:

* `solid_nalBytes`: a unit is found in a byte stream if its payload does not end in a zero byte.
* `decodeNal_vps`, `decodeNal_sps`, `decodeNal_pps`, `decodeNal_slice`: what a unit is decoded as.
-/

namespace TiledVideo

open Reader

/-! ## Units as bytes -/

theorem headerBytes_eq (unitType : UnitType) (temporalId : Fin 7) :
    headerBytes unitType temporalId.val = (⟨unitType, 0, temporalId⟩ : NalHeader).toBytes := by
  have htemporal := temporalId.isLt
  have hvalue : (⟨unitType, 0, temporalId⟩ : NalHeader).value =
      unitType.id.val * 512 + (temporalId.val + 1) := by simp [NalHeader.value]
  have hfirst : (unitType.id.val * 512 + (temporalId.val + 1)) / 256 = unitType.id.val * 2 := by
    omega
  have hsecond : (unitType.id.val * 512 + (temporalId.val + 1)) % 256 = temporalId.val + 1 := by
    omega
  rw [headerBytes, NalHeader.toBytes, hvalue, hfirst, hsecond]

theorem ofBytes_nalBytes (unitType : UnitType) (temporalId : Fin 7) (payload : Bytes) :
    NalHeader.ofBytes (nalBytes unitType temporalId.val payload) =
      .ok ⟨unitType, 0, temporalId⟩ := by
  rw [nalBytes, headerBytes_eq, NalHeader.ofBytes_toBytes]

theorem nalPayload_nalBytes (unitType : UnitType) (temporalId : Nat) (payload : Bytes) :
    nalPayload (nalBytes unitType temporalId payload) = .ok payload := by
  rw [nalPayload, if_neg (by simp [nalBytes, headerBytes, nalHeaderLength])]
  exact congrArg Except.ok (Emulation.unescape_escape payload)

/-- There is no start code in a unit: it would have to begin in the header, whose second byte is not
zero. -/
theorem startCode_not_infix_nalBytes (unitType : UnitType) {temporalId : Nat}
    (ht : temporalId < 7) (payload : Bytes) :
    ¬ startCode <:+: nalBytes unitType temporalId payload := by
  have hsecond := temporalId_byte_ne_zero ht
  have hrest := (startCode_not_infix_cons_of_ne hsecond).2 (startCode_not_infix_escape payload)
  intro h
  obtain h | h := List.infix_cons_iff.1 h
  · obtain ⟨-, h⟩ := startCode_prefix_cons_iff.1 h
    exact hsecond (List.cons_prefix_cons.1 h).1.symm
  · exact hrest h

theorem solid_nalBytes (unitType : UnitType) {temporalId : Nat} (ht : temporalId < 7)
    {payload : Bytes} (hlast : payload.getLast? ≠ some 0) :
    ByteStream.Solid (nalBytes unitType temporalId payload) := by
  have hsecond := temporalId_byte_ne_zero ht
  refine ⟨startCode_not_infix_nalBytes unitType ht payload, ?_, by simp [nalBytes, headerBytes]⟩
  obtain rfl | ⟨front, b, rfl⟩ := List.eq_nil_or_concat payload
  · simpa [nalBytes, headerBytes, Emulation.escape, Emulation.escapeFrom] using hsecond
  · obtain ⟨escaped, hescaped⟩ := escape_concat front b
    rw [nalBytes, List.concat_eq_append, hescaped, ← List.append_assoc, List.getLast?_concat]
    rwa [List.concat_eq_append, List.getLast?_concat] at hlast

theorem getLast?_toBytes_closed {code : Code} {bits : BitString} (h : code.closed = .ok bits) :
    (Bits.toBytes bits).getLast? ≠ some 0 := by
  obtain ⟨front, b, hbytes, hb⟩ := Code.getLast?_closed h
  rw [hbytes]
  simpa using hb

/-- Data that do not end in a zero byte may follow. -/
theorem getLast?_append_data {front data : Bytes} (hfront : front.getLast? ≠ some 0)
    (hdata : data.getLast? ≠ some 0) : (front ++ data).getLast? ≠ some 0 := by
  rw [List.getLast?_append]
  cases h : data.getLast? with
  | none => exact hfront
  | some b => rwa [h] at hdata

/-! ## What can be written -/

theorem Code.concat_ensure_eq_ok {condition : Bool} {w : WriteError} {codes : List Code}
    {bits : BitString} (h : Code.concat (.ensure condition w :: codes) = .ok bits) :
    condition = true ∧ Code.concat codes = .ok bits := by
  cases condition with
  | false => cases h
  | true =>
    refine ⟨rfl, ?_⟩
    have := Code.empty_append (Code.concat codes)
    exact this.symm.trans h

theorem Code.concat_cons_eq_ok {code : Code} {codes : List Code} {bits : BitString}
    (h : Code.concat (code :: codes) = .ok bits) :
    ∃ first later, code = .ok first ∧ Code.concat codes = .ok later := by
  obtain ⟨first, hfirst, h⟩ := bind_eq_ok_iff.1 h
  obtain ⟨later, hlater, -⟩ := bind_eq_ok_iff.1 h
  exact ⟨first, later, hfirst, hlater⟩

theorem Vps.hasExtension_of_encode {v : Vps} {bits : BitString} (h : v.encode = .ok bits) :
    v.hasExtension = false := by
  obtain ⟨_, h, -⟩ := Code.closed_eq_ok h
  simpa using (Code.concat_ensure_eq_ok h).1

theorem Sps.longTerm_of_encode {s : Sps} {bits : BitString} (h : s.encode = .ok bits) :
    s.longTerm = none := by
  obtain ⟨_, h, -⟩ := Code.closed_eq_ok h
  simpa using (Code.concat_ensure_eq_ok h).1

/-- Headers are not written for pictures with features that are not supported. -/
theorem SliceHeader.supported_of_encode {h : SliceHeader} {unitType : UnitType} {sps : Sps}
    {pps : Pps} {t : Target} {bits : BitString} (hbits : h.encode unitType sps pps t = .ok bits) :
    pps.outputFlagPresent = false ∧ sps.format.separatePlanes = false ∧ sps.longTerm = none := by
  obtain ⟨_, h, -⟩ := Code.closed_eq_ok hbits
  obtain ⟨houtput, h⟩ := Code.concat_ensure_eq_ok h
  obtain ⟨hplanes, h⟩ := Code.concat_ensure_eq_ok h
  obtain ⟨hlong, -⟩ := Code.concat_ensure_eq_ok h
  exact ⟨by simpa using houtput, by simpa using hplanes, by simpa using hlong⟩

/-- A segment that is not the first of its picture is written only if its place is in the picture. -/
theorem SliceHeader.place_of_encode {h : SliceHeader} {unitType : UnitType} {sps : Sps} {pps : Pps}
    {t : Target} {bits : BitString} (hbits : h.encode unitType sps pps t = .ok bits)
    (hfirst : t.isFirst = false) : t.x < t.width ∧ t.y < t.height := by
  obtain ⟨_, h, -⟩ := Code.closed_eq_ok hbits
  obtain ⟨-, h⟩ := Code.concat_ensure_eq_ok h
  obtain ⟨-, h⟩ := Code.concat_ensure_eq_ok h
  obtain ⟨-, h⟩ := Code.concat_ensure_eq_ok h
  obtain ⟨_, _, -, h⟩ := Code.concat_cons_eq_ok h
  obtain ⟨_, _, -, h⟩ := Code.concat_cons_eq_ok h
  obtain ⟨_, _, -, h⟩ := Code.concat_cons_eq_ok h
  obtain ⟨_, _, haddress, -⟩ := Code.concat_cons_eq_ok h
  rw [hfirst] at haddress
  simpa using (Code.concat_ensure_eq_ok haddress).1

/-! ## Decoded units -/

/-- What a unit says, apart from where in the payload its parts stand. -/
inductive UnitContent where
  | vps (set : Vps)
  | sps (set : Sps)
  | pps (set : Pps)
  | slice (nalHeader : NalHeader) (header : SliceHeader) (data : Bytes)
  | other (header : NalHeader)
  deriving DecidableEq, Repr

/-- What a decoded unit says. -/
def DecodedUnit.content : DecodedUnit → UnitContent
  | .vps set => .vps set
  | .sps set => .sps set
  | .pps set => .pps set
  | .slice segment => .slice segment.nalHeader segment.header segment.data
  | .other header => .other header

namespace SliceUnit

theorem decode_eq_ok_iff {ctx : Context} {previous : Option SliceHeader} {nalHeader : NalHeader}
    {payload : Bytes} {s : SliceUnit} : decode ctx previous nalHeader payload = .ok s ↔
    ∃ n, (SliceHeader.parse ctx nalHeader.unitType previous).decodeFront payload =
      .ok (s.header, n) ∧ s = ⟨nalHeader, s.header, payload, n / 8⟩ := by
  rw [decode, bind_eq_ok_iff]
  constructor
  · rintro ⟨⟨header, n⟩, hheader, ⟨⟩⟩
    exact ⟨n, hheader, rfl⟩
  · rintro ⟨n, hheader, hs⟩
    exact ⟨(s.header, n), hheader, congrArg Except.ok hs.symm⟩

/-- The slice is in a unit. -/
structure FoundIn (s : SliceUnit) (nal : Bytes) : Prop where
  nalHeader : NalHeader.ofBytes nal = .ok s.nalHeader
  payload : nalPayload nal = .ok s.payload

end SliceUnit

namespace DecoderState

variable {s : DecoderState}

theorem decodeNal_eq_slice_iff {nal : Bytes} {segment : SliceUnit} :
    s.decodeNal nal = .ok (.slice segment) ↔
    segment.FoundIn nal ∧ (segment.nalHeader.layerId = 0 ∧ segment.nalHeader.unitType.isSlice) ∧
      SliceUnit.decode s.ctx s.lastIndependent segment.nalHeader segment.payload = .ok segment := by
  rw [decodeNal_eq_ok_iff]
  constructor
  · rintro ⟨header, hheader, ⟨hlayer, hbase⟩ | ⟨-, hother⟩⟩
    · cases hbase with
      | @slice payload _ hslice hpayload hdecode =>
        obtain ⟨n, -, hs⟩ := SliceUnit.decode_eq_ok_iff.1 hdecode
        obtain rfl : segment.nalHeader = header := by rw [hs]
        obtain rfl : segment.payload = payload := by rw [hs]
        exact ⟨⟨hheader, hpayload⟩, ⟨hlayer, hslice⟩, hdecode⟩
    · cases hother
  · rintro ⟨⟨hheader, hpayload⟩, ⟨hlayer, hslice⟩, hdecode⟩
    exact ⟨_, hheader, .inl ⟨hlayer, .slice hslice hpayload hdecode⟩⟩

theorem decodeNal_nalBytes (unitType : UnitType) (temporalId : Fin 7) (payload : Bytes) :
    s.decodeNal (nalBytes unitType temporalId.val payload) =
      s.decodeBase ⟨unitType, 0, temporalId⟩ (nalBytes unitType temporalId.val payload) := by
  rw [decodeNal, ofBytes_nalBytes]
  rfl

theorem decodeNal_vps {v : Vps} (hv : Vps.parse.ReadsPayload v.encode v) {bits : BitString}
    (hbits : v.encode = .ok bits) :
    s.decodeNal (nalBytes .vps 0 (Bits.toBytes bits)) = .ok (.vps v) := by
  obtain ⟨_, hbits', hdecode⟩ := hv.decode
  obtain rfl := Except.ok.inj (hbits.symm.trans hbits')
  exact (decodeNal_nalBytes .vps 0 _).trans
    (decodeBase_eq_ok_iff.2 (.vps rfl (nalPayload_nalBytes .vps 0 _) hdecode))

theorem decodeNal_sps {code : Code} {sps : Sps} (hsps : Sps.parse.ReadsPayload code sps)
    {bits : BitString} (hbits : code = .ok bits) :
    s.decodeNal (nalBytes .sps 0 (Bits.toBytes bits)) = .ok (.sps sps) := by
  obtain ⟨_, hbits', hdecode⟩ := hsps.decode
  obtain rfl := Except.ok.inj (hbits.symm.trans hbits')
  exact (decodeNal_nalBytes .sps 0 _).trans
    (decodeBase_eq_ok_iff.2 (.sps rfl (nalPayload_nalBytes .sps 0 _) hdecode))

theorem decodeNal_pps {code : Code} {pps : Pps}
    (hpps : (Pps.parse s.ctx.spsById).ReadsPayload code pps) {bits : BitString}
    (hbits : code = .ok bits) :
    s.decodeNal (nalBytes .pps 0 (Bits.toBytes bits)) = .ok (.pps pps) := by
  obtain ⟨_, hbits', hdecode⟩ := hpps.decode
  obtain rfl := Except.ok.inj (hbits.symm.trans hbits')
  exact (decodeNal_nalBytes .pps 0 _).trans
    (decodeBase_eq_ok_iff.2 (.pps rfl (nalPayload_nalBytes .pps 0 _) hdecode))

/-- The data of a slice are where its header ends. -/
theorem decodeNal_slice {unitType : UnitType} (htype : unitType.isSlice = true)
    (temporalId : Fin 7) {code : Code} {header : SliceHeader}
    (hheader : (SliceHeader.parse s.ctx unitType s.lastIndependent).ReadsFront code header)
    {bits : BitString} (hbits : code = .ok bits) (data : Bytes) :
    ∃ segment, s.decodeNal (nalBytes unitType temporalId.val (Bits.toBytes bits ++ data)) =
        .ok (.slice segment) ∧
      segment.nalHeader = ⟨unitType, 0, temporalId⟩ ∧ segment.header = header ∧
      segment.data = data := by
  have hlen : bits.length % 8 = 0 := by
    obtain ⟨_, rfl, -⟩ := hheader
    exact Code.length_closed hbits
  obtain ⟨_, hbits', hdecode⟩ := hheader.decodeFront
  obtain rfl := Except.ok.inj (hbits.symm.trans hbits')
  refine ⟨⟨⟨unitType, 0, temporalId⟩, header, Bits.toBytes bits ++ data, bits.length / 8⟩,
    ?_, rfl, rfl, ?_⟩
  · exact decodeNal_eq_slice_iff.2 ⟨⟨ofBytes_nalBytes unitType temporalId _,
      nalPayload_nalBytes unitType temporalId _⟩, ⟨rfl, htype⟩,
      SliceUnit.decode_eq_ok_iff.2 ⟨_, hdecode data, rfl⟩⟩
  · have := Bits.length_toBytes hlen
    rw [SliceUnit.data, show bits.length / 8 = (Bits.toBytes bits).length by omega,
      List.drop_left]

end DecoderState

end TiledVideo
