import TiledVideo.Proofs.Nal.Sequences
import TiledVideo.Proofs.Slice.Prefixes

/-!
# Access units with other slice data

Nothing that is read of an access unit depends on the data of a slice, apart from these data: not the
header in front of them, which ends before they begin, and not what comes behind, which is read with the
header alone.

Results:

* `SliceUnit.decode_withData`: a slice with other data behind its header.
* `AccessUnit.decode_otherData`: an access unit in which a slice has other data.
* `AccessUnit.exists_otherData`: there is one for all data that do not end in a zero byte.
-/

namespace TiledVideo

/-! ## Slices -/

namespace SliceUnit

/-- The bytes of the header. -/
def front (s : SliceUnit) : Bytes :=
  s.payload.take s.dataOffset

/-- The slice with other data behind its header. -/
def withData (s : SliceUnit) (data : Bytes) : SliceUnit :=
  { s with payload := s.front ++ data }

@[simp] theorem nalHeader_withData (s : SliceUnit) (data : Bytes) :
    (s.withData data).nalHeader = s.nalHeader := rfl

@[simp] theorem header_withData (s : SliceUnit) (data : Bytes) :
    (s.withData data).header = s.header := rfl

theorem withData_data (s : SliceUnit) : s.withData s.data = s := by
  rw [withData, front, data, List.take_append_drop]

theorem data_withData {s : SliceUnit} (h : s.dataOffset = s.front.length) (data : Bytes) :
    (s.withData data).data = data := by
  rw [SliceUnit.data, withData, h, List.drop_left]

variable {ctx : Context} {previous : Option SliceHeader} {nalHeader : NalHeader} {payload : Bytes}
  {s : SliceUnit}

/-- The header ends with a byte, and its bits are those of the bytes in front of the data. -/
theorem decodeFront_of_decode (h : decode ctx previous nalHeader payload = .ok s) :
    (SliceHeader.parse ctx nalHeader.unitType previous).decodeFront (s.front ++ s.data) =
        .ok (s.header, 8 * s.front.length) ∧
      s.dataOffset = s.front.length ∧ s.front.getLast? ≠ some 0 := by
  obtain ⟨n, hheader, hs⟩ := decode_eq_ok_iff.1 h
  obtain ⟨hlength, hlast⟩ :=
    (SliceHeader.closesByte_parse ctx nalHeader.unitType previous).front hheader
  have hfront : s.front = payload.take (n / 8) := by rw [hs]; rfl
  have hpayload : s.payload = payload := by rw [hs]
  rw [front, data, List.take_append_drop, ← front, hpayload, hfront, ← hlength]
  refine ⟨hheader, ?_, hlast⟩
  rw [hs]
  dsimp only
  omega

/-- A slice with other data is read with the same header. -/
theorem decode_withData (h : decode ctx previous nalHeader payload = .ok s) (data : Bytes) :
    decode ctx previous nalHeader (s.front ++ data) = .ok (s.withData data) := by
  obtain ⟨hheader, hoffset, -⟩ := decodeFront_of_decode h
  obtain ⟨n, -, hs⟩ := decode_eq_ok_iff.1 h
  refine decode_eq_ok_iff.2 ⟨_, (SliceHeader.closesByte_parse ctx nalHeader.unitType
    previous).isLocal.decodeFront hheader data, ?_⟩
  have hnal : s.nalHeader = nalHeader := by rw [hs]
  rw [withData, hnal, hoffset]
  congr 1
  omega

end SliceUnit

/-! ## Units -/

namespace DecoderState

variable {s e : DecoderState} {nal : Bytes} {segment : SliceUnit}

theorem decodeNal_withData (h : s.decodeNal nal = .ok (.slice segment)) {data : Bytes} {nal' : Bytes}
    (hnal : (segment.withData data).FoundIn nal') :
    s.decodeNal nal' = .ok (.slice (segment.withData data)) := by
  obtain ⟨-, hslice, hdecode⟩ := decodeNal_eq_slice_iff.1 h
  exact decodeNal_eq_slice_iff.2 ⟨hnal, hslice, SliceUnit.decode_withData hdecode data⟩

theorem length_of_decodeNals {nals : List Bytes} {units : List DecodedUnit}
    (h : s.decodeNals nals = .ok (units, e)) : units.length = nals.length := by
  induction nals generalizing s units with
  | nil =>
    cases h
    rfl
  | cons nal nals ih =>
    obtain ⟨unit, later, -, hlater, rfl⟩ := decodeNals_cons_eq_ok_iff.1 h
    exact congrArg (· + 1) (ih hlater)

/-- What is behind a unit is read as the units in front and the unit itself leave it. -/
theorem decodeNals_through {front : List Bytes} {units : List DecodedUnit}
    (hfront : s.decodeNals front = .ok (units, e)) {unit : DecodedUnit}
    (hnal : e.decodeNal nal = .ok unit) (back : List Bytes) :
    s.decodeNals (front ++ nal :: back) =
      (fun r => (units ++ unit :: r.1, r.2)) <$> (e.after unit).decodeNals back := by
  rw [decodeNals_append, hfront]
  show (e.decodeNals (nal :: back) >>= _) = _
  rw [decodeNals, hnal]
  show (((e.after unit).decodeNals back >>= _) >>= _) = _
  cases (e.after unit).decodeNals back <;> rfl

end DecoderState

/-! ## Access units -/

/-- A unit of a byte string is read as a slice, and the units in front of it as `before`. -/
structure SliceAt (c : Context) (bytes : Bytes) (before : List DecodedUnit) (segment : SliceUnit) :
    Prop where
  startCode : ByteStream.hasStartCode bytes = true
  read : ∃ front nal back s, ByteStream.nals bytes = front ++ nal :: back ∧
    (DecoderState.start c).decodeNals front = .ok (before, s) ∧ s.decodeNal nal = .ok (.slice segment)

theorem SliceAt.dataOffset {c : Context} {bytes : Bytes} {before : List DecodedUnit}
    {segment : SliceUnit} (h : SliceAt c bytes before segment) :
    segment.dataOffset = segment.front.length := by
  obtain ⟨_, _, _, _, -, -, hslice⟩ := h.read
  exact (SliceUnit.decodeFront_of_decode (DecoderState.decodeNal_eq_slice_iff.1 hslice).2.2).2.1

/-- A byte string has the units of another, but at one place there is a slice with other data. -/
structure OtherData (bytes : Bytes) (i : Nat) (segment : SliceUnit) (data bytes' : Bytes) : Prop where
  startCode : ByteStream.hasStartCode bytes' = true
  units : ∃ nal, (segment.withData data).FoundIn nal ∧
    ByteStream.nals bytes' = (ByteStream.nals bytes).set i nal

namespace AccessUnit

variable {c : Context} {bytes : Bytes} {before : List DecodedUnit} {segment : SliceUnit}

theorem decode_of_startCode (h : ByteStream.hasStartCode bytes = true) :
    decode c bytes = (fun r => (⟨r.1⟩, r.2.ctx)) <$>
      (DecoderState.start c).decodeNals (ByteStream.nals bytes) := by
  rw [decode, ByteStream.units_eq_ok_iff.2 ⟨h, rfl⟩]
  show ((DecoderState.start c).decodeNals (ByteStream.nals bytes) >>= _) = _
  cases (DecoderState.start c).decodeNals (ByteStream.nals bytes) <;> rfl

/-- With other data for a slice, an access unit is read with the same units and parameter sets, or fails
in the same way. -/
theorem decode_otherData (h : SliceAt c bytes before segment) {data bytes' : Bytes}
    (hother : OtherData bytes before.length segment data bytes') :
    (∀ e, decode c bytes = .error e → decode c bytes' = .error e) ∧
    ∀ au c', decode c bytes = .ok (au, c') → ∃ back, au = ⟨before ++ .slice segment :: back⟩ ∧
      decode c bytes' = .ok (⟨before ++ .slice (segment.withData data) :: back⟩, c') := by
  obtain ⟨hstart, front, nal, back, s, hnals, hfront, hslice⟩ := h
  obtain ⟨hstart', nal', hfound, hnals'⟩ := hother
  have hlength := DecoderState.length_of_decodeNals hfront
  have hset : (front ++ nal :: back).set before.length nal' = front ++ nal' :: back := by
    rw [hlength, List.set_append_right _ _ (Nat.le_refl _), Nat.sub_self, List.set_cons_zero]
  -- what is behind the slice depends on its header, and that is the same
  have hafter : s.after (.slice (segment.withData data)) = s.after (.slice segment) := rfl
  rw [decode_of_startCode hstart, decode_of_startCode hstart', hnals', hnals, hset,
    DecoderState.decodeNals_through hfront hslice,
    DecoderState.decodeNals_through hfront (DecoderState.decodeNal_withData hslice hfound), hafter]
  cases (s.after (.slice segment)).decodeNals back with
  | error e => exact ⟨fun _ h => h, nofun⟩
  | ok later =>
    refine ⟨nofun, fun au c' hau => ?_⟩
    cases hau
    exact ⟨later.1, rfl, rfl⟩

/-- The units of a byte string can be put together again with other data for a slice. -/
theorem exists_otherData (h : SliceAt c bytes before segment) {data : Bytes}
    (hdata : data.getLast? ≠ some 0) :
    ∃ bytes', OtherData bytes before.length segment data bytes' := by
  obtain ⟨hstart, front, nal, back, s, hnals, hfront, hslice⟩ := h
  obtain ⟨-, ⟨hlayer, -⟩, hdecode⟩ := DecoderState.decodeNal_eq_slice_iff.1 hslice
  obtain ⟨-, -, hlast⟩ := SliceUnit.decodeFront_of_decode hdecode
  let nal' := nalBytes segment.nalHeader.unitType segment.nalHeader.temporalId.val
    (segment.front ++ data)
  have hfound : (segment.withData data).FoundIn nal' := by
    refine ⟨(ofBytes_nalBytes _ _ _).trans ?_, nalPayload_nalBytes _ _ _⟩
    rw [← hlayer]
    rfl
  have hsolid : ∀ other ∈ (ByteStream.nals bytes).set before.length nal', ByteStream.Solid other := by
    intro other hother
    obtain hother | rfl := List.mem_or_eq_of_mem_set hother
    · obtain ⟨u, hu, rfl⟩ := List.mem_map.1 hother
      exact (ByteStream.mem_units (ByteStream.units_eq_ok_iff.2 ⟨hstart, rfl⟩) hu).1
    · exact solid_nalBytes _ segment.nalHeader.temporalId.isLt (getLast?_append_data hlast hdata)
  have hne : (ByteStream.nals bytes).set before.length nal' ≠ [] := by
    rw [hnals, ne_eq, List.set_eq_nil_iff]
    simp
  obtain ⟨hstart', hunits⟩ := ByteStream.units_eq_ok_iff.1 (ByteStream.units_framedAll hne hsolid)
  refine ⟨ByteStream.framedAll ((ByteStream.nals bytes).set before.length nal'), hstart', nal', hfound,
    ?_⟩
  rw [ByteStream.nals, hunits, List.map_map]
  exact List.map_id _

end AccessUnit

end TiledVideo
