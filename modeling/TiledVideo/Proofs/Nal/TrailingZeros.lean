import TiledVideo.Proofs.Nal.DecodedSets
import TiledVideo.Proofs.Nal.Seams

/-!
# Zero bytes at the end of slice data

Zero bytes at the end of a unit cannot be told from zero bytes behind it, and a writer does not close
them with a byte `03`. So whoever reads a slice back loses some of the zero bytes at the end of its
data: the escaped data are cut behind the last `03`, which comes after every second zero byte that
has another one behind it.

Results:

* `kept`: what is read back of data; `kept_eq_self_iff`: all of them unless they end in a zero byte.
* `unescape_trimmed`: what an escaped payload says when the zero bytes at its end are left out.
* `slice_decoded_kept`: a slice is decoded with what is kept of its data.
-/

namespace TiledVideo

namespace ByteStream

/-! ## What is kept of data -/

/-- The number of zero bytes at the end. -/
def endZeros (bytes : Bytes) : Nat :=
  (bytes.rtakeWhile (· == 0)).length

/-- What is read back of data: of the zero bytes at the end, those in front of the last byte `03`. -/
def kept (bytes : Bytes) : Bytes :=
  trimZeros bytes ++ List.replicate (2 * ((endZeros bytes - 1) / 2)) 0

theorem trimZeros_append_endZeros (bytes : Bytes) :
    trimZeros bytes ++ List.replicate (endZeros bytes) 0 = bytes := by
  have hzeros : bytes.rtakeWhile (· == 0) = List.replicate (endZeros bytes) 0 := by
    refine List.eq_replicate_iff.2 ⟨rfl, ?_⟩
    intro b hb
    simpa using List.mem_rtakeWhile_imp hb
  rw [← hzeros]
  exact List.rdropWhile_append_rtakeWhile

theorem endZeros_eq_zero_iff {bytes : Bytes} : endZeros bytes = 0 ↔ bytes.getLast? ≠ some 0 := by
  have hsplit := trimZeros_append_endZeros bytes
  constructor
  · intro h
    rw [h, List.replicate_zero, List.append_nil] at hsplit
    rw [← hsplit]
    exact getLast?_trimZeros bytes
  · intro h
    by_contra hne
    refine h ?_
    rw [← hsplit, List.getLast?_append, List.getLast?_replicate, if_neg hne]
    rfl

/-- All is kept unless there are zero bytes at the end. -/
theorem kept_eq_self_iff {bytes : Bytes} : kept bytes = bytes ↔ bytes.getLast? ≠ some 0 := by
  have hsplit := trimZeros_append_endZeros bytes
  rw [← endZeros_eq_zero_iff]
  constructor
  · intro h
    have hlen := congrArg List.length (h.trans hsplit.symm)
    simp only [kept, List.length_append, List.length_replicate] at hlen
    omega
  · intro h
    rw [kept, h, show 2 * ((0 - 1) / 2) = 0 from rfl, ← h, hsplit]

/-- What is in front of data stays. -/
theorem kept_append {front : Bytes} (hfront : front.getLast? ≠ some 0) (data : Bytes) :
    kept (front ++ data) = front ++ kept data := by
  have hsplit := trimZeros_append_endZeros data
  have hlast : (front ++ trimZeros data).getLast? ≠ some 0 :=
    getLast?_append_data hfront (getLast?_trimZeros data)
  have hjoin : front ++ data = front ++ trimZeros data ++ List.replicate (endZeros data) 0 := by
    rw [List.append_assoc, hsplit]
  have htrim : trimZeros (front ++ data) = front ++ trimZeros data := by
    rw [hjoin]
    exact trimZeros_append_zeros hlast _
  have hend : endZeros (front ++ data) = endZeros data := by
    have hlen := congrArg List.length (trimZeros_append_endZeros (front ++ data))
    have hlen' := congrArg List.length hsplit
    simp only [htrim, List.length_append, List.length_replicate] at hlen hlen'
    omega
  rw [kept, htrim, hend, List.append_assoc, kept]

end ByteStream

/-! ## Zero bytes at the end of a payload -/

namespace Emulation

open ByteStream

/-- A byte `03` ends the escaped zero bytes that come before it. -/
theorem escapeFrom_zeros (rest : Bytes) :
    escapeFrom 0 (0 :: 0 :: 0 :: rest) = [0, 0, 3] ++ escapeFrom 0 (0 :: rest) := by
  simp [escapeFrom]

/-- Zero bytes without the last one or two, each two of them with the byte `03` behind them. -/
def closedZeros : Nat → Bytes
  | 0 => []
  | n + 1 => [0, 0, 3] ++ closedZeros n

theorem escapeFrom_replicate (n : Nat) {r : Nat} (h : r = 1 ∨ r = 2) :
    escapeFrom 0 (List.replicate (2 * n + r) 0) = closedZeros n ++ List.replicate r 0 := by
  induction n with
  | zero => rcases h with rfl | rfl <;> rfl
  | succ n ih =>
    have hsplit : List.replicate (2 * (n + 1) + r) (0 : UInt8) =
        0 :: 0 :: 0 :: List.replicate (2 * n + r - 1) 0 := by
      rw [show 2 * (n + 1) + r = 2 * n + r - 1 + 1 + 1 + 1 by omega]
      rfl
    have hback : (0 : UInt8) :: List.replicate (2 * n + r - 1) 0 = List.replicate (2 * n + r) 0 := by
      rw [← List.replicate_succ, show 2 * n + r - 1 + 1 = 2 * n + r by omega]
    rw [hsplit, escapeFrom_zeros, hback, ih, closedZeros, List.append_assoc]

theorem unescape_closedZeros (n : Nat) : unescape (closedZeros n) = List.replicate (2 * n) 0 := by
  induction n with
  | zero => rfl
  | succ n ih =>
    show 0 :: 0 :: unescape (closedZeros n) = _
    rw [ih]
    rfl

theorem getLast?_closedZeros (n : Nat) : (closedZeros n).getLast? ≠ some 0 := by
  induction n with
  | zero => decide
  | succ n ih => exact getLast?_append_data (by decide) ih

theorem zerosAfter_of_getLast? {zeros : Nat} {s : Bytes} (hs : s ≠ [])
    (h : s.getLast? ≠ some 0) : zerosAfter zeros s = 0 := by
  obtain ⟨front, b, rfl⟩ := (List.eq_nil_or_concat s).resolve_left hs
  rw [List.concat_eq_append, List.getLast?_concat] at h
  rw [List.concat_eq_append, zerosAfter_append]
  have hb : b ≠ 0 := by simpa using h
  simp [zerosAfter, hb]

theorem zerosAfter_zero {s : Bytes} (h : s.getLast? ≠ some 0) : zerosAfter 0 s = 0 := by
  by_cases hs : s = []
  · rw [hs]
    rfl
  · exact zerosAfter_of_getLast? hs h

/-- What is behind a byte string that does not end in a zero byte is escaped on its own. -/
theorem escape_append {front : Bytes} (h : front.getLast? ≠ some 0) (data : Bytes) :
    escape (front ++ data) = escape front ++ escape data := by
  rw [escape, escapeFrom_append, zerosAfter_zero h]
  rfl

/-- What is behind a byte string that does not end in a zero byte is read on its own. -/
theorem unescape_escapeFrom_append (zeros : Nat) (hz : zeros ≤ 2) (s : Bytes)
    (h : zerosAfter zeros s = 0) (rest : Bytes) :
    unescape (List.replicate zeros 0 ++ escapeFrom zeros s ++ rest) =
      List.replicate zeros 0 ++ s ++ unescape rest := by
  induction s generalizing zeros with
  | nil =>
    obtain rfl : zeros = 0 := h
    rfl
  | cons b s ih =>
    have ih0 := ih 0 (by omega)
    have ih1 := ih 1 (by omega)
    have ih2 := ih 2 (by omega)
    by_cases hb : b = 0
    · subst hb
      obtain rfl | rfl | rfl : zeros = 0 ∨ zeros = 1 ∨ zeros = 2 := by omega
      · exact ih1 h
      · exact ih2 h
      · exact congrArg (0 :: 0 :: ·) (ih1 h)
    · have h0 : zerosAfter 0 s = 0 := by simpa [zerosAfter, hb] using h
      have ih0 := ih0 h0
      rw [List.replicate_zero, List.nil_append, List.nil_append] at ih0
      obtain rfl | rfl | rfl : zeros = 0 ∨ zeros = 1 ∨ zeros = 2 := by omega
      · simp [escapeFrom, hb, unescape_cons_of_ne_zero, ih0]
      · simp [escapeFrom, hb, unescape_zero_cons, ih0]
      · by_cases h4 : b < 4
        · simp [escapeFrom, hb, h4, unescape, unescape_cons_of_ne_zero, ih0]
        · have h4' : 4 ≤ b := by simpa using h4
          simp [escapeFrom, hb, h4, unescape_zero_zero_cons h4', ih0]

/-- An escaped payload without the zero bytes at its end says what is kept of the payload. -/
theorem unescape_trimmed (payload : Bytes) :
    unescape (trimZeros (escape payload)) = kept payload := by
  have hlast := getLast?_trimZeros payload
  have hsplit := trimZeros_append_endZeros payload
  have hafter : zerosAfter 0 (trimZeros payload) = 0 := zerosAfter_zero hlast
  have hescape := escape_append hlast (List.replicate (endZeros payload) 0)
  rw [hsplit] at hescape
  have hfront : (escape (trimZeros payload)).getLast? ≠ some 0 := by
    rcases List.eq_nil_or_concat (trimZeros payload) with hnil | ⟨front, b, hconcat⟩
    · rw [hnil]
      decide
    · rw [hconcat, List.concat_eq_append] at hlast ⊢
      obtain ⟨escaped, hescaped⟩ := escape_concat front b
      rw [hescaped, List.getLast?_concat]
      rwa [List.getLast?_concat] at hlast
  -- all but the last one or two of the zero bytes are closed by a byte `03`
  obtain ⟨n, r, hn, hr⟩ : ∃ n r, escape (List.replicate (endZeros payload) 0) =
      closedZeros n ++ List.replicate r 0 ∧ n = (endZeros payload - 1) / 2 := by
    by_cases hzero : endZeros payload = 0
    · exact ⟨0, 0, by rw [hzero]; rfl, by omega⟩
    · refine ⟨(endZeros payload - 1) / 2, endZeros payload - 2 * ((endZeros payload - 1) / 2), ?_,
        rfl⟩
      rw [← escapeFrom_replicate _ (by omega)]
      congr 2
      omega
  rw [hescape, hn, ← List.append_assoc,
    trimZeros_append_zeros (getLast?_append_data hfront (getLast?_closedZeros n)), kept, ← hr,
    ← unescape_closedZeros]
  exact unescape_escapeFrom_append 0 (by omega) _ hafter _

end Emulation

open ByteStream

/-! ## Units with zero bytes at the end -/

/-- A unit is found without the zero bytes at its end, and then says what is kept of it. -/
theorem trimZeros_nalBytes (unitType : UnitType) (temporalId : Fin 7) (payload : Bytes) :
    Solid (trimZeros (nalBytes unitType temporalId.val payload)) ∧
      NalHeader.ofBytes (trimZeros (nalBytes unitType temporalId.val payload)) =
        .ok ⟨unitType, 0, temporalId⟩ ∧
      nalPayload (trimZeros (nalBytes unitType temporalId.val payload)) = .ok (kept payload) := by
  have hsecond := temporalId_byte_ne_zero temporalId.isLt
  have hheader : (headerBytes unitType temporalId.val).getLast? ≠ some 0 := by
    simpa [headerBytes] using hsecond
  -- the second header byte is not zero
  have htrim : trimZeros (nalBytes unitType temporalId.val payload) =
      headerBytes unitType temporalId.val ++ trimZeros (Emulation.escape payload) := by
    have hsplit := trimZeros_append_endZeros (Emulation.escape payload)
    rw [nalBytes, ← hsplit, ← List.append_assoc, trimZeros_append_replicate,
      trimZeros_append_replicate]
    have hlast := getLast?_append_data hheader (getLast?_trimZeros (Emulation.escape payload))
    have htrim := trimZeros_append_zeros hlast 0
    have hagain := trimZeros_append_zeros (getLast?_trimZeros (Emulation.escape payload)) 0
    rw [List.replicate_zero, List.append_nil] at htrim hagain
    rw [htrim, hagain]
  refine ⟨⟨?_, getLast?_trimZeros _, ?_⟩, ?_, ?_⟩
  · intro h
    refine startCode_not_infix_nalBytes unitType temporalId.isLt payload (h.trans ?_)
    exact ⟨[], _, trimZeros_append_endZeros _⟩
  · rw [htrim]
    simp [headerBytes]
  · rw [htrim, headerBytes_eq, NalHeader.ofBytes_toBytes]
  · rw [htrim, nalPayload, if_neg (by simp [headerBytes, nalHeaderLength])]
    exact congrArg Except.ok (Emulation.unescape_trimmed payload)

/-- A unit is decoded by its header and its payload alone. -/
theorem DecoderState.decodeNal_congr {s : DecoderState} {a b : Bytes}
    (hheader : NalHeader.ofBytes a = NalHeader.ofBytes b) (hpayload : nalPayload a = nalPayload b) :
    s.decodeNal a = s.decodeNal b := by
  simp only [decodeNal, decodeBase, hheader, hpayload]

/-- A slice is decoded as what its header reads back as, with what is kept of its data. -/
theorem slice_decoded_kept {s : DecoderState} {segment : SliceUnit}
    (hunit : segment.nalHeader.layerId = 0 ∧ segment.nalHeader.unitType.isSlice = true)
    {code : Code} {header : SliceHeader}
    (hread : (SliceHeader.parse s.ctx segment.nalHeader.unitType s.lastIndependent).ReadsFront
      code header) {bits : BitString} (hbits : code = .ok bits) :
    ∃ nal zeros got, nalBytes segment.nalHeader.unitType segment.nalHeader.temporalId.val
        (Bits.toBytes bits ++ segment.data) = nal ++ List.replicate zeros 0 ∧ Solid nal ∧
      s.decodeNal nal = .ok (.slice got) ∧ (DecodedUnit.slice got).content =
        .slice segment.nalHeader header (kept segment.data) := by
  obtain ⟨hlayer, hslice⟩ := hunit
  have hlast : (Bits.toBytes bits).getLast? ≠ some 0 := by
    obtain ⟨_, rfl, -⟩ := hread
    exact getLast?_toBytes_closed hbits
  obtain ⟨hsolid, hheader, hpayload⟩ := trimZeros_nalBytes segment.nalHeader.unitType
    segment.nalHeader.temporalId (Bits.toBytes bits ++ segment.data)
  obtain ⟨got, hdecode, hgotHeader, hgot, hgotData⟩ :=
    DecoderState.decodeNal_slice hslice segment.nalHeader.temporalId hread hbits
      (kept segment.data)
  have hnal : segment.nalHeader =
      ⟨segment.nalHeader.unitType, 0, segment.nalHeader.temporalId⟩ := by rw [← hlayer]
  refine ⟨_, _, got, (trimZeros_append_endZeros _).symm, hsolid, ?_, ?_⟩
  · rw [← hdecode]
    refine DecoderState.decodeNal_congr (hheader.trans (ofBytes_nalBytes _ _ _).symm) ?_
    rw [hpayload, kept_append hlast, nalPayload_nalBytes]
  · rw [DecodedUnit.content, hgotHeader, hgot, hgotData, ← hnal]

/-! ## Packets -/

/-- Bytes are units with long start codes that can all be found again. -/
def Framed (bytes : Bytes) : Prop :=
  ∃ nals, bytes = framedAll nals ∧ ∀ nal ∈ nals, Solid nal

theorem Framed.nil : Framed [] :=
  ⟨[], rfl, by simp⟩

theorem Framed.single {nal : Bytes} (h : Solid nal) : Framed (framedAll [nal]) :=
  ⟨[nal], rfl, by simpa using h⟩

theorem Framed.append {a b : Bytes} (ha : Framed a) (hb : Framed b) : Framed (a ++ b) := by
  obtain ⟨nals, rfl, hnals⟩ := ha
  obtain ⟨nals', rfl, hnals'⟩ := hb
  refine ⟨nals ++ nals', by rw [framedAll, framedAll, framedAll, List.flatMap_append], ?_⟩
  intro nal hnal
  rcases List.mem_append.1 hnal with hnal | hnal
  · exact hnals nal hnal
  · exact hnals' nal hnal

namespace AccessUnit

theorem decode_append_zeros (ctx : Context) (bytes : Bytes) (n : Nat) :
    decode ctx (bytes ++ List.replicate n 0) = decode ctx bytes := by
  simp only [decode, units_append_zeros]

/-- A decoder with the sets `c` reads what is in front of a slice, which may be nothing, and then has
the sets `c'`. -/
def Reads (c : Context) (front : Bytes) (units : List DecodedUnit) (c' : Context) : Prop :=
  (front = [] ∧ units = [] ∧ c' = c) ∨ decode c front = .ok (⟨units⟩, c')

theorem Reads.decodeNals {c c' : Context} {nals : List Bytes} {units : List DecodedUnit}
    (h : Reads c (framedAll nals) units c') (hsolid : ∀ nal ∈ nals, Solid nal) :
    ∃ last, (DecoderState.start c).decodeNals nals = .ok (units, last) ∧ last.ctx = c' := by
  by_cases hne : nals = []
  · subst hne
    rcases h with ⟨-, rfl, rfl⟩ | h
    · exact ⟨_, rfl, rfl⟩
    · cases h
  · rcases h with ⟨hnil, -⟩ | h
    · obtain ⟨nal, nals, rfl⟩ := List.exists_cons_of_ne_nil hne
      cases hnil
    · obtain ⟨found, hfound, h⟩ := bind_eq_ok_iff.1 h
      obtain ⟨⟨units', last⟩, hunits, h⟩ := bind_eq_ok_iff.1 h
      cases h
      rw [units_framedAll hne hsolid] at hfound
      cases hfound
      refine ⟨last, ?_, rfl⟩
      simpa [List.map_map, Function.comp_def] using hunits

/-- A decoder has the parameter sets with which a slice was written for `t` in force, and the slice
could be read with them. -/
structure Holds (c : Context) (segment : SliceUnit) (sps : Sps) (pps : Pps)
    (t : SliceHeader.Target) : Prop where
  ppsKnown : c.ppsById segment.header.ppsId = some (pps.asWritten t.tiles)
  spsKnown : c.spsOf (pps.asWritten t.tiles) = some (sps.resized t.width t.height).asWritten
  legible : segment.header.Legible segment.nalHeader.unitType sps pps
  place : t.InPicture
  entryPoints : (t.tiles.apply pps.partition).hasEntryPoints = true →
    (segment.header.entryPoints.getD .none).offsetsMinus1.length ≤
      (sps.resized t.width t.height).sizeInCtbs

/-- A packet of whole units and a slice behind them is read back to its end, with what is kept of the
data of the slice. -/
theorem decode_readBack {c c' : Context} {front : Bytes} (hfront : Framed front)
    {units : List DecodedUnit} (hreads : Reads c front units c') {segment : SliceUnit}
    (hunit : segment.nalHeader.layerId = 0 ∧ segment.nalHeader.unitType.isSlice = true)
    {sps : Sps} {pps : Pps} {t : SliceHeader.Target} (hindependent : t.independent = true)
    (h : Holds c' segment sps pps t) {own : BitStream}
    (hown : BitStream.empty.slice segment sps pps t = .ok own) :
    ∃ got, decode c (front ++ own.out.bytes) = .ok (⟨units ++ [.slice got]⟩, c') ∧
      (DecodedUnit.slice got).content = .slice segment.nalHeader
        (segment.header.asWritten sps pps t) (kept segment.data) := by
  obtain ⟨nals, rfl, hsolid⟩ := hfront
  obtain ⟨last, hunits, rfl⟩ := hreads.decodeNals hsolid
  rw [BitStream.slice_eq rfl] at hown
  obtain ⟨bits, hbits, rfl⟩ := map_eq_ok_iff.1 hown
  obtain ⟨houtput, hplanes, hlong⟩ := SliceHeader.supported_of_encode hbits
  have hread : (SliceHeader.parse last.ctx segment.nalHeader.unitType last.lastIndependent).ReadsFront
      (segment.header.encode segment.nalHeader.unitType sps pps t)
      (segment.header.asWritten sps pps t) :=
    SliceHeader.reads h.legible h.place hindependent houtput hplanes hlong h.ppsKnown h.spsKnown
      h.entryPoints
  obtain ⟨nal, zeros, got, hnal, hnalSolid, hgot, hcontent⟩ := slice_decoded_kept hunit hread hbits
  refine ⟨got, ?_, hcontent⟩
  have hall : (DecoderState.start c).decodeNals (nals ++ [nal]) =
      .ok (units ++ [.slice got], last.after (.slice got)) := by
    rw [DecoderState.decodeNals_append, hunits]
    show (last.decodeNals [nal] >>= _) = _
    rw [DecoderState.decodeNals, hgot]
    rfl
  have hbytes : framedAll nals ++ (BitStream.empty.withUnit segment.nalHeader.unitType
      segment.nalHeader.temporalId.val (Bits.toBytes bits ++ segment.data)).out.bytes =
      framedAll (nals ++ [nal]) ++ List.replicate zeros 0 := by
    simp [framedAll, framedBytes, BitStream.empty, hnal]
  rw [hbytes, decode_append_zeros, decode_framedAll (by simp) ?_ hall, last.after_slice_ctx]
  intro n hn
  rcases List.mem_append.1 hn with hn | hn
  · exact hsolid n hn
  · rwa [List.mem_singleton.1 hn]

end AccessUnit

end TiledVideo
