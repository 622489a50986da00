import Mathlib.Logic.Relation
import TiledVideo.Proofs.Nal.Sequences

/-!
# Units that are not decoded

Units of other layers, slices of reserved types and units of types above those of the parameter sets are
passed over. If one is put in between the units of an access unit, all others are read as they were, and
with the same parameter sets in force.

Results:

* `DecoderState.decodeNal_eq_other_iff`: which units are passed over.
* `ByteStream.Inserts.nals`: the units of a byte stream that a unit is put into.
* `AccessUnit.decode_inserts`: what is read of an access unit that such a unit is put into.
-/

namespace TiledVideo

/-! ## Units -/

namespace NalHeader

/-- Units with the header are not decoded. -/
def Inert (h : NalHeader) : Prop :=
  h.layerId ≠ 0 ∨ h.unitType.isReservedVcl = true ∨ 35 ≤ h.unitType.id.val

instance (h : NalHeader) : Decidable h.Inert :=
  inferInstanceAs (Decidable (_ ∨ _ ∨ _))

/-- In the base layer these are all types but those of parameter sets and of slices that are decoded. -/
theorem inert_iff {h : NalHeader} : h.Inert ↔ h.layerId ≠ 0 ∨
    (h.unitType ≠ .vps ∧ h.unitType ≠ .sps ∧ h.unitType ≠ .pps ∧ h.unitType.isSlice = false) := by
  obtain ⟨⟨⟨id, hid⟩⟩, layerId, temporalId⟩ := h
  refine or_congr_right ?_
  simp only [UnitType.isReservedVcl, UnitType.isSlice, UnitType.isVcl, UnitType.vps, UnitType.sps,
    UnitType.pps, ne_eq, UnitType.mk.injEq, Fin.ext_iff, Bool.or_eq_true, Bool.and_eq_true,
    decide_eq_true_eq, Bool.and_eq_false_iff, Bool.not_eq_false', decide_eq_false_iff_not]
  omega

end NalHeader

/-- A unit is of the kind that its header announces. -/
def DecodedUnit.AnnouncedBy (header : NalHeader) : DecodedUnit → Prop
  | .vps _ => header.layerId = 0 ∧ header.unitType = .vps
  | .sps _ => header.layerId = 0 ∧ header.unitType = .sps
  | .pps _ => header.layerId = 0 ∧ header.unitType = .pps
  | .slice _ => header.layerId = 0 ∧ header.unitType.isSlice = true
  | .other h => h = header ∧ header.Inert

namespace DecoderState

variable {s e : DecoderState} {header : NalHeader} {nal : Bytes} {unit : DecodedUnit}
  {units : List DecodedUnit} {nals front back : List Bytes}

theorem announced_of_decodeNal (h : s.decodeNal nal = .ok unit) :
    ∃ header, NalHeader.ofBytes nal = .ok header ∧ unit.AnnouncedBy header := by
  obtain ⟨header, hheader, ⟨hlayer, hbase⟩ | ⟨hlayer, rfl⟩⟩ := decodeNal_eq_ok_iff.1 h
  · refine ⟨header, hheader, ?_⟩
    cases hbase with
    | vps htype hpayload hset => exact ⟨hlayer, htype⟩
    | sps htype hpayload hset => exact ⟨hlayer, htype⟩
    | pps htype hpayload hset => exact ⟨hlayer, htype⟩
    | slice htype hpayload hsegment => exact ⟨hlayer, htype⟩
    | other htype => exact ⟨rfl, NalHeader.inert_iff.2 (.inr htype)⟩
  · exact ⟨header, hheader, rfl, .inl hlayer⟩

/-- Exactly the units that are announced as such are passed over, whatever is in them. -/
theorem decodeNal_eq_other_iff : s.decodeNal nal = .ok (.other header) ↔
    NalHeader.ofBytes nal = .ok header ∧ header.Inert := by
  constructor
  · intro h
    obtain ⟨_, hheader, rfl, hinert⟩ := announced_of_decodeNal h
    exact ⟨hheader, hinert⟩
  · rintro ⟨hheader, hinert⟩
    refine decodeNal_eq_ok_iff.2 ⟨header, hheader, ?_⟩
    by_cases hlayer : header.layerId = 0
    · have htype := (NalHeader.inert_iff.1 hinert).resolve_left fun hne => hne hlayer
      exact .inl ⟨hlayer, .other htype⟩
    · exact .inr ⟨hlayer, rfl⟩

/-- The last of some units is read from the last of what they are in. -/
theorem getLast?_of_decodeNals (h : s.decodeNals nals = .ok (units, e))
    (hlast : units.getLast? = some unit) :
    ∃ nal s₁, nals.getLast? = some nal ∧ decodeNal s₁ nal = .ok unit := by
  obtain rfl | ⟨front, nal, rfl⟩ := List.eq_nil_or_concat nals
  · cases h
    cases hlast
  · rw [List.concat_eq_append] at h ⊢
    obtain ⟨us, vs, s₁, -, hnal, rfl⟩ := decodeNals_append_eq_ok_iff.1 h
    obtain ⟨last, _, hunit, ⟨⟩, rfl⟩ := decodeNals_cons_eq_ok_iff.1 hnal
    rw [List.getLast?_concat, Option.some.injEq] at hlast
    exact ⟨nal, s₁, List.getLast?_concat, hlast ▸ hunit⟩

end DecoderState

/-- The unit is a sequence parameter set of the base layer. -/
def isBaseSps (nal : Bytes) : Bool :=
  match NalHeader.ofBytes nal with
  | .ok header => header.layerId = 0 && header.unitType = .sps
  | .error _ => false

theorem isBaseSps_of_decodeNal {s : DecoderState} {nal : Bytes} {set : Sps}
    (h : s.decodeNal nal = .ok (.sps set)) : isBaseSps nal = true := by
  obtain ⟨header, hheader, hlayer, htype⟩ := DecoderState.announced_of_decodeNal h
  rw [isBaseSps, hheader]
  simp [hlayer, htype]

/-- There is a unit that is not decoded among the others, and not directly behind a sequence parameter
set. -/
def GainsOther (units units' : List DecodedUnit) : Prop :=
  ∃ front header back, units = front ++ back ∧ units' = front ++ .other header :: back ∧
    ∀ set, front.getLast? ≠ some (.sps set)

/-- There is a unit that is not decoded among the others, and not directly behind a sequence parameter
set of the base layer. -/
def GainsInert (nals nals' : List Bytes) : Prop :=
  ∃ front nal header back, nals = front ++ back ∧ nals' = front ++ nal :: back ∧
    NalHeader.ofBytes nal = .ok header ∧ header.Inert ∧
    ∀ last ∈ front.getLast?, isBaseSps last = false

/-- All other units are read as they were, with the same parameter sets in force. -/
theorem DecoderState.decodeNals_gains {s e : DecoderState} {nals nals' : List Bytes}
    {units : List DecodedUnit} (h : s.decodeNals nals = .ok (units, e))
    (hgains : GainsInert nals nals') :
    ∃ units', s.decodeNals nals' = .ok (units', e) ∧ GainsOther units units' := by
  obtain ⟨front, nal, header, back, rfl, rfl, hheader, hinert, hbehind⟩ := hgains
  obtain ⟨us, vs, s₁, hfront, hback, rfl⟩ := decodeNals_append_eq_ok_iff.1 h
  have hnal : s₁.decodeNals (nal :: back) = .ok (.other header :: vs, e) :=
    decodeNals_cons_eq_ok_iff.2
      ⟨.other header, vs, decodeNal_eq_other_iff.2 ⟨hheader, hinert⟩, hback, rfl⟩
  refine ⟨_, decodeNals_append_eq_ok_iff.2 ⟨us, _, s₁, hfront, hnal, rfl⟩, us, header, vs, rfl, rfl, ?_⟩
  intro set hset
  obtain ⟨last, s₂, hlast, hread⟩ := getLast?_of_decodeNals hfront hset
  exact absurd (isBaseSps_of_decodeNal hread) (by rw [hbehind last hlast]; decide)

/-! ## Byte streams -/

namespace ByteStream

variable {bytes bytes' : Bytes}

/-- The bytes with a unit and a start code put in behind the first `n` of them. -/
def putIn (bytes : Bytes) (n zeros : Nat) (nal : Bytes) : Bytes :=
  bytes.take n ++ (List.replicate zeros 0 ++ startCode ++ nal ++ bytes.drop n)

/-- A unit that is not decoded is put into a byte stream: in front of the start code of another unit or
behind all units, but not directly behind a sequence parameter set of the base layer. -/
inductive Inserts (bytes : Bytes) : Bytes → Prop where
  | mk (n zeros : Nat) (nal : Bytes) (header : NalHeader)
    (border : hasStartCode (bytes.drop n) = true ∨ ∀ b ∈ bytes.drop n, b = 0) (solid : Solid nal)
    (header_eq : NalHeader.ofBytes nal = .ok header) (inert : header.Inert)
    (behind : ∀ last ∈ (nals (bytes.take n)).getLast?, isBaseSps last = false) :
    Inserts bytes (putIn bytes n zeros nal)

/-- The unit is found where it was put, and all others are found as before. -/
theorem Inserts.nals (h : Inserts bytes bytes') : GainsInert (nals bytes) (nals bytes') := by
  obtain ⟨n, zeros, nal, header, border, solid, hheader, inert, behind⟩ := h
  have hstart : hasStartCode (List.replicate zeros 0 ++ startCode ++ nal ++ bytes.drop n) = true := by
    rw [List.append_assoc]
    exact hasStartCode_iff.2 ⟨zeros, _, rfl⟩
  have hbytes := nals_border border (bytes.take n)
  rw [List.take_append_drop] at hbytes
  refine ⟨ByteStream.nals (bytes.take n), nal, header, ByteStream.nals (bytes.drop n), hbytes, ?_,
    hheader, inert, behind⟩
  rw [putIn, nals_append _ hstart, nals_border border, nals_single zeros solid]
  rfl

/-- A byte stream still begins with a start code. -/
theorem Inserts.hasStartCode (h : Inserts bytes bytes') (hstart : hasStartCode bytes = true) :
    ByteStream.hasStartCode bytes' = true := by
  obtain ⟨n, zeros, nal, header, border, solid, hheader, inert, behind⟩ := h
  rw [putIn]
  by_cases hfront : ∃ b ∈ bytes.take n, b ≠ 0
  · rw [← List.take_append_drop n bytes, hasStartCode_append_of_ne_zero hfront] at hstart
    rwa [hasStartCode_append_of_ne_zero hfront]
  · have hzeros : bytes.take n = List.replicate (bytes.take n).length 0 :=
      List.eq_replicate_of_mem (by simpa using hfront)
    refine hasStartCode_iff.2 ⟨(bytes.take n).length + zeros, nal ++ bytes.drop n, ?_⟩
    rw [← List.replicate_append_replicate, ← hzeros]
    simp only [List.append_assoc]

end ByteStream

/-! ## Access units -/

/-- An access unit is read with a unit put in, and the same parameter sets are in force behind it. -/
theorem AccessUnit.decode_inserts {c c' : Context} {bytes bytes' : Bytes} {au : AccessUnit}
    (h : decode c bytes = .ok (au, c')) (hinserts : ByteStream.Inserts bytes bytes') :
    ∃ au', decode c bytes' = .ok (au', c') ∧ GainsOther au.units au'.units := by
  obtain ⟨hstart, e, hunits, rfl⟩ := decode_eq_ok_iff.1 h
  obtain ⟨units', hunits', hgains⟩ := DecoderState.decodeNals_gains hunits hinserts.nals
  exact ⟨⟨units'⟩, decode_eq_ok_iff.2 ⟨hinserts.hasStartCode hstart, e, hunits', rfl⟩, hgains⟩

end TiledVideo
