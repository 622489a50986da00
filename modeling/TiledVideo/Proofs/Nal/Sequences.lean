import TiledVideo.Proofs.Bitstream.Prefixes
import TiledVideo.Proofs.Nal.Seams
import TiledVideo.Proofs.Nal.WrittenUnits

/-!
# Access units one behind the other

A byte string that is made of access units is read as one: its units are those of its parts, each of
them read with the parameter sets in force behind the part before. An access unit on its own begins
without an independent segment to depend on, and one that is behind others may have such a segment. What
can be read without it is read with it in the same way.

Results:

* `SliceHeader.parse_of_none`: a header that needs no segment before it.
* `DecoderState.decodeNals_extends`: a decoder that has another segment to depend on reads the same.
* `AccessUnit.decode_append`: two access units are read as one.
* `AccessUnit.decode_joined`: so are any number of them.
-/

namespace TiledVideo

/-! ## Headers -/

section Refines

variable {ε α β : Type}

/-- What the first reader reads, the second reads in the same way. -/
def Reader.Refines (p q : Reader ε α) : Prop :=
  ∀ c a c', p c = .ok a c' → q c = .ok a c'

theorem Reader.Refines.refl (p : Reader ε α) : p.Refines p :=
  fun _ _ _ => id

theorem Reader.Refines.bind {p q : Reader ε α} {f g : α → Reader ε β} (h : p.Refines q)
    (hf : ∀ a, (f a).Refines (g a)) : (p >>= f).Refines (q >>= g) := by
  intro c b c' hp
  obtain ⟨a, c₁, hp, hfb⟩ := step_bind_eq_ok.1 hp
  exact step_bind_eq_ok.2 ⟨a, c₁, h c a c₁ hp, hf a c₁ b c' hfb⟩

end Refines

/-- A header that is read without a segment before it is read in the same way behind any. -/
theorem SliceHeader.parse_of_none (ctx : Context) (unitType : UnitType)
    (previous : Option SliceHeader) :
    (SliceHeader.parse ctx unitType none).Refines (SliceHeader.parse ctx unitType previous) := by
  unfold SliceHeader.parse
  -- the segment is asked for only behind the address
  iterate 8 refine .bind (.refl _) fun _ => ?_
  dsimp only
  split
  · exact .bind (fun _ _ _ => nofun) fun _ => .refl _
  · exact .refl _

theorem SliceUnit.decode_of_none {ctx : Context} {nalHeader : NalHeader} {payload : Bytes}
    {segment : SliceUnit} (h : decode ctx none nalHeader payload = .ok segment)
    (previous : Option SliceHeader) : decode ctx previous nalHeader payload = .ok segment := by
  obtain ⟨n, hheader, hsegment⟩ := decode_eq_ok_iff.1 h
  obtain ⟨rest, hread⟩ := Reader.decodeFront_eq_ok_iff.1 hheader
  have hread' := SliceHeader.parse_of_none ctx nalHeader.unitType previous _ _ _ hread
  exact decode_eq_ok_iff.2 ⟨n, Reader.decodeFront_eq_ok_iff.2 ⟨rest, hread'⟩, hsegment⟩

/-! ## Units -/

namespace DecoderState

section Lists

variable {s e : DecoderState} {units : List DecodedUnit}

theorem decodeNals_cons_eq_ok_iff {nal : Bytes} {nals : List Bytes} :
    s.decodeNals (nal :: nals) = .ok (units, e) ↔ ∃ unit later, s.decodeNal nal = .ok unit ∧
      (s.after unit).decodeNals nals = .ok (later, e) ∧ units = unit :: later := by
  simp only [decodeNals, bind_eq_ok_iff]
  constructor
  · rintro ⟨unit, hunit, ⟨later, last⟩, hlater, h⟩
    cases h
    exact ⟨unit, later, hunit, hlater, rfl⟩
  · rintro ⟨unit, later, hunit, hlater, rfl⟩
    exact ⟨unit, hunit, (later, e), hlater, rfl⟩

theorem decodeNals_append_eq_ok_iff {a b : List Bytes} :
    s.decodeNals (a ++ b) = .ok (units, e) ↔ ∃ us vs s₁, s.decodeNals a = .ok (us, s₁) ∧
      s₁.decodeNals b = .ok (vs, e) ∧ units = us ++ vs := by
  simp only [decodeNals_append, bind_eq_ok_iff]
  constructor
  · rintro ⟨⟨us, s₁⟩, ha, ⟨vs, s₂⟩, hb, h⟩
    cases h
    exact ⟨us, vs, s₁, ha, hb, rfl⟩
  · rintro ⟨us, vs, s₁, ha, hb, rfl⟩
    exact ⟨(us, s₁), ha, (vs, e), hb, rfl⟩

end Lists

/-- The second decoder has the parameter sets of the first one, and the segment to depend on if the first
one has any. -/
structure ExtendedBy (s t : DecoderState) : Prop where
  ctx : t.ctx = s.ctx
  previous : s.lastIndependent = none ∨ t.lastIndependent = s.lastIndependent

variable {s t : DecoderState}

theorem ExtendedBy.after (h : s.ExtendedBy t) (unit : DecodedUnit) :
    (s.after unit).ExtendedBy (t.after unit) := by
  obtain ⟨hctx, hprevious⟩ := h
  cases unit with
  | slice segment =>
    unfold DecoderState.after
    dsimp only
    split
    · exact ⟨hctx, hprevious⟩
    · exact ⟨hctx, .inr rfl⟩
  | other header => exact ⟨hctx, hprevious⟩
  | vps set => exact ⟨congrArg (·.putVps set) hctx, hprevious⟩
  | sps set => exact ⟨congrArg (·.putSps set) hctx, hprevious⟩
  | pps set => exact ⟨congrArg (·.putPps set) hctx, hprevious⟩

theorem decodeBase_of_none {ctx : Context} {header : NalHeader} {nal : Bytes} {unit : DecodedUnit}
    (h : decodeBase ⟨ctx, none⟩ header nal = .ok unit) (previous : Option SliceHeader) :
    decodeBase ⟨ctx, previous⟩ header nal = .ok unit := by
  rw [decodeBase_eq_ok_iff] at h ⊢
  cases h with
  | vps htype hpayload hset => exact .vps htype hpayload hset
  | sps htype hpayload hset => exact .sps htype hpayload hset
  | pps htype hpayload hset => exact .pps htype hpayload hset
  | slice htype hpayload hsegment =>
    exact .slice htype hpayload (SliceUnit.decode_of_none hsegment previous)
  | other htype => exact .other htype

theorem decodeNal_extends (h : s.ExtendedBy t) {nal : Bytes} {unit : DecodedUnit}
    (hs : s.decodeNal nal = .ok unit) : t.decodeNal nal = .ok unit := by
  obtain ⟨c, last⟩ := s
  obtain ⟨c', last'⟩ := t
  obtain ⟨rfl, rfl | rfl⟩ : c' = c ∧ (last = none ∨ last' = last) := ⟨h.ctx, h.previous⟩
  · obtain ⟨header, hheader, hs⟩ := bind_eq_ok_iff.1 hs
    refine bind_eq_ok_iff.2 ⟨header, hheader, ?_⟩
    split_ifs at hs ⊢
    · exact decodeBase_of_none hs last'
    · exact hs
  · exact hs

/-- What a decoder reads, one that extends it reads in the same way, and it ends with the same
parameter sets. -/
theorem decodeNals_extends (h : s.ExtendedBy t) {nals : List Bytes} {units : List DecodedUnit}
    {e : DecoderState} (hs : s.decodeNals nals = .ok (units, e)) :
    ∃ e', t.decodeNals nals = .ok (units, e') ∧ e.ExtendedBy e' := by
  induction nals generalizing s t units with
  | nil =>
    cases hs
    exact ⟨t, rfl, h⟩
  | cons nal nals ih =>
    obtain ⟨unit, later, hunit, hlater, rfl⟩ := decodeNals_cons_eq_ok_iff.1 hs
    obtain ⟨e', hlater', he⟩ := ih (h.after unit) hlater
    exact ⟨e', decodeNals_cons_eq_ok_iff.2
      ⟨unit, later, decodeNal_extends h hunit, hlater', rfl⟩, he⟩

end DecoderState

/-! ## Access units -/

namespace AccessUnit

variable {c c₁ last : Context}

theorem decode_eq_ok_iff {bytes : Bytes} {au : AccessUnit} :
    decode c bytes = .ok (au, last) ↔ ByteStream.hasStartCode bytes = true ∧
      ∃ e, (DecoderState.start c).decodeNals (ByteStream.nals bytes) = .ok (au.units, e) ∧
        e.ctx = last := by
  constructor
  · intro h
    obtain ⟨found, hfound, h⟩ := bind_eq_ok_iff.1 h
    obtain ⟨⟨units, e⟩, hunits, h⟩ := bind_eq_ok_iff.1 h
    cases h
    obtain ⟨hstart, rfl⟩ := ByteStream.units_eq_ok_iff.1 (mapError_eq_ok_iff.1 hfound)
    exact ⟨hstart, e, hunits, rfl⟩
  · rintro ⟨hstart, e, hunits, rfl⟩
    exact bind_eq_ok_iff.2 ⟨_, mapError_eq_ok_iff.2 (ByteStream.units_eq_ok_iff.2 ⟨hstart, rfl⟩),
      bind_eq_ok_iff.2 ⟨_, hunits, rfl⟩⟩

/-- Two access units, one behind the other, are read as one. -/
theorem decode_append {a b : Bytes} {au au' : AccessUnit} (ha : decode c a = .ok (au, c₁))
    (hb : decode c₁ b = .ok (au', last)) :
    decode c (a ++ b) = .ok (⟨au.units ++ au'.units⟩, last) := by
  obtain ⟨hstart, e₁, hfront, rfl⟩ := decode_eq_ok_iff.1 ha
  obtain ⟨hstart', e₂, hback, rfl⟩ := decode_eq_ok_iff.1 hb
  have hextends : (DecoderState.start e₁.ctx).ExtendedBy e₁ := ⟨rfl, .inl rfl⟩
  obtain ⟨e₃, hback', hlast⟩ := DecoderState.decodeNals_extends hextends hback
  refine decode_eq_ok_iff.2 ⟨ByteStream.hasStartCode_append hstart b, e₃, ?_, hlast.ctx⟩
  rw [ByteStream.nals_append a hstart']
  exact DecoderState.decodeNals_append_eq_ok_iff.2 ⟨_, _, e₁, hfront, hback', rfl⟩

/-- Reads access units one behind the other, each with the parameter sets in force after the one before
it. -/
def decodeEach (c : Context) : List Bytes → Except UnitError (List AccessUnit × Context)
  | [] => .ok ([], c)
  | part :: parts => do
    let (au, c₁) ← decode c part
    let (aus, last) ← decodeEach c₁ parts
    pure (au :: aus, last)

theorem decodeEach_cons_eq_ok {part : Bytes} {parts : List Bytes} {aus : List AccessUnit}
    (h : decodeEach c (part :: parts) = .ok (aus, last)) : ∃ au c₁ later,
      decode c part = .ok (au, c₁) ∧ decodeEach c₁ parts = .ok (later, last) ∧ aus = au :: later := by
  obtain ⟨⟨au, c₁⟩, hfirst, h⟩ := bind_eq_ok_iff.1 h
  obtain ⟨⟨later, last⟩, hlater, h⟩ := bind_eq_ok_iff.1 h
  cases h
  exact ⟨au, c₁, later, hfirst, hlater, rfl⟩

/-- What is read in parts is read in one piece as well: two byte strings that are read one behind the
other are read as one with the units of both and the parameter sets of the second in force, whatever they
begin and end in, and so are any number of them. -/
theorem decode_joined :
    (∀ (c c₁ c₂ : Context) (a b : Bytes) (au au' : AccessUnit), decode c a = .ok (au, c₁) →
      decode c₁ b = .ok (au', c₂) → decode c (a ++ b) = .ok (⟨au.units ++ au'.units⟩, c₂)) ∧
    ∀ (c last : Context) (parts : List Bytes) (aus : List AccessUnit), parts ≠ [] →
      decodeEach c parts = .ok (aus, last) →
      decode c parts.flatten = .ok (⟨aus.flatMap (·.units)⟩, last) := by
  refine ⟨fun c c₁ c₂ a b au au' ha hb => decode_append ha hb, fun c last parts => ?_⟩
  induction parts generalizing c with
  | nil => exact fun aus hne => absurd rfl hne
  | cons part parts ih =>
    intro aus _ h
    obtain ⟨au, c₁, later, hfirst, hlater, rfl⟩ := decodeEach_cons_eq_ok h
    cases parts with
    | nil =>
      cases hlater
      simpa using hfirst
    | cons next parts =>
      exact decode_append hfirst (ih c₁ later (List.cons_ne_nil next parts) hlater)

end AccessUnit

namespace Sample

/-- The parameter sets of the picture, with zero bytes behind them. -/
def setsPart : Bytes := picture.take 75 ++ [0, 0, 0]

/-- The first slice of the picture, with a short start code and an empty unit behind it. -/
def firstPart : Bytes := (picture.drop 76).take 14 ++ [0, 0, 1]

/-- The last slice of the picture. -/
def lastPart : Bytes := picture.drop 90

/-- What is read of a part. -/
def readAs (c : Context) (part : Bytes) : AccessUnit :=
  match AccessUnit.decode c part with
  | .ok (au, _) => au
  | .error _ => ⟨[]⟩

end Sample

namespace AccessUnit

open Sample in
theorem decode_joined_sample :
    (decode .empty setsPart = .ok (readAs .empty setsPart, Sample.ctx) ∧
      decode Sample.ctx firstPart = .ok (readAs Sample.ctx firstPart, Sample.ctx) ∧
      decode .empty (setsPart ++ firstPart) =
        .ok (⟨(readAs .empty setsPart).units ++ (readAs Sample.ctx firstPart).units⟩, Sample.ctx)) ∧
    [setsPart, firstPart, lastPart] ≠ [] ∧
    decodeEach .empty [setsPart, firstPart, lastPart] =
      .ok ([readAs .empty setsPart, readAs Sample.ctx firstPart, readAs Sample.ctx lastPart],
        Sample.ctx) ∧
    decode .empty [setsPart, firstPart, lastPart].flatten =
      .ok (⟨[readAs .empty setsPart, readAs Sample.ctx firstPart,
        readAs Sample.ctx lastPart].flatMap (·.units)⟩, Sample.ctx) := by
  have hsets : decode .empty setsPart = .ok (readAs .empty setsPart, Sample.ctx) := by
    decide +kernel
  have hfirst : decode Sample.ctx firstPart = .ok (readAs Sample.ctx firstPart, Sample.ctx) := by
    decide +kernel
  have heach : decodeEach .empty [setsPart, firstPart, lastPart] =
      .ok ([readAs .empty setsPart, readAs Sample.ctx firstPart, readAs Sample.ctx lastPart],
        Sample.ctx) := by
    decide +kernel
  have hne := List.cons_ne_nil setsPart [firstPart, lastPart]
  exact ⟨⟨hsets, hfirst, decode_joined.1 _ _ _ _ _ _ _ hsets hfirst⟩, hne, heach,
    decode_joined.2 _ _ _ _ hne heach⟩

end AccessUnit

end TiledVideo
