import TiledVideo.Proofs.Nal.WrittenUnits

/-!
# Decoding written parameter sets and slices

Parameter sets are written to a stream before the slices that use them. A decoder of the stream gets
what the parameter sets say, and then reads the slices with them.

Results:

* `Decodes.append`: decoding goes on where it was left.
* `slice_decoded`: a slice is decoded as what its header reads back as.
* `decode_framedAll`, `decode_slice`: the access unit that units make.
-/

namespace TiledVideo

open ByteStream Reader

/-! ## Parameter sets -/

/-- A unit is a parameter set. -/
def DecodedUnit.IsSet : DecodedUnit → Prop
  | .vps _ | .sps _ | .pps _ => True
  | .slice _ | .other _ => False

instance : DecidablePred DecodedUnit.IsSet
  | .vps _ | .sps _ | .pps _ => .isTrue trivial
  | .slice _ | .other _ => .isFalse id

/-- A decoder `d` reads bytes as units that are all parameter sets, and then is at `d'`. -/
structure Decodes (d : DecoderState) (bytes : Bytes) (contents : List UnitContent)
    (nals : List Bytes) (sets : List DecodedUnit) (d' : DecoderState) : Prop where
  bytes : bytes = framedAll nals
  solid : ∀ nal ∈ nals, Solid nal
  decodeNals : d.decodeNals nals = .ok (sets, d')
  contents : sets.map (·.content) = contents
  isSet : ∀ unit ∈ sets, unit.IsSet
  previous : d'.lastIndependent = d.lastIndependent

namespace Decodes

variable {d d₁ d₂ : DecoderState} {a b : Bytes} {as bs : List UnitContent}
  {nals₁ nals₂ : List Bytes} {us vs : List DecodedUnit}

theorem nothing : Decodes d [] [] [] [] d where
  bytes := rfl
  solid := by simp
  decodeNals := rfl
  contents := rfl
  isSet := by simp
  previous := rfl

/-- Decoding goes on where it was left. -/
theorem append (h₁ : Decodes d a as nals₁ us d₁) (h₂ : Decodes d₁ b bs nals₂ vs d₂) :
    Decodes d (a ++ b) (as ++ bs) (nals₁ ++ nals₂) (us ++ vs) d₂ where
  bytes := by rw [h₁.bytes, h₂.bytes, framedAll, framedAll, framedAll, List.flatMap_append]
  solid nal hnal := (List.mem_append.1 hnal).elim (h₁.solid nal) (h₂.solid nal)
  decodeNals := by
    rw [DecoderState.decodeNals_append, h₁.decodeNals]
    show (d₁.decodeNals nals₂ >>= _) = _
    rw [h₂.decodeNals]
    rfl
  contents := by rw [List.map_append, h₁.contents, h₂.contents]
  isSet unit hunit := (List.mem_append.1 hunit).elim (h₁.isSet unit) (h₂.isSet unit)
  previous := h₂.previous.trans h₁.previous

/-- A parameter set on its own. -/
theorem single {nal : Bytes} {unit : DecodedUnit} (hsolid : Solid nal)
    (hunit : d.decodeNal nal = .ok unit) (hset : unit.IsSet) :
    Decodes d (framedAll [nal]) [unit.content] [nal] [unit] (d.after unit) where
  bytes := rfl
  solid := by simpa using hsolid
  decodeNals := by
    rw [DecoderState.decodeNals, hunit]
    rfl
  contents := rfl
  isSet := by simpa using hset
  previous := by
    cases unit with
    | slice segment => cases hset
    | _ => rfl

theorem noSlice (h : Decodes d a as nals₁ us d₁) : ∀ unit ∈ us, unit.slice? = none :=
  fun unit hunit => by
    have hset := h.isSet unit hunit
    cases unit with
    | slice segment => cases hset
    | _ => rfl

end Decodes

/-! ## Slices -/

/-- A slice is decoded as what its header reads back as, with its data. -/
theorem slice_decoded {s : DecoderState} {segment : SliceUnit}
    (hunit : segment.nalHeader.layerId = 0 ∧ segment.nalHeader.unitType.isSlice = true)
    (hdata : segment.data.getLast? ≠ some 0) {code : Code} {header : SliceHeader}
    (hread : (SliceHeader.parse s.ctx segment.nalHeader.unitType s.lastIndependent).ReadsFront
      code header) {bits : BitString} (hbits : code = .ok bits) :
    Solid (nalBytes segment.nalHeader.unitType segment.nalHeader.temporalId.val
      (Bits.toBytes bits ++ segment.data)) ∧
    ∃ got, s.decodeNal (nalBytes segment.nalHeader.unitType segment.nalHeader.temporalId.val
        (Bits.toBytes bits ++ segment.data)) = .ok (.slice got) ∧
      (DecodedUnit.slice got).content = .slice segment.nalHeader header segment.data := by
  obtain ⟨hlayer, hslice⟩ := hunit
  have hlast : (Bits.toBytes bits).getLast? ≠ some 0 := by
    obtain ⟨_, rfl, -⟩ := hread
    exact getLast?_toBytes_closed hbits
  refine ⟨solid_nalBytes _ segment.nalHeader.temporalId.isLt
    (getLast?_append_data hlast hdata), ?_⟩
  obtain ⟨got, hdecode, hheader, hgot, hgotData⟩ :=
    DecoderState.decodeNal_slice hslice segment.nalHeader.temporalId hread hbits segment.data
  have hnal : segment.nalHeader =
      ⟨segment.nalHeader.unitType, 0, segment.nalHeader.temporalId⟩ := by rw [← hlayer]
  exact ⟨got, hdecode, by rw [DecodedUnit.content, hheader, hgot, hgotData, ← hnal]⟩

/-! ## Access units -/

namespace AccessUnit

/-- The access unit that units make. -/
theorem decode_framedAll {ctx : Context} {nals : List Bytes} {units : List DecodedUnit}
    {last : DecoderState} (hne : nals ≠ []) (hsolid : ∀ nal ∈ nals, Solid nal)
    (h : (DecoderState.start ctx).decodeNals nals = .ok (units, last)) :
    decode ctx (framedAll nals) = .ok (⟨units⟩, last.ctx) := by
  have hnals : (nals.map fun nal => (⟨0 :: startCode ++ nal, nal⟩ : FramedUnit)).map (·.nal) =
      nals := by simp [List.map_map, Function.comp_def]
  rw [decode, units_framedAll hne hsolid]
  show ((DecoderState.start ctx).decodeNals (_ : List Bytes) >>= _) = _
  rw [hnals, h]
  rfl

/-- The access unit of some parameter sets and a slice behind them. -/
theorem decode_slice {ctx : Context} {bytes : Bytes} {contents : List UnitContent}
    {nals : List Bytes} {sets : List DecodedUnit} {d : DecoderState}
    (hsets : Decodes (.start ctx) bytes contents nals sets d) {nal : Bytes} {got : SliceUnit}
    (hsolid : Solid nal) (hgot : d.decodeNal nal = .ok (.slice got)) :
    decode ctx (bytes ++ framedAll [nal]) = .ok (⟨sets ++ [.slice got]⟩, d.ctx) := by
  have hunits : (DecoderState.start ctx).decodeNals (nals ++ [nal]) =
      .ok (sets ++ [.slice got], d.after (.slice got)) := by
    rw [DecoderState.decodeNals_append, hsets.decodeNals]
    show (d.decodeNals [nal] >>= _) = _
    rw [DecoderState.decodeNals, hgot]
    rfl
  have hau := decode_framedAll (by simp) (fun n hn => by
    obtain hn | hn := List.mem_append.1 hn
    · exact hsets.solid n hn
    · rwa [List.mem_singleton.1 hn]) hunits
  rwa [d.after_slice_ctx, framedAll, List.flatMap_append, ← framedAll, ← framedAll,
    ← hsets.bytes] at hau

end AccessUnit

end TiledVideo
