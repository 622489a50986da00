import TiledVideo.Proofs.Bitstream.ExactPayloads
import TiledVideo.Proofs.ParamSet.ExactParts
import TiledVideo.Proofs.ParamSet.RoundTrip

/-!
# Parameter sets that are written as they were

The encoders of parameter sets are inverse to their readers on every payload that is accepted, with few
exceptions. Reserved bits, extensions of video parameter sets and extensions that are not known are
passed over, and an announcement of no extension at all looks the same as none. Long-term reference
pictures and dependent slice segments are not written.

Results:

* `Vps.exact`, `Sps.exact`, `Pps.exact`: the bits that are read are those that are written.
* `Context.reencoded`: so the bytes are the same, but for zero bytes at the end of a payload.
-/

namespace TiledVideo

open Reader

/-! ## Extensions -/

/-- Extensions at the end of a payload are written as they were, if they are present exactly if there
is a range extension and all of them are known. -/
theorem exactTo_extensions {ε α : Type} {D : ε → Bool → Prop} {g : ReadError → ε} {element : String}
    {parsePresent : Reader ε α} {absent : α} {unknown : α → Nat} {hasRange : α → Bool}
    {encodePresent encode : α → Code} {announced : Bool} (hp : parsePresent.Exact D encodePresent)
    (hD : ∀ b, D (g (.endOfData element)) b → b = announced) (habsent : encode absent = .flag false)
    (hencode : ∀ e, unknown e = 0 → hasRange e = true →
      encode e = .concat [.flag true, encodePresent e]) :
    (do
      let present ← mapError g (flag element)
      let e ← optionalD present parsePresent absent
      optionalD (unknown e == 0) (mapError g finish) ()
      pure e : Reader ε α).ExactTo D AtStop encode (fun e => unknown e = 0 ∧ hasRange e = announced)
        [] := by
  refine .bind (exact_flag _).mapError fun present hpresent => ?_
  obtain rfl : present = announced := hD _ hpresent.mapError.flag
  refine .bind (.optionalD fun _ => hp) fun e he => ?_
  by_cases hunknown : unknown e = 0
  · rw [hunknown]
    refine .end_bind_pure (fun c _ c' h _ => atStop_of_finish (mapError_eq_ok.1 h)) ?_
    rintro ⟨-, hrange⟩
    cases present with
    | false =>
      obtain rfl := he.produces.optionalD.2 rfl
      exact habsent.trans (Code.concat_single _).symm
    | true => exact hencode e hunknown hrange
  · -- what is passed over behind extensions that are not known is not written
    refine exactTo_of_invalid fun e he => ?_
    obtain ⟨_, -, he⟩ := he.bind
    obtain rfl := he.pure
    exact fun hvalid => hunknown hvalid.1

/-! ## Video parameter sets -/

namespace VpsTiming

variable {D : ReadError → Bool → Prop}

/-- Every buffer model but the first says whether it codes its common part. -/
theorem exact_laterHrds (m n : Nat) (inherited : HrdCommon) :
    (parseHrds m n (some inherited)).Exact D (.each encodeLaterHrd) := by
  induction n generalizing inherited with
  | zero => exact .pure fun _ => rfl
  | succ n ih =>
    refine .bind (exact_ue _) fun layerSet _ => ?_
    refine .bind (.optionalD fun _ => exact_flag _) fun commonCoded _ => ?_
    refine .bind (Hrd.exact _ _ _) fun hrd hhrd => ?_
    refine .bind (ih hrd.common) fun rest _ => .pure fun _ => ?_
    obtain rfl := (Hrd.reads hhrd.produces).1
    show encodeLaterHrd (layerSet, hrd) ++ Code.each encodeLaterHrd rest = _
    rw [encodeLaterHrd, ← Code.concat_single (Code.each encodeLaterHrd rest), ← Code.concat_append,
      Code.concat_single]
    rfl

theorem exact_hrds (m n : Nat) : (parseHrds m n none).Exact D encodeHrds := by
  cases n with
  | zero => exact .pure fun _ => rfl
  | succ n =>
    refine .bind (exact_ue _) fun layerSet _ => ?_
    refine .bind (.optionalD fun _ => exact_flag _) fun commonCoded hcommonCoded => ?_
    refine .bind (Hrd.exact _ _ _) fun hrd hhrd => ?_
    refine .bind (exact_laterHrds m n hrd.common) fun rest _ => .pure fun _ => ?_
    show Code.concat _ = Code.concat [_, .empty, _, _]
    simp only [Code.concat, Code.empty_append]

theorem exact {D : VpsError → Bool → Prop} (m maxHrds : Nat) :
    (parse m maxHrds).Exact D encode := by
  refine .bind (exact_uint 32 _).mapError fun numUnits _ => ?_
  refine .bind (exact_uint 32 _).mapError fun timeScale _ => ?_
  refine .bind (exact_flag _).mapError fun proportional _ => ?_
  refine .bind (.optional fun _ => (exact_ue _).mapError) fun ticks hticks => ?_
  refine .bind (exact_ue _).mapError fun count _ => ?_
  refine .ensure_bind fun _ => ?_
  refine .bind (exact_hrds _ _).mapError fun hrds hhrds => .pure fun _ => ?_
  obtain rfl := hticks.produces.optional.1
  obtain rfl := (reads_hrds hhrds.produces.mapError).1
  rfl

end VpsTiming

theorem Vps.exact {D : VpsError → Bool → Prop}
    (hD : ∀ b, D (.read (.endOfData "reserved_zero_2bits")) b → b = false) :
    parse.ExactPayload D encode fun v => v.hasExtension = false := by
  refine ⟨_, fun _ => rfl, ?_⟩
  refine .bind (exact_uint 4 _).mapError fun idNumber hid => ?_
  refine .bind (exact_flag _).mapError fun internal _ => ?_
  refine .bind (exact_flag _).mapError fun available _ => ?_
  refine .bind (exact_uint 6 _).mapError fun layers _ => ?_
  refine .bind (exact_uint 3 _).mapError fun subLayers _ => ?_
  refine .ensure_bind fun _ => ?_
  refine .bind (exact_flag _).mapError fun nesting _ => ?_
  refine .bind (exact_uint 16 _).mapError fun reserved _ => ?_
  refine .ensure_bind fun hreserved => ?_
  refine .bind (ProfileTierLevel.exact _ hD).mapError fun ptl _ => ?_
  refine .bind (SubLayerOrdering.exact _ _).mapError fun ordering _ => ?_
  refine .bind (exact_uint 6 _).mapError fun maxLayerId _ => ?_
  refine .bind (exact_ue _).mapError fun numSets _ => ?_
  refine .ensure_bind fun _ => ?_
  refine .bind (.times (.times (exact_flag _).mapError _) _) fun sets hsets => ?_
  refine .bind (exact_flag _).mapError fun hasTiming _ => ?_
  refine .bind (.optional fun _ => VpsTiming.exact _ _) fun timing htiming => ?_
  refine .bind (exact_flag _).mapError fun hasExtension _ => ?_
  cases hasExtension with
  | true =>
    refine exactTo_of_invalid fun v hv => ?_
    obtain ⟨_, -, hv⟩ := hv.bind
    obtain rfl := hv.pure
    exact Bool.noConfusion
  | false =>
    refine .end_bind_pure (fun c _ c' h _ => atStop_of_finish (mapError_eq_ok.1 h)) fun _ => ?_
    obtain rfl : reserved = 0xffff := by simpa using hreserved
    obtain rfl := htiming.produces.optional.1
    obtain ⟨rfl, -⟩ := hsets.produces.times
    have hidVal : (Fin.ofNat 16 idNumber).val = idNumber :=
      Nat.mod_eq_of_lt hid.produces.mapError.uint.2
    rw [hidVal]
    simp only [List.nil_append, List.cons_append]
    exact Code.concat_ensure_cons rfl _ _

/-! ## Sequence parameter sets -/

section Sps

variable {D : SpsError → Bool → Prop}

theorem Sps.exact_ueUpTo (max : Nat) (element : String) : (ueUpTo max element).Exact D .ue :=
  (exact_ue _).mapError.checked

theorem PictureFormat.exact_dimension (element : String) : (parseDimension element).Exact D .ue :=
  (Sps.exact_ueUpTo _ _).checked

theorem PictureFormat.exact : parse.Exact D encode := by
  refine .bind (exact_ue _).mapError fun idc _ => ?_
  refine .require_bind fun chroma hchroma => ?_
  refine .bind (.optionalD fun _ => (exact_flag _).mapError) fun separate _ => ?_
  refine .bind (exact_dimension _) fun width _ => ?_
  refine .bind (exact_dimension _) fun height _ => ?_
  refine .bind (Window.exact_optional _).mapError fun window _ => ?_
  refine .bind (Sps.exact_ueUpTo _ _) fun luma _ => ?_
  refine .bind (Sps.exact_ueUpTo _ _) fun chromaDepth _ => .pure fun _ => ?_
  obtain rfl := ChromaFormat.ofIdc?_eq_some_iff.1 hchroma
  rfl

theorem BlockSizes.exact : parse.Exact D encode := by
  refine .bind (Sps.exact_ueUpTo _ _) fun minCoding _ => ?_
  refine .bind (Sps.exact_ueUpTo _ _) fun diffCoding _ => ?_
  refine .ensure_bind fun _ => ?_
  refine .bind (Sps.exact_ueUpTo _ _) fun minTransform _ => ?_
  refine .bind (Sps.exact_ueUpTo _ _) fun diffTransform _ => ?_
  refine .bind (Sps.exact_ueUpTo _ _) fun depthInter _ => ?_
  exact .bind (Sps.exact_ueUpTo _ _) fun depthIntra _ => .pure fun _ => rfl

theorem Scaling.exact : parse.Exact D encode := by
  refine .bind (exact_flag _).mapError fun enabled _ => ?_
  refine .bind (.optionalD fun _ => (exact_flag _).mapError) fun isCoded hisCoded => ?_
  refine .bind (.optional fun _ => ScalingLists.exact.mapError) fun lists hlists => .pure fun _ => ?_
  obtain rfl := hlists.produces.optional.1
  cases enabled with
  | false =>
    -- there are no lists where they are not in use
    obtain rfl : lists = none := by simpa using hisCoded.produces.optionalD.2 rfl
    rfl
  | true => cases lists <;> rfl

theorem Pcm.exact {D : ReadError → Bool → Prop} : parse.Exact D encode := by
  refine .bind (exact_uint 4 _) fun luma _ => ?_
  refine .bind (exact_uint 4 _) fun chroma _ => ?_
  refine .bind (exact_ue _) fun minCoding _ => ?_
  refine .bind (exact_ue _) fun diffCoding _ => ?_
  exact .bind (exact_flag _) fun loopFilter _ => .pure fun _ => rfl

theorem Sps.exact_refPicSets :
    parseRefPicSets.Exact D fun sets => .concat [.ue sets.length, RefPicSet.encodeAll sets] := by
  refine .bind (exact_ueUpTo _ _) fun count _ => ?_
  refine .last (RefPicSet.exact_all count).mapError fun sets hsets _ => ?_
  obtain rfl := (RefPicSet.reads_all hsets.produces.mapError).1
  rfl

theorem SpsRangeExtension.exact {D : ReadError → Bool → Prop} : parse.Exact D encode := by
  refine .bind (exact_flag _) fun rotation _ => ?_
  refine .bind (exact_flag _) fun context _ => ?_
  refine .bind (exact_flag _) fun implicitRdpcm _ => ?_
  refine .bind (exact_flag _) fun explicitRdpcm _ => ?_
  refine .bind (exact_flag _) fun precision _ => ?_
  refine .bind (exact_flag _) fun smoothing _ => ?_
  refine .bind (exact_flag _) fun offsets _ => ?_
  refine .bind (exact_flag _) fun rice _ => ?_
  exact .bind (exact_flag _) fun bypass _ => .pure fun _ => rfl

namespace SpsExtensions

theorem exact_unsupported (extension : String) :
    (parseUnsupported extension).Exact D fun _ => .flag false := by
  refine .bind (exact_flag _).mapError fun present _ => .ensure fun hpresent _ => ?_
  obtain rfl : present = false := by simpa using hpresent
  rfl

/-- The code of extensions that are present, with the announcement of those that are not known. -/
def encodePresent (e : SpsExtensions) : Code := .concat [
  .flag e.range.isSome,
  .flag false,
  .flag false,
  .flag false,
  .uint 4 e.unknown,
  .option SpsRangeExtension.encode e.range]

theorem exact_present : parsePresent.Exact D encodePresent := by
  refine .bind (exact_flag _).mapError fun hasRange _ => ?_
  refine .bind (exact_unsupported _) fun _ _ => ?_
  refine .bind (exact_unsupported _) fun _ _ => ?_
  refine .bind (exact_unsupported _) fun _ _ => ?_
  refine .bind (exact_uint 4 _).mapError fun unknown _ => ?_
  refine .bind (.optional fun _ => SpsRangeExtension.exact.mapError) fun range hrange => ?_
  refine .pure fun _ => ?_
  obtain rfl := hrange.produces.optional.1
  rfl

/-- Extensions are written as they were, if they are present exactly if there is a range extension and
all of them are known. -/
theorem exact {hasRange : Bool}
    (hD : ∀ b, D (.read (.endOfData "sps_extension_present_flag")) b → b = hasRange) :
    parse.ExactTo D AtStop encode (fun e => e.unknown = 0 ∧ e.range.isSome = hasRange) [] := by
  refine exactTo_extensions exact_present hD rfl fun e hunknown hrange => ?_
  obtain ⟨range, unknown⟩ := e
  obtain ⟨range, rfl⟩ := Option.isSome_iff_exists.1 hrange
  obtain rfl : unknown = 0 := hunknown
  exact Code.range_extension range.encode

end SpsExtensions

theorem Sps.exact {hasRange : Bool}
    (hreserved : ∀ b, D (.read (.endOfData "reserved_zero_2bits")) b → b = false)
    (hpresent : ∀ b, D (.read (.endOfData "sps_extension_present_flag")) b → b = hasRange) :
    parse.ExactPayload D encode fun s =>
      s.longTerm = none ∧ s.extensions.unknown = 0 ∧ s.extensions.range.isSome = hasRange := by
  refine ⟨_, fun _ => rfl, ?_⟩
  refine .bind (exact_uint 4 _).mapError fun vpsId _ => ?_
  refine .bind (exact_uint 3 _).mapError fun subLayers _ => ?_
  refine .ensure_bind fun _ => ?_
  refine .bind (exact_flag _).mapError fun nesting _ => ?_
  refine .bind (ProfileTierLevel.exact _ hreserved).mapError fun ptl _ => ?_
  refine .bind (exact_ue _).mapError fun idNumber _ => ?_
  refine .ofExcept_bind fun id hid => ?_
  refine .bind PictureFormat.exact fun format _ => ?_
  refine .bind (exact_ueUpTo _ _) fun pocLsb _ => ?_
  refine .bind (SubLayerOrdering.exact _ _).mapError fun ordering _ => ?_
  refine .bind BlockSizes.exact fun blocks _ => ?_
  refine .bind Scaling.exact fun scaling _ => ?_
  refine .bind (exact_flag _).mapError fun amp _ => ?_
  refine .bind (exact_flag _).mapError fun sao _ => ?_
  refine .bind (exact_flag _).mapError fun hasPcm _ => ?_
  refine .bind (.optional fun _ => Pcm.exact.mapError) fun pcm hpcm => ?_
  refine .bind_concat exact_refPicSets fun refPicSets _ => ?_
  refine .bind (exact_flag _).mapError fun hasLongTerm _ => ?_
  cases hasLongTerm with
  | true =>
    refine exactTo_of_invalid fun s hs => ?_
    obtain ⟨longTerm, hlongTerm, hs⟩ := hs.bind
    iterate 5 obtain ⟨_, -, hs⟩ := hs.bind
    obtain rfl := hs.pure
    rintro ⟨rfl, -⟩
    cases hlongTerm.optional.1
  | false =>
    refine .pure_bind ?_
    refine .bind (exact_flag _).mapError fun temporalMvp _ => ?_
    refine .bind (exact_flag _).mapError fun smoothing _ => ?_
    refine .bind (exact_flag _).mapError fun hasVui _ => ?_
    refine .bind (.optional fun _ => (Vui.exact _).mapError) fun vui hvui => ?_
    refine .bind_pure (SpsExtensions.exact hpresent) (fun _ hvalid => hvalid.2) fun extensions _ _ => ?_
    obtain rfl : id.val = idNumber := idBelow_eq_ok_iff.1 (mapError_eq_ok_iff.1 hid)
    obtain rfl := hpcm.produces.optional.1
    obtain rfl := hvui.produces.optional.1
    simp only [List.nil_append, List.cons_append]
    exact Code.concat_ensure_cons rfl _ _

end Sps

/-! ## Picture parameter sets -/

theorem TileSpacing.exact {D : ReadError → Bool → Prop} (columnsMinus1 rowsMinus1 : Nat) :
    (parse columnsMinus1 rowsMinus1).Exact D encode := by
  refine .bind (exact_flag _) fun isUniform _ => ?_
  cases isUniform with
  | true => exact .pure fun _ => (Code.concat_single _).symm
  | false =>
    refine .bind (.times (exact_ue _) _) fun widths _ => ?_
    exact .bind (.times (exact_ue _) _) fun heights _ => .pure fun _ => rfl

theorem DeblockingControl.exact {D : ReadError → Bool → Prop} : parse.Exact D encode := by
  refine .bind (exact_flag _) fun overrideEnabled _ => ?_
  refine .bind (exact_flag _) fun disabled _ => ?_
  refine .bind (.optionalD fun _ => exact_se _) fun beta _ => ?_
  exact .bind (.optionalD fun _ => exact_se _) fun tc _ => .pure fun _ => rfl

theorem ChromaQpOffsets.exact_pair {D : ReadError → Bool → Prop} : parsePair.Exact D encodePair := by
  refine .bind (exact_se _) fun cb _ => ?_
  exact .bind (exact_se _) fun cr _ => .pure fun _ => rfl

section Pps

variable {D : PpsError → Bool → Prop}

theorem TileGrid.exact (sps : Sps) : (parse sps).Exact D encode := by
  refine .bind (exact_ue _).mapError fun columns _ => ?_
  refine .ensure_bind fun _ => ?_
  refine .bind (exact_ue _).mapError fun rows _ => ?_
  refine .ensure_bind fun _ => ?_
  refine .bind (TileSpacing.exact _ _).mapError fun spacing _ => ?_
  exact .bind (exact_flag _).mapError fun loopFilter _ => .pure fun _ => rfl

theorem Partition.exact (sps : Sps) : (parse sps).Exact D encode := by
  refine .bind (exact_flag _).mapError fun hasTiles _ => ?_
  refine .bind (exact_flag _).mapError fun entropySync _ => ?_
  refine .bind (.optional fun _ => TileGrid.exact sps) fun tiles htiles => .pure fun _ => ?_
  obtain rfl := htiles.produces.optional.1
  rfl

theorem ChromaQpOffsets.exact : parse.Exact D encode := by
  refine .bind (exact_ue _).mapError fun depth _ => ?_
  refine .bind (exact_ue _).mapError fun lengthMinus1 _ => ?_
  refine .ensure_bind fun _ => ?_
  refine .bind (.times exact_pair.mapError _) fun pairs hpairs => .pure fun _ => ?_
  exact encode_pairs depth hpairs.produces.times.1

theorem PpsRangeExtension.exact (transformSkip : Bool) :
    (parse transformSkip).Exact D encode := by
  refine .bind (.optional fun _ => (exact_ue _).mapError) fun log2Max _ => ?_
  refine .bind (exact_flag _).mapError fun crossComponent _ => ?_
  refine .bind (exact_flag _).mapError fun hasOffsets _ => ?_
  refine .bind (.optional fun _ => ChromaQpOffsets.exact) fun offsets hoffsets => ?_
  refine .bind (exact_ue _).mapError fun luma _ => ?_
  refine .bind (exact_ue _).mapError fun chroma _ => .pure fun _ => ?_
  obtain rfl := hoffsets.produces.optional.1
  rfl

namespace PpsExtensions

theorem exact_unsupported (extension : String) :
    (parseUnsupported extension).Exact D fun _ => .flag false := by
  refine .bind (exact_flag _).mapError fun present _ => .ensure fun hpresent _ => ?_
  obtain rfl : present = false := by simpa using hpresent
  rfl

/-- The code of extensions that are present, with the announcement of those that are not known. -/
def encodePresent (e : PpsExtensions) : Code := .concat [
  .flag e.range.isSome,
  .flag false,
  .flag false,
  .flag false,
  .uint 4 e.unknown,
  .option PpsRangeExtension.encode e.range]

theorem exact_present (transformSkip : Bool) : (parsePresent transformSkip).Exact D encodePresent := by
  refine .bind (exact_flag _).mapError fun hasRange _ => ?_
  refine .bind (exact_unsupported _) fun _ _ => ?_
  refine .bind (exact_unsupported _) fun _ _ => ?_
  refine .bind (exact_unsupported _) fun _ _ => ?_
  refine .bind (exact_uint 4 _).mapError fun unknown _ => ?_
  refine .bind (.optional fun _ => PpsRangeExtension.exact _) fun range hrange => .pure fun _ => ?_
  obtain rfl := hrange.produces.optional.1
  rfl

/-- Extensions are written as they were, if they are present exactly if there is a range extension and
all of them are known. -/
theorem exact {hasRange transformSkip : Bool}
    (hD : ∀ b, D (.read (.endOfData "pps_extension_present_flag")) b → b = hasRange) :
    (parse transformSkip).ExactTo D AtStop encode
      (fun e => e.unknown = 0 ∧ e.range.isSome = hasRange) [] := by
  refine exactTo_extensions (exact_present _) hD rfl fun e hunknown hrange => ?_
  obtain ⟨range, unknown⟩ := e
  obtain ⟨range, rfl⟩ := Option.isSome_iff_exists.1 hrange
  obtain rfl : unknown = 0 := hunknown
  exact Code.range_extension range.encode

end PpsExtensions

namespace Pps

theorem exact_numRefIdx (element : String) : (parseNumRefIdx element).Exact D .ue :=
  (exact_ue _).mapError.checked

theorem exact_mergeLevel (sps : Sps) : (parseMergeLevel sps).Exact D .ue :=
  (exact_ue _).mapError.checked

theorem exact (known : SpsId → Option Sps) {hasRange : Bool}
    (hpresent : ∀ b, D (.read (.endOfData "pps_extension_present_flag")) b → b = hasRange) :
    (parse known).ExactPayload D (encode · .keep) fun p =>
      p.dependentSlices = false ∧ p.extensions.unknown = 0 ∧ p.extensions.range.isSome = hasRange := by
  refine ⟨_, fun _ => rfl, ?_⟩
  refine .bind (exact_ue _).mapError fun idNumber _ => ?_
  refine .ofExcept_bind fun id hid => ?_
  refine .bind (exact_ue _).mapError fun spsIdNumber _ => ?_
  refine .ofExcept_bind fun spsId hspsId => ?_
  refine .require_bind fun sps _ => ?_
  refine .bind (exact_flag _).mapError fun dependent _ => ?_
  cases dependent with
  | true =>
    refine exactTo_of_invalid fun p hp => ?_
    iterate 27 obtain ⟨_, -, hp⟩ := hp.bind
    obtain rfl := hp.pure
    exact fun hvalid => Bool.noConfusion hvalid.1
  | false =>
    refine .bind (exact_flag _).mapError fun output _ => ?_
    refine .bind (exact_uint 3 _).mapError fun extraBits _ => ?_
    refine .bind (exact_flag _).mapError fun signHiding _ => ?_
    refine .bind (exact_flag _).mapError fun cabacInit _ => ?_
    refine .bind (exact_numRefIdx _) fun refIdxL0 _ => ?_
    refine .bind (exact_numRefIdx _) fun refIdxL1 _ => ?_
    refine .bind (exact_se _).mapError fun initQp _ => ?_
    refine .bind (exact_flag _).mapError fun constrained _ => ?_
    refine .bind (exact_flag _).mapError fun transformSkip _ => ?_
    refine .bind (exact_flag _).mapError fun hasCuQpDelta _ => ?_
    refine .bind (.optional fun _ => (exact_ue _).mapError) fun cuQpDelta hcuQpDelta => ?_
    refine .bind (exact_se _).mapError fun cbQp _ => ?_
    refine .bind (exact_se _).mapError fun crQp _ => ?_
    refine .bind (exact_flag _).mapError fun sliceQp _ => ?_
    refine .bind (exact_flag _).mapError fun weighted _ => ?_
    refine .bind (exact_flag _).mapError fun weightedB _ => ?_
    refine .bind (exact_flag _).mapError fun bypass _ => ?_
    refine .check_bind ?_
    refine .bind (Partition.exact sps) fun partition _ => ?_
    refine .bind (exact_flag _).mapError fun acrossSlices _ => ?_
    refine .bind (exact_flag _).mapError fun hasDeblocking _ => ?_
    refine .bind (.optional fun _ => DeblockingControl.exact.mapError) fun deblocking hdeblocking => ?_
    refine .bind (exact_flag _).mapError fun hasLists _ => ?_
    refine .bind (.optional fun _ => ScalingLists.exact.mapError) fun lists hlists => ?_
    refine .bind (exact_flag _).mapError fun modification _ => ?_
    refine .bind (exact_mergeLevel sps) fun mergeLevel _ => ?_
    refine .bind (exact_flag _).mapError fun sliceExtension _ => ?_
    refine .bind_pure (PpsExtensions.exact hpresent) (fun _ hvalid => hvalid.2) fun extensions _ _ => ?_
    obtain rfl : id.val = idNumber := idBelow_eq_ok_iff.1 (mapError_eq_ok_iff.1 hid)
    obtain rfl : spsId.val = spsIdNumber := idBelow_eq_ok_iff.1 (mapError_eq_ok_iff.1 hspsId)
    obtain rfl := hcuQpDelta.produces.optional.1
    obtain rfl := hdeblocking.produces.optional.1
    obtain rfl := hlists.produces.optional.1
    simp only [List.nil_append, List.cons_append]
    rfl

end Pps

end Pps

/-! ## Re-encoding -/

namespace Context

/-- Parameter sets are written as the payloads that they were read from, but for zero bytes at their
end. No value keeps reserved bits, and extensions that are present but empty, so these must be as they
are written. -/
theorem reencoded (payload : Bytes) :
    (∀ v, decodeVps payload = .ok v → v.hasExtension = false →
      Vps.parse.ElementIs payload (.read (.endOfData "reserved_zero_2bits")) false →
      v.encode.MakesPayload (ByteStream.trimZeros payload)) ∧
    (∀ s, decodeSps payload = .ok s → s.longTerm = none →
      Sps.parse.ElementIs payload (.read (.endOfData "reserved_zero_2bits")) false →
      s.extensions.unknown = 0 →
      Sps.parse.ElementIs payload (.read (.endOfData "sps_extension_present_flag"))
        s.extensions.range.isSome →
      (s.resized s.format.width s.format.height).encode.MakesPayload
        (ByteStream.trimZeros payload)) ∧
    (∀ (c : Context) p, c.decodePps payload = .ok p → p.dependentSlices = false →
      p.extensions.unknown = 0 →
      (Pps.parse c.spsById).ElementIs payload (.read (.endOfData "pps_extension_present_flag"))
        p.extensions.range.isSome →
      (p.encode .keep).MakesPayload (ByteStream.trimZeros payload)) := by
  refine ⟨?_, ?_, ?_⟩
  · intro v hv hextension hreserved
    refine (Vps.exact fun b hb => ?_).rewritten hv
      (meets_of_elements [(_, _)] (List.forall_mem_singleton.2 hreserved)) hextension
    exact hb _ List.mem_cons_self rfl
  · intro s hs hlongTerm hreserved hunknown hpresent
    refine (Sps.exact (fun b hb => ?_) fun b hb => ?_).rewritten hs
      (meets_of_elements [(_, _), (_, _)]
        (List.forall_mem_cons.2 ⟨hreserved, List.forall_mem_singleton.2 hpresent⟩))
      ⟨hlongTerm, hunknown, rfl⟩
    · exact hb _ List.mem_cons_self rfl
    · exact hb _ (List.mem_cons_of_mem _ List.mem_cons_self) rfl
  · intro c p hp hdependent hunknown hpresent
    refine (Pps.exact c.spsById fun b hb => ?_).rewritten hp
      (meets_of_elements [(_, _)] (List.forall_mem_singleton.2 hpresent)) ⟨hdependent, hunknown, rfl⟩
    exact hb _ List.mem_cons_self rfl

/-- The payload of the video parameter set of `Sample.picture`. -/
def plainVpsPayload : Bytes := [
  12, 1, 255, 255, 1, 96, 0, 0, 0, 144, 0, 0, 0, 0, 0, 123, 149, 152, 9]

def plainVps : Vps :=
  match decodeVps plainVpsPayload with
  | .ok v => v
  | .error _ => default

/-- The payload of a sequence parameter set with a zero byte behind it. -/
def layeredSpsPayload : Bytes := [
  3, 1, 96, 0, 0, 0, 144, 0, 0, 0, 0, 0, 123, 64, 0, 90, 160, 136, 150, 81, 89, 164, 145, 34, 182, 2,
  171, 0]

/-- A sequence parameter set with two sub-layers, which reserved bits come behind, and a range
extension. -/
def layeredSps : Sps :=
  match decodeSps layeredSpsPayload with
  | .ok s => s
  | .error _ => default

/-- The payload of a picture parameter set without dependent slices and with a range extension. -/
def extendedPpsPayload : Bytes := [192, 117, 132, 188, 88, 5, 233, 240]

def extendedPps : Pps :=
  match Sample.ctx.decodePps extendedPpsPayload with
  | .ok p => p
  | .error _ => default

theorem reencoded_sample :
    plainVps.encode.MakesPayload plainVpsPayload ∧
      (layeredSps.resized layeredSps.format.width layeredSps.format.height).encode.MakesPayload
        layeredSpsPayload.dropLast ∧
      (extendedPps.encode .keep).MakesPayload extendedPpsPayload := by
  have hvps := (reencoded plainVpsPayload).1 plainVps (by decide +kernel) (by decide +kernel)
    (by decide +kernel)
  have hsps := (reencoded layeredSpsPayload).2.1 layeredSps (by decide +kernel) (by decide +kernel)
    (by decide +kernel) (by decide +kernel) (by decide +kernel)
  have hpps := (reencoded extendedPpsPayload).2.2 Sample.ctx extendedPps (by decide +kernel)
    (by decide +kernel) (by decide +kernel) (by decide +kernel)
  rw [show ByteStream.trimZeros plainVpsPayload = plainVpsPayload by decide +kernel] at hvps
  rw [show ByteStream.trimZeros layeredSpsPayload = layeredSpsPayload.dropLast by decide +kernel]
    at hsps
  rw [show ByteStream.trimZeros extendedPpsPayload = extendedPpsPayload by decide +kernel] at hpps
  exact ⟨hvps, hsps, hpps⟩

end Context

end TiledVideo
