import TiledVideo.Proofs.Bitstream.ExactPayloads
import TiledVideo.Proofs.ParamSet.ExactParts
import TiledVideo.Proofs.Slice.Rewriting

/-!
# Slice headers that are written in place

A header that is written for the picture and the place that it was read at takes the same bytes as
before. So the reader keeps every bit of a header, apart from reserved flags and the zero bits that fill
it up.

Results:

* `SliceFields.exact`: the fields of a segment are written as they were.
* `SliceHeader.exact`: so is the header of a segment that is written in place.
* `SliceHeader.rewritten_in_place`: the bytes in front of the data of the segment stay the same.
-/

namespace TiledVideo

open Reader

variable {D : SliceError → Bool → Prop}

theorem SliceError.exact_ueUpTo (max : Nat) (element : String) : (ueUpTo max element).Exact D .ue :=
  (exact_ue _).mapError.checked

/-! ## Reference pictures -/

theorem ShortTermChoice.exact (sets : List RefPicSet) : (parse sets).Exact D (encode sets) := by
  refine .bind (exact_flag _).mapError fun isListed _ => ?_
  cases isListed with
  | true =>
    refine .bind (exact_uint _ _).mapError fun index _ => ?_
    refine .ensure_bind fun hlt => .pure fun _ => ?_
    exact Code.concat_ensure_cons hlt _ _
  | false => exact (RefPicSet.exact _ _ _).mapError.map fun set _ _ => rfl

/-- The reference pictures of a slice, if none of them can be a long-term one. -/
theorem RefPics.exact {sps : Sps} (hlong : sps.longTerm = none) :
    (parse sps).Exact D (encode sps) := by
  refine .bind (exact_uint _ _).mapError fun pocLsb _ => ?_
  refine .bind (ShortTermChoice.exact _) fun shortTerm _ => ?_
  rw [hlong]
  refine .pure_bind ?_
  exact .bind (.optionalD fun _ => (exact_flag _).mapError) fun temporalMvp _ => .pure fun _ => rfl

/-! ## Prediction -/

section Prediction

variable {D : ReadError → Bool → Prop}

theorem ListModification.exact_list (total countMinus1 : Nat) (element : String) :
    (parseList total countMinus1 element).Exact D (encodeList total countMinus1) := by
  refine .bind (exact_flag _) fun modified _ => ?_
  refine .last (.optional fun _ => .times (exact_uint _ _) _) fun entries hentries _ => ?_
  obtain ⟨rfl, hread⟩ := hentries.produces.optional
  cases entries with
  | none => rfl
  | some entries =>
    have hlength : (entries.length == countMinus1 + 1) = true :=
      beq_iff_eq.2 (hread entries rfl).times.1
    exact congrArg (Code.flag true ++ ·) (Code.concat_ensure_cons hlength _ _)

theorem ListModification.exact (total l0Minus1 l1Minus1 : Nat) (hasL1 : Bool) :
    (parse total l0Minus1 l1Minus1 hasL1).Exact D (encode total l0Minus1 l1Minus1 hasL1) := by
  refine .bind (exact_list _ _ _) fun l0 _ => ?_
  exact .bind (.optionalD fun _ => exact_list _ _ _) fun l1 _ => .pure fun _ => rfl

namespace PicWeight

theorem exact_luma : parseLuma.Exact D fun w => .concat [.se w.deltaWeight, .se w.offset] := by
  refine .bind (exact_se _) fun weight _ => ?_
  exact .bind (exact_se _) fun offset _ => .pure fun _ => rfl

theorem exact_chroma : parseChroma.Exact D encodeChroma := by
  refine .bind (exact_se _) fun weight _ => ?_
  exact .bind (exact_se _) fun offset _ => .pure fun _ => rfl

theorem exact_chromaPair : parseChromaPair.Exact D fun pair =>
    .concat [encodeChroma pair.1, encodeChroma pair.2] := by
  refine .bind exact_chroma fun cb _ => ?_
  exact .bind exact_chroma fun cr _ => .pure fun _ => rfl

theorem exact (present : Bool × Bool) : (parse present).Exact D (encode true) := by
  refine .bind (.optional fun _ => exact_luma) fun luma _ => ?_
  exact .bind (.optional fun _ => exact_chromaPair) fun chroma _ => .pure fun _ => rfl

/-- There is no code for chroma weights where there are none. -/
theorem encode_eq {chroma : Bool} {w : PicWeight} (h : w.chroma.isSome = true → chroma = true) :
    w.encode true = w.encode chroma := by
  obtain ⟨luma, pair⟩ := w
  cases chroma with
  | true => rfl
  | false =>
    cases pair with
    | none => rfl
    | some pair => cases h rfl

theorem exact_list (chroma : Bool) (count : Nat) :
    (parseList chroma count).Exact D (encodeList chroma) := by
  refine .bind (.times (exact_flag _) _) fun lumaFlags hlumaFlags => ?_
  refine .bind (.times (.optionalD fun _ => exact_flag _) _) fun chromaFlags hchromaFlags => ?_
  refine .last (.each exact _) fun ws hws _ => ?_
  obtain ⟨hlumaLen, -⟩ := hlumaFlags.produces.times
  obtain ⟨hchromaLen, hchromaMem⟩ := hchromaFlags.produces.times
  obtain ⟨rfl, rfl⟩ := flags_of_produces (hlumaLen.trans hchromaLen.symm) hws.produces
  have hweights : Code.each (encode true) ws = Code.each (encode chroma) ws := by
    refine congrArg Code.concat (List.map_congr_left fun w hw => encode_eq fun hsome => ?_)
    by_contra hfalse
    have := (hchromaMem _ (List.mem_map_of_mem hw)).optionalD.2 (by simpa using hfalse)
    rw [hsome] at this
    cases this
  have hchroma : Code.each (fun b => .onlyIf chroma (.flag b)) (ws.map (·.chroma.isSome)) =
      .onlyIf chroma (.each (fun w => .flag w.chroma.isSome) ws) := by
    cases chroma with
    | true => exact congrArg Code.concat (List.map_map)
    | false => exact Code.each_empty _
  have hluma : Code.each .flag (ws.map (·.luma.isSome)) = .each (fun w => .flag w.luma.isSome) ws :=
    congrArg Code.concat List.map_map
  rw [encodeList, ← hweights, ← hchroma, ← hluma]
  rfl

end PicWeight

end Prediction

theorem WeightTable.exact (chroma : Bool) (l0Minus1 l1Minus1 : Nat) (hasL1 : Bool) :
    (parse chroma l0Minus1 l1Minus1 hasL1).Exact D (encode chroma hasL1) := by
  refine .bind (SliceError.exact_ueUpTo _ _) fun lumaDenom _ => ?_
  refine .bind (.announced (fun denom => .se (denom.getD 0)) fun _ => (exact_se _).mapError)
    fun chromaDenom _ => ?_
  refine .bind (PicWeight.exact_list _ _).mapError fun l0 _ => ?_
  exact .bind (.optionalD fun _ => (PicWeight.exact_list _ _).mapError) fun l1 _ => .pure fun _ => rfl

theorem Prediction.exact (pps : Pps) (s : Setting) : (parse pps s).Exact D (encode pps s) := by
  refine .bind (exact_flag _).mapError fun override _ => ?_
  refine .bind (.optionalD fun _ => SliceError.exact_ueUpTo _ _) fun l0 _ => ?_
  refine .bind (.optionalD fun _ => SliceError.exact_ueUpTo _ _) fun l1 _ => ?_
  refine .bind (.announced (fun m => (m.getD default).encode s.total l0 l1 (s.type == .b))
    fun _ => (ListModification.exact _ _ _ _).mapError) fun modification _ => ?_
  refine .bind (.optionalD fun _ => (exact_flag _).mapError) fun mvdL1Zero _ => ?_
  refine .bind (.optionalD fun _ => (exact_flag _).mapError) fun cabacInit _ => ?_
  refine .bind (.optionalD fun _ => (exact_flag _).mapError) fun fromL0 _ => ?_
  refine .bind (.optionalD fun _ => SliceError.exact_ueUpTo _ _) fun refIdx _ => ?_
  refine .bind (.announced
    (·.elim (.error (.unsupported "missing pred_weight_table")) (·.encode s.chroma (s.type == .b)))
    fun _ => WeightTable.exact _ _ _ _) fun weights _ => ?_
  refine .bind (SliceError.exact_ueUpTo _ _) fun mergeCand _ => .pure fun _ => ?_
  cases weights <;> rfl

/-! ## Fields -/

theorem SliceType.exact : parse.Exact D fun type => .ue type.id := by
  refine .bind (exact_ue _).mapError fun id _ => .require fun type htype _ => ?_
  obtain rfl := ofId?_eq_some_iff.1 htype
  exact (Code.concat_single _).symm

theorem SliceQp.exact {D : ReadError → Bool → Prop} (pps : Pps) :
    (parse pps).Exact D (encode pps) := by
  refine .bind (exact_se _) fun delta _ => ?_
  refine .bind (.optionalD fun _ => exact_se _) fun cb _ => ?_
  refine .bind (.optionalD fun _ => exact_se _) fun cr _ => ?_
  exact .bind (.optionalD fun _ => exact_flag _) fun cu _ => .pure fun _ => rfl

theorem SliceDeblocking.exact {D : ReadError → Bool → Prop} (control : DeblockingControl) :
    (parse control).Exact D (encode control) := by
  refine .bind (.optionalD fun _ => exact_flag _) fun overrides hoverrides => ?_
  refine .bind (.optionalD fun _ => exact_flag _) fun disabled _ => ?_
  refine .bind (.optionalD fun _ => exact_se _) fun beta _ => ?_
  refine .bind (.optionalD fun _ => exact_se _) fun tc _ => .pure fun _ => ?_
  rw [encode, overridesIn, hoverrides.produces.and_eq]
  rfl

/-- The fields of a segment are written as they were if no reserved flags are set. -/
theorem SliceFields.exact {unitType : UnitType} {sps : Sps} {pps : Pps}
    (houtput : pps.outputFlagPresent = false) (hplanes : sps.format.separatePlanes = false)
    (hlong : sps.longTerm = none) :
    (parse unitType sps pps).ExactAfter D (encode unitType sps pps) (fun f => f.reservedFlags = 0)
      [] := by
  refine .bind (exact_uint _ _).mapError fun reserved _ => ?_
  refine .bind SliceType.exact fun type _ => ?_
  rw [houtput, hplanes]
  refine .pure_bind <| .pure_bind ?_
  refine .bind (.optionalD fun _ => RefPics.exact hlong) fun refs hrefs => ?_
  refine .bind (.optionalD fun _ => (exact_flag _).mapError) fun saoLuma _ => ?_
  refine .bind (.optionalD fun _ => (exact_flag _).mapError) fun saoChroma _ => ?_
  refine .bind (.optionalD fun _ => Prediction.exact _ _) fun prediction _ => ?_
  refine .bind (SliceQp.exact _).mapError fun qp _ => ?_
  refine .bind (SliceDeblocking.exact _).mapError fun deblocking hdeblocking => ?_
  refine .bind (.optionalD fun _ => (exact_flag _).mapError) fun across _ => .pure fun hreserved => ?_
  obtain rfl : reserved = 0 := hreserved
  rw [encode, (SliceDeblocking.inherits_of_produces hdeblocking.produces.mapError).2,
    RefPics.totalCount_eq (RefPics.longTerm_of_produces hrefs.produces hlong)]
  rfl

/-! ## Entry points and extension data -/

theorem EntryPoints.exact (sps : Sps) : (parse sps).Exact D encode := by
  refine .bind (SliceError.exact_ueUpTo _ _) fun count _ => ?_
  refine .bind (.optionalD fun _ => SliceError.exact_ueUpTo _ _) fun length _ => ?_
  refine .bind (.times (exact_uint _ _).mapError _) fun offsets hoffsets => .pure fun _ => ?_
  obtain ⟨rfl, -⟩ := hoffsets.produces.times
  have hpresent : (!offsets.isEmpty) = (offsets.length != 0) := by cases offsets <;> rfl
  rw [encode, hpresent]
  rfl

namespace SliceHeader

theorem exact_extension : parseExtension.Exact D encodeExtension := by
  refine .bind (SliceError.exact_ueUpTo _ _) fun length _ => ?_
  refine .last (.times (exact_uint _ _).mapError _) fun data hdata _ => ?_
  obtain ⟨rfl, -⟩ := hdata.produces.times
  rfl

theorem atAlignment_of_parse {c c' : Cursor} {u : Unit} (h : parseAlignment c = .ok u c')
    (hmeets : parseAlignment.Meets D c)
    (hD : ∀ b, D (.read (.endOfData "alignment_bit_equal_to_zero")) b → b = false) :
    AtAlignment c c' := by
  obtain ⟨one, c₁, hflag, h⟩ := step_bind_eq_ok.1 h
  have hflag := mapError_eq_ok.1 hflag
  obtain ⟨hbits, hpos⟩ := flag_eq_ok hflag
  obtain ⟨taken, htaken⟩ : ∃ taken, (flag _).Takes c taken one c₁ := local_flag _ c one c₁ hflag
  have hmeets := hmeets.rest (htaken.mapError _)
  cases one with
  | false => cases h
  | true =>
    have hskip : skip ((8 - c₁.position % 8) % 8) "alignment_bit_equal_to_zero" c₁ = .ok u c' :=
      mapError_eq_ok.1 h
    have hcount : (8 - c₁.position % 8) % 8 = 7 - c.position % 8 := by omega
    obtain ⟨hzeros, hend⟩ := zeros_of_skip hskip
      (fun front b rest e c'' hsplit hfail => hmeets.mapError front b rest e c'' hsplit hfail) hD
    rw [hcount] at hzeros hend
    refine ⟨?_, by omega⟩
    rw [hbits, hzeros]
    rfl

/-! ## Headers -/

/-- The place of a segment in the picture that it was read in. -/
def inPlace (sps : Sps) (address : Nat) : Target where
  width := sps.format.width
  height := sps.format.height
  tiles := .keep
  x := address % sps.widthInCtbs * sps.ctbSize
  y := address / sps.widthInCtbs * sps.ctbSize
  independent := true

theorem encodeAddress_inPlace {sps : Sps} {address : Nat} (h : address < sps.sizeInCtbs) :
    (inPlace sps address).encodeAddress sps.log2Ctb =
      .uint (Bits.widthFor sps.sizeInCtbs) address := by
  have hwidth : 0 < sps.widthInCtbs := Nat.pos_of_mul_pos_right (Nat.zero_lt_of_lt h)
  have hx : address % sps.widthInCtbs < sps.widthInCtbs := Nat.mod_lt _ hwidth
  have hy : address / sps.widthInCtbs < sps.heightInCtbs := Nat.div_lt_of_lt_mul h
  have hmul : ∀ {k n : Nat}, k < ctbsFor n sps.log2Ctb → k * sps.ctbSize < n := fun hk =>
    Nat.lt_of_not_le fun hle => Nat.not_le_of_lt hk (ctbsFor_le_iff.2 hle)
  have hin : (decide ((inPlace sps address).x < (inPlace sps address).width) &&
      decide ((inPlace sps address).y < (inPlace sps address).height)) = true := by
    rw [Bool.and_eq_true, decide_eq_true_iff, decide_eq_true_iff]
    exact ⟨hmul hx, hmul hy⟩
  have haddress : (inPlace sps address).address sps.log2Ctb = address := by
    show address / sps.widthInCtbs * sps.ctbSize / 2 ^ sps.log2Ctb * sps.widthInCtbs +
      address % sps.widthInCtbs * sps.ctbSize / 2 ^ sps.log2Ctb = address
    rw [Sps.ctbSize, Nat.mul_div_cancel _ (Nat.two_pow_pos _),
      Nat.mul_div_cancel _ (Nat.two_pow_pos _), Nat.mul_comm, Nat.div_add_mod]
  rw [Target.encodeAddress, Code.concat_ensure_cons hin, Code.concat_single, haddress]
  rfl

theorem isFirst_inPlace (sps : Sps) (address : Nat) :
    (inPlace sps address).isFirst = (address == 0) := by
  have hctb : sps.ctbSize ≠ 0 := Nat.ne_of_gt (Nat.two_pow_pos _)
  rw [Bool.eq_iff_iff]
  show (address % sps.widthInCtbs * sps.ctbSize == 0 &&
    address / sps.widthInCtbs * sps.ctbSize == 0) = true ↔ _
  simp only [Bool.and_eq_true, beq_iff_eq, Nat.mul_eq_zero, hctb, or_false]
  constructor
  · rintro ⟨hx, hy⟩
    rw [← Nat.div_add_mod address sps.widthInCtbs, hx, hy, Nat.mul_zero]
  · rintro rfl
    exact ⟨Nat.zero_mod _, Nat.zero_div _⟩

variable {ctx : Context} {unitType : UnitType} {previous : Option SliceHeader} {sps : Sps} {pps : Pps}

/-- A header is written as it was if it names the parameter sets that it is written with. -/
theorem exact (hsps : ctx.spsOf pps = some sps) (hlong : sps.longTerm = none)
    (houtput : pps.outputFlagPresent = false) (hplanes : sps.format.separatePlanes = false)
    (hdependent : pps.dependentSlices = false)
    (hD : ∀ b, D (.read (.endOfData "alignment_bit_equal_to_zero")) b → b = false) :
    (parse ctx unitType previous).ExactFront D
      (fun h => h.encode unitType sps pps (inPlace sps h.address)) fun h =>
        ctx.ppsById h.ppsId = some pps ∧ h.fields.reservedFlags = 0 ∧
          h.first = (h.address == 0) := by
  refine ⟨_, fun _ => rfl, ?_⟩
  refine .bind (exact_flag _).mapError fun first _ => ?_
  refine .bind (.optionalD fun _ => (exact_flag _).mapError) fun noOutput _ => ?_
  refine .bind (exact_ue _).mapError fun idNumber _ => ?_
  refine .ofExcept_bind fun id hid => ?_
  refine .require_bind fun pps' hpps' => ?_
  refine .require_bind fun sps' hsps' => ?_
  by_cases hsame : ctx.ppsById id = some pps
  · obtain rfl : pps' = pps := Option.some.inj (hpps'.symm.trans hsame)
    obtain rfl : sps' = sps := Option.some.inj (hsps'.symm.trans hsps)
    rw [hdependent, Bool.and_false]
    refine .pure_bind ?_
    refine .bind (.optionalD fun _ => (exact_uint _ _).mapError.checked) fun address haddress => ?_
    refine .bind_of_valid (SliceFields.exact houtput hplanes hlong) ?_ fun fields _ => ?_
    · rintro fields h hh ⟨-, hreserved, -⟩
      iterate 3 obtain ⟨_, -, hh⟩ := hh.bind
      obtain rfl := hh.pure
      exact hreserved
    refine .bind (.announced (fun e => (e.getD .none).encode) fun _ => EntryPoints.exact _)
      fun entries _ => ?_
    refine .bind (.announced (fun data => encodeExtension (data.getD [])) fun _ => exact_extension)
      fun extension _ => ?_
    refine .end_bind_pure (fun c _ c' h hmeets => atAlignment_of_parse h hmeets hD) ?_
    rintro ⟨-, -, hfirst⟩
    obtain rfl : id.val = idNumber := idBelow_eq_ok_iff.1 (mapError_eq_ok_iff.1 hid)
    have hisFirst : (inPlace sps' address).isFirst = first :=
      (isFirst_inPlace sps' address).trans hfirst.symm
    have hplace : Code.onlyIf (!first) ((inPlace sps' address).encodeAddress sps'.log2Ctb) =
        .onlyIf (!first) (.uint (Bits.widthFor sps'.sizeInCtbs) address) := by
      cases first with
      | true => rfl
      | false => exact encodeAddress_inPlace (address_lt (haddress.produces.optionalD.1 rfl))
    refine (Code.concat_ensure_cons (by rw [houtput]; rfl) _ _).trans ?_
    refine (Code.concat_ensure_cons (by rw [hplanes]; rfl) _ _).trans ?_
    refine (Code.concat_ensure_cons (by rw [hlong]; rfl) _ _).trans ?_
    rw [hisFirst, hplace]
    rfl
  · -- the header would name other parameter sets than those that it is written with
    refine exactTo_of_invalid fun h hh hvalid => hsame ?_
    obtain ⟨dependent, -, hh⟩ := hh.bind
    obtain ⟨_, -, hh⟩ := hh.bind
    cases dependent <;>
    · iterate 4 obtain ⟨_, -, hh⟩ := hh.bind
      obtain rfl := hh.pure
      exact hvalid.1

/-- A header that is written for the picture and the place that it was read at takes the same bytes. Its
reserved flags and the bits that fill it up must be zero as they are written, and only the first segment
of the picture begins in its first place. -/
theorem rewritten_in_place {payload : Bytes} {h : SliceHeader} {n : Nat}
    (hparse : (parse ctx unitType previous).decodeFront payload = .ok (h, n))
    (hpps : ctx.ppsById h.ppsId = some pps) (hsps : ctx.spsOf pps = some sps)
    (hlong : sps.longTerm = none) (houtput : pps.outputFlagPresent = false)
    (hplanes : sps.format.separatePlanes = false) (hdependent : pps.dependentSlices = false)
    (hreserved : h.fields.reservedFlags = 0) (hfirst : h.first = (h.address == 0))
    (halignment : (parse ctx unitType previous).ElementIs payload
      (.read (.endOfData "alignment_bit_equal_to_zero")) false) :
    ∃ front rest, payload = front ++ rest ∧ n = 8 * front.length ∧
      (h.encode unitType sps pps {
        width := sps.format.width
        height := sps.format.height
        tiles := .keep
        x := h.address % sps.widthInCtbs * sps.ctbSize
        y := h.address / sps.widthInCtbs * sps.ctbSize
        independent := true }).MakesPayload front := by
  refine (exact hsps hlong houtput hplanes hdependent fun b hb => ?_).rewritten hparse
    (meets_of_elements [(_, _)] (List.forall_mem_singleton.2 halignment)) ⟨hpps, hreserved, hfirst⟩
  exact hb _ List.mem_cons_self rfl

/-- Parameter sets for slices of two tiles with modified lists and weights. -/
def predictedCtx : Context :=
  match AccessUnit.decode .empty [
    0, 0, 0, 1, 66, 1, 1, 1, 96, 0, 0, 3, 0, 144, 0, 0, 3, 0, 0, 3, 0, 123, 160, 3, 192, 128, 17, 7,
    203, 150, 86, 105, 36, 72, 146, 94, 200,
    0, 0, 0, 1, 68, 1, 194, 241, 212, 191, 110, 128] with
  | .ok (_, ctx) => ctx
  | .error _ => .empty

def predictedSps : Sps := (predictedCtx.spsById 0).getD default

def predictedPps : Pps := (predictedCtx.ppsById 0).getD default

/-- The header of a slice that is predicted from two pictures, with two bytes of data behind it. -/
def predictedPayload : Bytes := [
  65, 232, 43, 79, 87, 42, 110, 81, 86, 97, 157, 57, 51, 62, 50, 40, 30, 200, 1]

/-- A header with a reference picture set of its own, a new order of pictures, weights, settings of the
deblocking filter, entry points and extension data. -/
def predictedHeader : SliceHeader :=
  match (parse predictedCtx ⟨1⟩ none).decodeFront predictedPayload with
  | .ok (h, _) => h
  | .error _ => default

theorem rewritten_in_place_sample :
    (predictedHeader.encode ⟨1⟩ predictedSps predictedPps {
      width := 1920
      height := 1088
      tiles := .keep
      x := 960
      y := 0
      independent := true }).MakesPayload (predictedPayload.take 17) := by
  have hparse : (parse predictedCtx ⟨1⟩ none).decodeFront predictedPayload =
      .ok (predictedHeader, 136) := by decide +kernel
  have hpps : predictedCtx.ppsById predictedHeader.ppsId = some predictedPps := by decide +kernel
  have hsps : predictedCtx.spsOf predictedPps = some predictedSps := by decide +kernel
  have htarget : inPlace predictedSps predictedHeader.address =
      { width := 1920, height := 1088, tiles := .keep, x := 960, y := 0 } := by decide +kernel
  obtain ⟨front, rest, hpayload, hlength, hwritten⟩ :=
    rewritten_in_place hparse hpps hsps (by decide +kernel) (by decide +kernel) (by decide +kernel)
      (by decide +kernel) (by decide +kernel) (by decide +kernel) (by decide +kernel)
  have hfront : front = predictedPayload.take 17 := by
    rw [hpayload, List.take_left' (by omega)]
  rw [← htarget, ← hfront]
  exact hwritten

end SliceHeader

end TiledVideo
