import TiledVideo.Proofs.Bitstream.Elements
import TiledVideo.Slice.Prediction

/-!
# Reading back how a slice is predicted

Results:

* `Prediction.reads`: orders of the reference pictures, motion prediction and weights.
-/

namespace TiledVideo

open Reader

namespace SliceError

theorem reads_ueUpTo {max v : Nat} (element : String) (h : v < 2 ^ 32 - 1) (hle : v ≤ max) :
    (ueUpTo max element).Reads (.ue v) v :=
  ((reads_ue _ h).mapError _).bind_empty <|
    Reads.ensure_bind (decide_eq_true hle) <| reads_pure v

theorem bounds_of_produces {max v : Nat} {element : String} (h : (ueUpTo max element).Produces v) :
    v < 2 ^ 32 - 1 ∧ v ≤ max := by
  obtain ⟨v, hv, h⟩ := h.bind
  obtain ⟨_, hle, h⟩ := h.bind
  obtain rfl := h.pure
  exact ⟨hv.mapError.ue, of_decide_eq_true hle.ensure⟩

end SliceError

theorem Reader.Produces.reads_ueUpTo {max v : Nat} {element : String}
    (h : (SliceError.ueUpTo max element).Produces v) :
    (SliceError.ueUpTo max element).Reads (.ue v) v :=
  SliceError.reads_ueUpTo _ (SliceError.bounds_of_produces h).1 (SliceError.bounds_of_produces h).2

/-! ## Order of the reference pictures -/

namespace ListModification

theorem reads_list {total countMinus1 : Nat} {element : String} {entries : Option (List Nat)}
    (h : (parseList total countMinus1 element).Produces entries) :
    (parseList total countMinus1 element).Reads (encodeList total countMinus1 entries) entries := by
  obtain ⟨modified, -, h⟩ := h.bind
  obtain ⟨rfl, hread⟩ := h.optional
  cases entries with
  | none => exact (reads_flag _ false).bind_empty <| reads_pure none
  | some entries =>
    obtain ⟨hlen, hmem⟩ := (hread entries rfl).times
    exact (reads_flag _ true).cons <|
      Reads.ensure_cons (beq_iff_eq.2 hlen) <|
      Reads.concat_single <|
      (Reads.times hlen fun a ha => (hmem a ha).reads_uint).map some

theorem reads {total l0Minus1 l1Minus1 : Nat} {hasL1 : Bool} {m : ListModification}
    (h : (parse total l0Minus1 l1Minus1 hasL1).Produces m) :
    (parse total l0Minus1 l1Minus1 hasL1).Reads (m.encode total l0Minus1 l1Minus1 hasL1) m := by
  obtain ⟨l0, hl0, h⟩ := h.bind
  obtain ⟨l1, hl1, h⟩ := h.bind
  obtain rfl := h.pure
  obtain ⟨hl1Read, hl1Absent⟩ := hl1.optionalD
  exact (reads_list hl0).cons <|
    (Reads.optionalD (fun hp => reads_list (hl1Read hp)) hl1Absent).cons <|
    reads_nil _

end ListModification

/-! ## Weights -/

namespace PicWeight

theorem reads_luma {w : LumaWeight} (h : parseLuma.Produces w) :
    parseLuma.Reads (.concat [.se w.deltaWeight, .se w.offset]) w := by
  obtain ⟨weight, hweight, h⟩ := h.bind
  obtain ⟨offset, hoffset, h⟩ := h.bind
  obtain rfl := h.pure
  exact hweight.reads_se.cons <| hoffset.reads_se.cons <| reads_nil _

theorem reads_chroma {w : ChromaWeight} (h : parseChroma.Produces w) :
    parseChroma.Reads (encodeChroma w) w := by
  obtain ⟨weight, hweight, h⟩ := h.bind
  obtain ⟨offset, hoffset, h⟩ := h.bind
  obtain rfl := h.pure
  exact hweight.reads_se.cons <| hoffset.reads_se.cons <| reads_nil _

theorem reads_chromaPair {w : ChromaWeight × ChromaWeight} (h : parseChromaPair.Produces w) :
    parseChromaPair.Reads (.concat [encodeChroma w.1, encodeChroma w.2]) w := by
  obtain ⟨cb, hcb, h⟩ := h.bind
  obtain ⟨cr, hcr, h⟩ := h.bind
  obtain rfl := h.pure
  exact (reads_chroma hcb).cons <| (reads_chroma hcr).cons <| reads_nil _

/-- The flags that announce the weights of a picture. -/
def presence (w : PicWeight) : Bool × Bool :=
  (w.luma.isSome, w.chroma.isSome)

/-- Weights are read back if chroma weights are given only where there are chroma samples. -/
theorem reads {present : Bool × Bool} {w : PicWeight} (h : (parse present).Produces w)
    {chroma : Bool} (hchroma : present.2 = true → chroma = true) :
    present = w.presence ∧ (parse present).Reads (w.encode chroma) w := by
  obtain ⟨luma, hluma, h⟩ := h.bind
  obtain ⟨chromaPair, hchromaPair, h⟩ := h.bind
  obtain rfl := h.pure
  obtain ⟨hl, hlumaRead⟩ := hluma.optional
  obtain ⟨hc, hchromaRead⟩ := hchromaPair.optional
  obtain rfl : present = (luma.isSome, chromaPair.isSome) := Prod.ext hl hc
  have hpair := Reads.optional fun a ha => reads_chromaPair (hchromaRead a ha)
  refine ⟨rfl, (Reads.optional fun a ha => reads_luma (hlumaRead a ha)).cons ?_⟩
  cases chroma with
  | true => exact hpair.cons <| reads_nil _
  | false =>
    cases chromaPair with
    | none => exact hpair.cons <| reads_nil _
    | some pair => cases hchroma rfl

/-- The flags that were read are those that are written. -/
theorem flags_of_produces {lumaFlags chromaFlags : List Bool} {ws : List PicWeight}
    (hlength : lumaFlags.length = chromaFlags.length)
    (h : (each parse (lumaFlags.zip chromaFlags)).Produces ws) :
    lumaFlags = ws.map (·.luma.isSome) ∧ chromaFlags = ws.map (·.chroma.isSome) := by
  have hzip : lumaFlags.zip chromaFlags = ws.map presence := by
    rw [← List.forall₂_eq_eq_eq, List.forall₂_map_right_iff]
    exact h.each.imp fun _ _ hw => (reads hw fun _ => (rfl : true = true)).1
  constructor
  · have := congrArg (List.map Prod.fst) hzip
    rwa [List.map_fst_zip (by omega), List.map_map] at this
  · have := congrArg (List.map Prod.snd) hzip
    rwa [List.map_snd_zip (by omega), List.map_map] at this

theorem reads_list {chroma : Bool} {count : Nat} {ws : List PicWeight}
    (h : (parseList chroma count).Produces ws) :
    (parseList chroma count).Reads (encodeList chroma ws) ws := by
  obtain ⟨lumaFlags, hlumaFlags, h⟩ := h.bind
  obtain ⟨chromaFlags, hchromaFlags, h⟩ := h.bind
  obtain ⟨hlumaLen, -⟩ := hlumaFlags.times
  obtain ⟨hchromaLen, hchromaMem⟩ := hchromaFlags.times
  have hchroma : ∀ pair ∈ lumaFlags.zip chromaFlags, pair.2 = true → chroma = true := by
    intro pair hpair htrue
    by_contra hfalse
    have := (hchromaMem pair.2 (List.of_mem_zip hpair).2).optionalD.2 (by simpa using hfalse)
    rw [htrue] at this
    cases this
  have hread : List.Forall₂ (fun present w => (parse present).Reads (encode chroma w) w)
      (lumaFlags.zip chromaFlags) ws := by
    rw [List.forall₂_iff_zip]
    refine ⟨h.each.length_eq, fun hmem => ?_⟩
    exact (reads ((List.forall₂_iff_zip.1 h.each).2 hmem) (hchroma _ (List.of_mem_zip hmem).1)).2
  obtain ⟨hluma, hchromaEq⟩ := flags_of_produces (hlumaLen.trans hchromaLen.symm) h
  have hlen : ws.length = count := by rw [← hlumaLen, hluma, List.length_map]
  have hlumaRead := Reads.times_map (p := flag "luma_weight_flag") hlen
    fun w _ => reads_flag "luma_weight_flag" w.luma.isSome
  rw [← hluma] at hlumaRead
  refine hlumaRead.cons ?_
  have hchromaRead : (times count (optionalD chroma (flag "chroma_weight_flag") false)).Reads
      (.onlyIf chroma (.each (fun w => .flag w.chroma.isSome) ws)) chromaFlags := by
    cases chroma with
    | true =>
      rw [hchromaEq]
      exact Reads.times_map hlen fun w _ => reads_flag _ _
    | false =>
      have hempty : (times count (pure false : Reader ReadError Bool)).Reads
          (.each (fun _ => .empty) chromaFlags) chromaFlags :=
        Reads.times hchromaLen fun b hb => by
          rw [(hchromaMem b hb).optionalD.2 rfl]
          exact reads_pure false
      rw [Code.each_empty] at hempty
      exact hempty
  exact hchromaRead.cons <| (Reads.each hread).concat_single

end PicWeight

theorem WeightTable.reads {chroma : Bool} {l0Minus1 l1Minus1 : Nat} {hasL1 : Bool}
    {t : WeightTable} (h : (parse chroma l0Minus1 l1Minus1 hasL1).Produces t) :
    (parse chroma l0Minus1 l1Minus1 hasL1).Reads (t.encode chroma hasL1) t := by
  obtain ⟨lumaDenom, hlumaDenom, h⟩ := h.bind
  obtain ⟨chromaDenom, hchromaDenom, h⟩ := h.bind
  obtain ⟨l0, hl0, h⟩ := h.bind
  obtain ⟨l1, hl1, h⟩ := h.bind
  obtain rfl := h.pure
  obtain ⟨hpresent, hchromaDenomRead⟩ := hchromaDenom.optional
  obtain ⟨hl1Read, hl1Absent⟩ := hl1.optionalD
  exact hlumaDenom.reads_ueUpTo.cons <|
    (Reads.onlyIf hpresent fun a ha => by
      subst ha
      exact (hchromaDenomRead a rfl).mapError.reads_se.mapError _).cons <|
    ((PicWeight.reads_list hl0.mapError).mapError _).cons <|
    (Reads.optionalD (fun hp => (PicWeight.reads_list (hl1Read hp).mapError).mapError _)
      hl1Absent).cons <|
    reads_nil _

/-! ## All together -/

/-- How a slice is predicted is read back in the setting that it was read in. -/
theorem Prediction.reads {pps : Pps} {s : Setting} {p : Prediction}
    (h : (parse pps s).Produces p) : (parse pps s).Reads (p.encode pps s) p := by
  obtain ⟨override, -, h⟩ := h.bind
  obtain ⟨l0, hl0, h⟩ := h.bind
  obtain ⟨l1, hl1, h⟩ := h.bind
  obtain ⟨modification, hmodification, h⟩ := h.bind
  obtain ⟨mvdL1Zero, hmvdL1Zero, h⟩ := h.bind
  obtain ⟨cabacInit, hcabacInit, h⟩ := h.bind
  obtain ⟨fromL0, hfromL0, h⟩ := h.bind
  obtain ⟨refIdx, hrefIdx, h⟩ := h.bind
  obtain ⟨weights, hweights, h⟩ := h.bind
  obtain ⟨mergeCand, hmergeCand, h⟩ := h.bind
  obtain rfl := h.pure
  obtain ⟨hl0Read, hl0Absent⟩ := hl0.optionalD
  obtain ⟨hl1Read, hl1Absent⟩ := hl1.optionalD
  obtain ⟨hmodified, hmodificationRead⟩ := hmodification.optional
  obtain ⟨hrefIdxRead, hrefIdxAbsent⟩ := hrefIdx.optionalD
  obtain ⟨hweighted, hweightsRead⟩ := hweights.optional
  exact ((reads_flag _ _).mapError _).cons <|
    (Reads.optionalD (fun hp => (hl0Read hp).reads_ueUpTo) hl0Absent).cons <|
    (Reads.optionalD (fun hp => (hl1Read hp).reads_ueUpTo) hl1Absent).cons <|
    (Reads.onlyIf hmodified fun m hm => by
      subst hm
      exact (ListModification.reads (hmodificationRead m rfl).mapError).mapError _).cons <|
    (Reads.optionalD (fun _ => (reads_flag _ _).mapError _) hmvdL1Zero.optionalD.2).cons <|
    (Reads.optionalD (fun _ => (reads_flag _ _).mapError _) hcabacInit.optionalD.2).cons <|
    (Reads.optionalD (fun _ => (reads_flag _ _).mapError _) hfromL0.optionalD.2).cons <|
    (Reads.optionalD (fun hp => (hrefIdxRead hp).reads_ueUpTo) hrefIdxAbsent).cons <|
    (Reads.onlyIf hweighted fun t ht => by
      subst ht
      exact WeightTable.reads (hweightsRead t rfl)).cons <|
    hmergeCand.reads_ueUpTo.cons <|
    reads_nil _

end TiledVideo
