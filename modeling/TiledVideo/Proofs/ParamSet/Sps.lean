import TiledVideo.ParamSet.Sps
import TiledVideo.Proofs.Bitstream.Endings
import TiledVideo.Proofs.ParamSet.RefPicSet
import TiledVideo.Proofs.ParamSet.ScalingList
import TiledVideo.Proofs.ParamSet.Vui

/-!
# Reading back sequence parameter sets

A sequence parameter set can be written for pictures of another size. Extensions that are not known
are left out when it is written.

Results:

* `Sps.reads_resized`: a set without long-term reference pictures is read back with the new size.
* `ctbsFor_le_iff`: how many blocks cover a number of samples.
-/

namespace TiledVideo

open Reader

/-! ## Parts -/

theorem Sps.reads_ueUpTo {max v : Nat} (element : String) (hmax : max < 2 ^ 32 - 1)
    (hle : v ≤ max) : (ueUpTo max element).Reads (.ue v) v :=
  ((reads_ue element (by omega)).mapError _).bind_empty <|
    Reads.ensure_bind (decide_eq_true hle) <| reads_pure v

theorem Sps.le_of_produces {max v : Nat} {element : String}
    (h : (ueUpTo max element).Produces v) : v ≤ max := by
  obtain ⟨v, hv, h⟩ := h.bind
  obtain ⟨_, hle, h⟩ := h.bind
  obtain rfl := h.pure
  exact of_decide_eq_true hle.ensure

namespace PictureFormat

theorem reads_dimension {element : String} {v : Nat} (hpos : 0 < v) (hle : v ≤ maxDimension) :
    (parseDimension element).Reads (.ue v) v :=
  (Sps.reads_ueUpTo _ (by decide) hle).bind_empty <|
    Reads.ensure_bind (decide_eq_true hpos) <| reads_pure v

theorem bounds_of_produces {element : String} {v : Nat}
    (h : (parseDimension element).Produces v) : 0 < v ∧ v ≤ maxDimension := by
  obtain ⟨v, hv, h⟩ := h.bind
  obtain ⟨_, hpos, h⟩ := h.bind
  obtain rfl := h.pure
  exact ⟨of_decide_eq_true hpos.ensure, Sps.le_of_produces hv⟩

/-- A format is read back with another size, if that is one that pictures can have. -/
theorem reads_resized {f : PictureFormat} {width height : Nat} (h : parse.Produces f)
    (hwidth : 0 < width ∧ width ≤ maxDimension) (hheight : 0 < height ∧ height ≤ maxDimension) :
    parse.Reads { f with width, height }.encode { f with width, height } := by
  obtain ⟨idc, hidc, h⟩ := h.bind
  obtain ⟨chroma, hchroma, h⟩ := h.bind
  obtain ⟨separate, hseparate, h⟩ := h.bind
  obtain ⟨_, -, h⟩ := h.bind
  obtain ⟨_, -, h⟩ := h.bind
  obtain ⟨window, hwindow, h⟩ := h.bind
  obtain ⟨luma, hluma, h⟩ := h.bind
  obtain ⟨chromaDepth, hchromaDepth, h⟩ := h.bind
  obtain rfl := h.pure
  obtain rfl := ChromaFormat.ofIdc?_eq_some_iff.1 hchroma.require
  exact (hidc.mapError.reads_ue.mapError _).cons <|
    Reads.require_bind hchroma.require <|
    (Reads.optionalD (fun _ => (reads_flag _ _).mapError _) hseparate.optionalD.2).cons <|
    (reads_dimension hwidth.1 hwidth.2).cons <|
    (reads_dimension hheight.1 hheight.2).cons <|
    ((Window.reads_optional hwindow.mapError).mapError _).cons <|
    (Sps.reads_ueUpTo _ (by decide) (Sps.le_of_produces hluma)).cons <|
    (Sps.reads_ueUpTo _ (by decide) (Sps.le_of_produces hchromaDepth)).cons <|
    reads_nil _

theorem bounds {f : PictureFormat} (h : parse.Produces f) :
    (0 < f.width ∧ f.width ≤ maxDimension) ∧ (0 < f.height ∧ f.height ≤ maxDimension) := by
  obtain ⟨_, -, h⟩ := h.bind
  obtain ⟨_, -, h⟩ := h.bind
  obtain ⟨_, -, h⟩ := h.bind
  obtain ⟨width, hwidth, h⟩ := h.bind
  obtain ⟨height, hheight, h⟩ := h.bind
  obtain ⟨_, -, h⟩ := h.bind
  obtain ⟨_, -, h⟩ := h.bind
  obtain ⟨_, -, h⟩ := h.bind
  obtain rfl := h.pure
  exact ⟨bounds_of_produces hwidth, bounds_of_produces hheight⟩

end PictureFormat

namespace BlockSizes

theorem reads {b : BlockSizes} (h : parse.Produces b) : parse.Reads b.encode b := by
  obtain ⟨minCoding, hminCoding, h⟩ := h.bind
  obtain ⟨diffCoding, hdiffCoding, h⟩ := h.bind
  obtain ⟨_, hctb, h⟩ := h.bind
  obtain ⟨minTransform, hminTransform, h⟩ := h.bind
  obtain ⟨diffTransform, hdiffTransform, h⟩ := h.bind
  obtain ⟨depthInter, hdepthInter, h⟩ := h.bind
  obtain ⟨depthIntra, hdepthIntra, h⟩ := h.bind
  obtain rfl := h.pure
  exact (Sps.reads_ueUpTo _ (by decide) (Sps.le_of_produces hminCoding)).cons <|
    (Sps.reads_ueUpTo _ (by decide) (Sps.le_of_produces hdiffCoding)).cons <|
    Reads.ensure_bind hctb.ensure <|
    (Sps.reads_ueUpTo _ (by decide) (Sps.le_of_produces hminTransform)).cons <|
    (Sps.reads_ueUpTo _ (by decide) (Sps.le_of_produces hdiffTransform)).cons <|
    (Sps.reads_ueUpTo _ (by decide) (Sps.le_of_produces hdepthInter)).cons <|
    (Sps.reads_ueUpTo _ (by decide) (Sps.le_of_produces hdepthIntra)).cons <|
    reads_nil _

/-- Coding tree blocks have between 8 and 64 samples on each side. -/
theorem log2Ctb_bounds {b : BlockSizes} (h : parse.Produces b) :
    3 ≤ b.log2Ctb ∧ b.log2Ctb ≤ 6 := by
  obtain ⟨minCoding, -, h⟩ := h.bind
  obtain ⟨diffCoding, -, h⟩ := h.bind
  obtain ⟨_, hctb, h⟩ := h.bind
  obtain ⟨_, -, h⟩ := h.bind
  obtain ⟨_, -, h⟩ := h.bind
  obtain ⟨_, -, h⟩ := h.bind
  obtain ⟨_, -, h⟩ := h.bind
  obtain rfl := h.pure
  have := of_decide_eq_true hctb.ensure
  simp only [log2Ctb, log2MinCoding]
  omega

end BlockSizes

theorem Scaling.reads {s : Scaling} (h : parse.Produces s) : parse.Reads s.encode s := by
  obtain ⟨enabled, -, h⟩ := h.bind
  obtain ⟨isCoded, hisCoded, h⟩ := h.bind
  obtain ⟨lists, hlists, h⟩ := h.bind
  obtain rfl := h.pure
  obtain ⟨rfl, hread⟩ := hlists.optional
  cases enabled with
  | false =>
    have hnone : lists = none := by simpa using hisCoded.optionalD.2 rfl
    subst hnone
    exact ((reads_flag _ false).mapError _).bind_empty <| (reads_pure false).empty_bind <|
      (reads_pure none).empty_bind <| reads_pure _
  | true =>
    cases lists with
    | none =>
      exact ((reads_flag _ true).mapError _).cons <|
        ((reads_flag _ false).mapError _).concat_single.bind_empty <|
        (reads_pure none).empty_bind <| reads_pure _
    | some lists =>
      exact ((reads_flag _ true).mapError _).cons <|
        ((reads_flag _ true).mapError _).cons <|
        (((ScalingLists.reads (hread lists rfl).mapError).mapError _).map some).cons <|
        reads_nil _

theorem Pcm.reads {p : Pcm} (h : parse.Produces p) : parse.Reads p.encode p := by
  obtain ⟨luma, hluma, h⟩ := h.bind
  obtain ⟨chroma, hchroma, h⟩ := h.bind
  obtain ⟨minCoding, hminCoding, h⟩ := h.bind
  obtain ⟨diffCoding, hdiffCoding, h⟩ := h.bind
  obtain ⟨loopFilter, -, h⟩ := h.bind
  obtain rfl := h.pure
  exact hluma.reads_uint.cons <|
    hchroma.reads_uint.cons <|
    hminCoding.reads_ue.cons <|
    hdiffCoding.reads_ue.cons <|
    (reads_flag _ _).cons <|
    reads_nil _

theorem Sps.reads_refPicSets {sets : List RefPicSet} (h : parseRefPicSets.Produces sets) :
    parseRefPicSets.Reads (.ue sets.length ++ RefPicSet.encodeAll sets) sets := by
  obtain ⟨count, hcount, h⟩ := h.bind
  obtain ⟨rfl, hread⟩ := RefPicSet.reads_all h.mapError
  exact (reads_ueUpTo _ (by decide) (le_of_produces hcount)).bind (hread.mapError _)

/-! ## Extensions -/

/-- A range extension is announced with seven zero bits for the others, four of which are not known. -/
theorem Code.range_extension (range : Code) :
    concat [.flag true, .flag true, .uint 7 0, range] =
      concat [.flag true, .concat [
        .flag true, .flag false, .flag false, .flag false, .uint 4 0, range]] := by
  have hzeros : uint 7 0 = concat [.flag false, .flag false, .flag false, .uint 4 0] := rfl
  simp only [hzeros, concat, append_assoc, append_empty]

section Extensions

variable {ε α : Type} {g : ReadError → ε} {element : String} {parsePresent : Reader ε α} {absent e : α}
  {unknown : α → Nat} {code : Code}

/-- Nothing comes behind the flag for extensions that are absent. -/
theorem readsTo_absent (hunknown : unknown absent = 0) :
    (do
      let present ← mapError g (flag element)
      let e ← optionalD present parsePresent absent
      optionalD (unknown e == 0) (mapError g finish) ()
      pure e : Reader ε α).ReadsTo .stop (.flag false) absent := by
  refine ((reads_flag element false).mapError g).bind_empty_readsTo <|
    (reads_pure absent).bind_empty_readsTo ?_
  rw [hunknown]
  exact (readsTo_finish.mapError g).bind_pure_empty fun _ => absent

/-- Extensions that are all known are read back, and nothing comes behind them. -/
theorem readsTo_present (hread : parsePresent.Reads code e) (hunknown : unknown e = 0) :
    (do
      let present ← mapError g (flag element)
      let e ← optionalD present parsePresent absent
      optionalD (unknown e == 0) (mapError g finish) ()
      pure e : Reader ε α).ReadsTo .stop (.concat [.flag true, code]) e := by
  refine ((reads_flag element true).mapError g).cons_readsTo <| hread.cons_readsTo ?_
  rw [hunknown]
  exact (readsTo_finish.mapError g).bind_pure_empty fun _ => e

end Extensions

theorem SpsRangeExtension.reads (e : SpsRangeExtension) : parse.Reads e.encode e :=
  (reads_flag _ _).cons <| (reads_flag _ _).cons <| (reads_flag _ _).cons <|
    (reads_flag _ _).cons <| (reads_flag _ _).cons <| (reads_flag _ _).cons <|
    (reads_flag _ _).cons <| (reads_flag _ _).cons <| (reads_flag _ _).cons <| reads_nil _

namespace SpsExtensions

theorem reads_unsupported (extension : String) :
    (parseUnsupported extension).Reads (.flag false) () :=
  ((reads_flag _ false).mapError _).bind_empty <| reads_pure ()

/-- The range extension is read back, and nothing that is not known comes after it. -/
theorem reads (e : SpsExtensions) : parse.ReadsTo .stop e.encode { e with unknown := 0 } := by
  obtain ⟨range, unknown⟩ := e
  cases range with
  | none => exact readsTo_absent rfl
  | some range =>
    have hpresent : parsePresent.Reads
        (.concat [.flag true, .flag false, .flag false, .flag false, .uint 4 0, range.encode])
        ⟨some range, 0⟩ :=
      ((reads_flag _ true).mapError _).cons <|
        (reads_unsupported _).cons <|
        (reads_unsupported _).cons <|
        (reads_unsupported _).cons <|
        ((reads_uint _ (by decide) (by decide)).mapError _).cons <|
        (((SpsRangeExtension.reads range).mapError _).map some).cons <|
        reads_nil _
    show parse.ReadsTo .stop (.concat [.flag true, .flag true, .uint 7 0, range.encode]) _
    rw [Code.range_extension]
    exact readsTo_present hpresent rfl

end SpsExtensions

/-! ## All together -/

namespace Sps

/-- The set as it is read back: announcements of extensions that are not known are not written. -/
def asWritten (s : Sps) : Sps :=
  { s with extensions := { s.extensions with unknown := 0 } }

/-- A set without long-term reference pictures is read back with another size. -/
theorem reads_resized {s : Sps} {width height : Nat} (h : parse.Produces s)
    (hlong : s.longTerm = none)
    (hwidth : 0 < width ∧ width ≤ PictureFormat.maxDimension)
    (hheight : 0 < height ∧ height ≤ PictureFormat.maxDimension) :
    parse.ReadsPayload (s.resized width height).encode (s.resized width height).asWritten := by
  obtain ⟨vpsId, hvpsId, h⟩ := h.bind
  obtain ⟨subLayers, hsubLayers, h⟩ := h.bind
  obtain ⟨_, hsubLayersLe, h⟩ := h.bind
  obtain ⟨nesting, -, h⟩ := h.bind
  obtain ⟨ptl, hptl, h⟩ := h.bind
  obtain ⟨idNumber, hidNumber, h⟩ := h.bind
  obtain ⟨id, hid, h⟩ := h.bind
  obtain ⟨format, hformat, h⟩ := h.bind
  obtain ⟨maxPoc, hmaxPoc, h⟩ := h.bind
  obtain ⟨ordering, hordering, h⟩ := h.bind
  obtain ⟨blocks, hblocks, h⟩ := h.bind
  obtain ⟨scaling, hscaling, h⟩ := h.bind
  obtain ⟨amp, -, h⟩ := h.bind
  obtain ⟨sao, -, h⟩ := h.bind
  obtain ⟨hasPcm, -, h⟩ := h.bind
  obtain ⟨pcm, hpcm, h⟩ := h.bind
  obtain ⟨sets, hsets, h⟩ := h.bind
  obtain ⟨hasLongTerm, -, h⟩ := h.bind
  obtain ⟨longTerm, -, h⟩ := h.bind
  obtain ⟨mvp, -, h⟩ := h.bind
  obtain ⟨smoothing, -, h⟩ := h.bind
  obtain ⟨hasVui, -, h⟩ := h.bind
  obtain ⟨vui, hvui, h⟩ := h.bind
  obtain ⟨extensions, -, h⟩ := h.bind
  obtain rfl := h.pure
  obtain rfl : longTerm = none := hlong
  obtain ⟨rfl, hpcmRead⟩ := hpcm.optional
  obtain ⟨rfl, hvuiRead⟩ := hvui.optional
  obtain rfl : id.val = idNumber := idBelow_eq_ok_iff.1 (mapError_eq_ok_iff.1 hid.ofExcept)
  exact ⟨_, rfl, ReadsTo.ensure_cons rfl <|
    (hvpsId.mapError.reads_uint.mapError _).cons_readsTo <|
    (hsubLayers.mapError.reads_uint.mapError _).cons_readsTo <|
    ReadsTo.ensure_bind hsubLayersLe.ensure <|
    ((reads_flag _ _).mapError _).cons_readsTo <|
    ((ProfileTierLevel.reads hptl.mapError).mapError _).cons_readsTo <|
    (hidNumber.mapError.reads_ue.mapError _).cons_readsTo <|
    ReadsTo.ofExcept_bind hid.ofExcept <|
    (PictureFormat.reads_resized hformat hwidth hheight).cons_readsTo <|
    (reads_ueUpTo _ (by decide) (le_of_produces hmaxPoc)).cons_readsTo <|
    ((SubLayerOrdering.reads hordering.mapError).mapError _).cons_readsTo <|
    (BlockSizes.reads hblocks).cons_readsTo <|
    (Scaling.reads hscaling).cons_readsTo <|
    ((reads_flag _ _).mapError _).cons_readsTo <|
    ((reads_flag _ _).mapError _).cons_readsTo <|
    ((reads_flag _ _).mapError _).cons_readsTo <|
    (Reads.optional fun a ha => (Pcm.reads (hpcmRead a ha).mapError).mapError _).cons_readsTo <|
    (reads_refPicSets hsets).cons_pair_readsTo <|
    ((reads_flag _ false).mapError _).cons_readsTo <|
    (reads_pure none).empty_bind_readsTo <|
    ((reads_flag _ _).mapError _).cons_readsTo <|
    ((reads_flag _ _).mapError _).cons_readsTo <|
    ((reads_flag _ _).mapError _).cons_readsTo <|
    (Reads.optional fun a ha => (Vui.reads (hvuiRead a ha).mapError).mapError _).cons_readsTo <|
    (SpsExtensions.reads extensions).bind_pure _⟩

/-- What is known of the parts of a set that a reader gives. -/
theorem produces_parts {s : Sps} (h : parse.Produces s) :
    PictureFormat.parse.Produces s.format ∧ BlockSizes.parse.Produces s.blocks ∧
      parseRefPicSets.Produces s.refPicSets := by
  iterate 7 obtain ⟨_, -, h⟩ := h.bind
  obtain ⟨format, hformat, h⟩ := h.bind
  iterate 2 obtain ⟨_, -, h⟩ := h.bind
  obtain ⟨blocks, hblocks, h⟩ := h.bind
  iterate 5 obtain ⟨_, -, h⟩ := h.bind
  obtain ⟨sets, hsets, h⟩ := h.bind
  iterate 7 obtain ⟨_, -, h⟩ := h.bind
  obtain rfl := h.pure
  exact ⟨hformat, hblocks, hsets⟩

end Sps

/-! ## Blocks -/

theorem ctbsFor_le_iff {n log2Size m : Nat} : ctbsFor n log2Size ≤ m ↔ n ≤ m * 2 ^ log2Size := by
  have hpos := Nat.two_pow_pos log2Size
  rw [ctbsFor, ← Nat.lt_add_one_iff, Nat.div_lt_iff_lt_mul hpos, Nat.add_mul]
  omega

theorem le_ctbsFor_mul (n log2Size : Nat) : n ≤ ctbsFor n log2Size * 2 ^ log2Size :=
  ctbsFor_le_iff.1 (Nat.le_refl _)

theorem ctbsFor_le (n log2Size : Nat) : ctbsFor n log2Size ≤ n :=
  ctbsFor_le_iff.2 (Nat.le_mul_of_pos_right n (Nat.two_pow_pos log2Size))

theorem div_lt_ctbsFor {x n : Nat} (h : x < n) (log2Size : Nat) :
    x / 2 ^ log2Size < ctbsFor n log2Size :=
  (Nat.div_lt_iff_lt_mul (Nat.two_pow_pos log2Size)).2
    (Nat.lt_of_lt_of_le h (le_ctbsFor_mul n log2Size))

theorem ctbsFor_pos {n : Nat} (h : 0 < n) (log2Size : Nat) : 0 < ctbsFor n log2Size :=
  Nat.lt_of_le_of_lt (Nat.zero_le _) (div_lt_ctbsFor h log2Size)

end TiledVideo
