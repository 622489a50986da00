import TiledVideo.ParamSet.Vui
import TiledVideo.Proofs.ParamSet.SubLayers

/-!
# Reading back usability information

Results:

* `Window.reads_optional`: windows, which may be absent.
* `Vui.reads`: usability information whose limits are in range, as the reader checks last.
-/

namespace TiledVideo

open Reader

/-! ## Windows -/

theorem Window.reads {w : Window} (h : parse.Produces w) : parse.Reads w.encode w := by
  obtain ⟨left, hleft, h⟩ := h.bind
  obtain ⟨right, hright, h⟩ := h.bind
  obtain ⟨top, htop, h⟩ := h.bind
  obtain ⟨bottom, hbottom, h⟩ := h.bind
  obtain rfl := h.pure
  exact hleft.reads_ue.cons <| hright.reads_ue.cons <| htop.reads_ue.cons <|
    hbottom.reads_ue.cons <| reads_nil _

theorem Window.reads_optional {element : String} {w : Option Window}
    (h : (parseOptional element).Produces w) : (parseOptional element).Reads (encodeOptional w) w := by
  obtain ⟨present, -, h⟩ := h.bind
  obtain ⟨rfl, hread⟩ := h.optional
  exact (reads_flag _ _).cons (Reads.optional fun a ha => Window.reads (hread a ha)).concat_single

/-! ## Samples and colours -/

theorem SampleAspect.reads {a : SampleAspect} (h : parse.Produces a) :
    parse.Reads a.encode a := by
  obtain ⟨idc, hidc, h⟩ := h.bind
  -- the four cases in which the number of the ratio is understood
  split_ifs at h with hzero hlisted hextended
  · obtain rfl := h.pure
    subst hzero
    exact hidc.reads_uint.bind_empty (reads_pure _)
  · obtain rfl := h.pure
    obtain ⟨index, rfl⟩ := Nat.exists_eq_add_one_of_ne_zero hzero
    refine hidc.reads_uint.bind_empty ?_
    rw [if_neg hzero, dif_pos hlisted]
    exact reads_pure _
  · obtain ⟨width, hwidth, h⟩ := h.bind
    obtain ⟨height, hheight, h⟩ := h.bind
    obtain rfl := h.pure
    subst hextended
    refine hidc.reads_uint.cons ?_
    rw [if_neg hzero, dif_neg hlisted, if_pos rfl]
    exact hwidth.reads_uint.cons <| hheight.reads_uint.cons <| reads_nil _
  · obtain rfl := h.pure
    refine hidc.reads_uint.bind_empty ?_
    rw [if_neg hzero, dif_neg hlisted, if_neg hextended]
    exact reads_pure _

theorem Overscan.reads (o : Overscan) : parse.Reads o.encode o := by
  cases o with
  | unspecified => exact (reads_flag _ false).bind_empty (reads_pure _)
  | appropriate =>
    exact (reads_flag _ true).cons <| ((reads_flag _ true).map some).cons <| reads_nil _
  | inappropriate =>
    exact (reads_flag _ true).cons <| ((reads_flag _ false).map some).cons <| reads_nil _

theorem ColourDescription.reads {c : ColourDescription} (h : parse.Produces c) :
    parse.Reads c.encode c := by
  obtain ⟨primaries, hprimaries, h⟩ := h.bind
  obtain ⟨transfer, htransfer, h⟩ := h.bind
  obtain ⟨matrix, hmatrix, h⟩ := h.bind
  obtain rfl := h.pure
  exact hprimaries.reads_uint.cons <| htransfer.reads_uint.cons <| hmatrix.reads_uint.cons <|
    reads_nil _

theorem VideoSignal.reads {v : VideoSignal} (h : parse.Produces v) : parse.Reads v.encode v := by
  obtain ⟨code, hcode, h⟩ := h.bind
  obtain ⟨fullRange, -, h⟩ := h.bind
  obtain ⟨hasColour, -, h⟩ := h.bind
  obtain ⟨colour, hcolour, h⟩ := h.bind
  obtain rfl := h.pure
  obtain ⟨rfl, hread⟩ := hcolour.optional
  have hcodeRead := hcode.reads_uint
  rw [encode, VideoFormat.code_ofCode]
  exact hcodeRead.cons <|
    (reads_flag _ _).cons <|
    (reads_flag _ _).cons <|
    (Reads.optional fun a ha => ColourDescription.reads (hread a ha)).cons <|
    reads_nil _

theorem ChromaLocation.reads {c : ChromaLocation} (h : parse.Produces c) :
    parse.Reads c.encode c := by
  obtain ⟨topField, htop, h⟩ := h.bind
  obtain ⟨bottomField, hbottom, h⟩ := h.bind
  obtain rfl := h.pure
  exact htop.reads_ue.cons <| hbottom.reads_ue.cons <| reads_nil _

/-! ## Time base and limits -/

theorem VuiTiming.reads {n : Nat} {t : VuiTiming} (h : (parse n).Produces t) :
    (parse n).Reads t.encode t := by
  obtain ⟨numUnits, hnumUnits, h⟩ := h.bind
  obtain ⟨timeScale, htimeScale, h⟩ := h.bind
  obtain ⟨proportional, -, h⟩ := h.bind
  obtain ⟨ticks, hticks, h⟩ := h.bind
  obtain ⟨hasHrd, -, h⟩ := h.bind
  obtain ⟨hrd, hhrd, h⟩ := h.bind
  obtain rfl := h.pure
  obtain ⟨rfl, hticksRead⟩ := hticks.optional
  obtain ⟨rfl, hhrdRead⟩ := hhrd.optional
  exact hnumUnits.reads_uint.cons <|
    htimeScale.reads_uint.cons <|
    (reads_flag _ _).cons <|
    (Reads.optional fun a ha => (hticksRead a ha).reads_ue).cons <|
    (reads_flag _ _).cons <|
    (Reads.optional fun a ha => (Hrd.reads (hhrdRead a ha)).2).cons <|
    reads_nil _

theorem BitstreamLimits.reads {b : BitstreamLimits} (h : parse.Produces b) :
    parse.Reads b.encode b := by
  obtain ⟨tilesFixed, -, h⟩ := h.bind
  obtain ⟨overBoundaries, -, h⟩ := h.bind
  obtain ⟨restricted, -, h⟩ := h.bind
  obtain ⟨segmentation, hsegmentation, h⟩ := h.bind
  obtain ⟨bytesDenom, hbytesDenom, h⟩ := h.bind
  obtain ⟨bitsDenom, hbitsDenom, h⟩ := h.bind
  obtain ⟨horizontal, hhorizontal, h⟩ := h.bind
  obtain ⟨vertical, hvertical, h⟩ := h.bind
  obtain rfl := h.pure
  exact (reads_flag _ _).cons <|
    (reads_flag _ _).cons <|
    (reads_flag _ _).cons <|
    hsegmentation.reads_ue.cons <|
    hbytesDenom.reads_ue.cons <|
    hbitsDenom.reads_ue.cons <|
    hhorizontal.reads_ue.cons <|
    hvertical.reads_ue.cons <|
    reads_nil _

/-! ## All together -/

/-- Usability information that a reader gives is read back. Its limits are in range, since the
reader checks them last. -/
theorem Vui.reads {n : Nat} {v : Vui} (h : (parse n).Produces v) :
    (parse n).Reads v.encode v := by
  obtain ⟨hasAspect, -, h⟩ := h.bind
  obtain ⟨aspect, haspect, h⟩ := h.bind
  obtain ⟨overscan, -, h⟩ := h.bind
  obtain ⟨hasSignal, -, h⟩ := h.bind
  obtain ⟨signal, hsignal, h⟩ := h.bind
  obtain ⟨hasLocation, -, h⟩ := h.bind
  obtain ⟨location, hlocation, h⟩ := h.bind
  obtain ⟨neutral, -, h⟩ := h.bind
  obtain ⟨fieldSeq, -, h⟩ := h.bind
  obtain ⟨frameField, -, h⟩ := h.bind
  obtain ⟨window, hwindow, h⟩ := h.bind
  obtain ⟨hasTiming, -, h⟩ := h.bind
  obtain ⟨timing, htiming, h⟩ := h.bind
  obtain ⟨hasLimits, -, h⟩ := h.bind
  obtain ⟨limits, hlimits, h⟩ := h.bind
  split at h
  · exact absurd h not_produces_throw
  next hinRange =>
  obtain rfl := h.pure
  obtain ⟨rfl, haspectRead⟩ := haspect.optional
  obtain ⟨rfl, hsignalRead⟩ := hsignal.optional
  obtain ⟨rfl, hlocationRead⟩ := hlocation.optional
  obtain ⟨rfl, htimingRead⟩ := htiming.optional
  obtain ⟨rfl, hlimitsRead⟩ := hlimits.optional
  refine ((reads_flag _ _).mapError _).cons <|
    (Reads.optional fun a ha => (SampleAspect.reads (haspectRead a ha).mapError).mapError _).cons <|
    ((Overscan.reads _).mapError _).cons <|
    ((reads_flag _ _).mapError _).cons <|
    (Reads.optional fun a ha => (VideoSignal.reads (hsignalRead a ha).mapError).mapError _).cons <|
    ((reads_flag _ _).mapError _).cons <|
    (Reads.optional fun a ha =>
      (ChromaLocation.reads (hlocationRead a ha).mapError).mapError _).cons <|
    ((reads_flag _ _).mapError _).cons <|
    ((reads_flag _ _).mapError _).cons <|
    ((reads_flag _ _).mapError _).cons <|
    ((Window.reads_optional hwindow.mapError).mapError _).cons <|
    ((reads_flag _ _).mapError _).cons <|
    (Reads.optional fun a ha => (VuiTiming.reads (htimingRead a ha).mapError).mapError _).cons <|
    ((reads_flag _ _).mapError _).cons <|
    (Reads.optional fun a ha =>
      (BitstreamLimits.reads (hlimitsRead a ha).mapError).mapError _).cons ?_
  rw [hinRange]
  exact reads_nil _

end TiledVideo
