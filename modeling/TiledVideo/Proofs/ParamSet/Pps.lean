import TiledVideo.ParamSet.Pps
import TiledVideo.Proofs.Bitstream.Agreement
import TiledVideo.Proofs.ParamSet.Sps

/-!
# Reading back picture parameter sets

A picture parameter set is written with its grid of tiles kept, removed or replaced, and can be read
against another sequence parameter set than before. The blocks must have the same size and the grid
that is written must fit into the picture.

Results:

* `Pps.reads`: a set is read back with the grid that was written.
* `Pps.produces_parts`: the parts of a set that bounds are checked for.
* `Pps.eq_asWritten_of_decode`: nothing else can be read from its code, whatever sequence parameter
  sets are known.
-/

namespace TiledVideo

open Reader

/-! ## Tiles -/

theorem TileSpacing.reads {columnsMinus1 rowsMinus1 : Nat} {spacing : TileSpacing}
    (h : (parse columnsMinus1 rowsMinus1).Produces spacing) :
    (parse columnsMinus1 rowsMinus1).Reads spacing.encode spacing := by
  obtain ⟨isUniform, -, h⟩ := h.bind
  cases isUniform with
  | true =>
    obtain rfl := h.pure
    exact (reads_flag _ true).bind_empty <| reads_pure uniform
  | false =>
    obtain ⟨widths, hwidths, h⟩ := h.bind
    obtain ⟨heights, hheights, h⟩ := h.bind
    obtain rfl := h.pure
    exact (reads_flag _ false).cons <|
      (Reads.times hwidths.times.1 fun a ha => (hwidths.times.2 a ha).reads_ue).cons <|
      (Reads.times hheights.times.1 fun a ha => (hheights.times.2 a ha).reads_ue).cons <|
      reads_nil _

theorem TileSpacing.reads_uniform (columnsMinus1 rowsMinus1 : Nat) :
    (parse columnsMinus1 rowsMinus1).Reads uniform.encode uniform :=
  (reads_flag _ true).bind_empty <| reads_pure uniform

namespace TileGrid

/-- The grid has no more columns and rows than the picture has blocks. -/
def Fits (sps : Sps) (g : TileGrid) : Prop :=
  g.columnsMinus1 < sps.widthInCtbs ∧ g.rowsMinus1 < sps.heightInCtbs

/-- The numbers of a grid have codes, and its sizes are those of its columns and rows. -/
def Codable (g : TileGrid) : Prop :=
  g.columnsMinus1 < 2 ^ 32 - 1 ∧ g.rowsMinus1 < 2 ^ 32 - 1 ∧
    (TileSpacing.parse g.columnsMinus1 g.rowsMinus1).Reads g.spacing.encode g.spacing

theorem fits_codable_of_produces {sps : Sps} {g : TileGrid} (h : (parse sps).Produces g) :
    g.Fits sps ∧ g.Codable := by
  obtain ⟨columns, hcolumns, h⟩ := h.bind
  obtain ⟨_, hcolumnsLt, h⟩ := h.bind
  obtain ⟨rows, hrows, h⟩ := h.bind
  obtain ⟨_, hrowsLt, h⟩ := h.bind
  obtain ⟨spacing, hspacing, h⟩ := h.bind
  obtain ⟨loopFilter, -, h⟩ := h.bind
  obtain rfl := h.pure
  exact ⟨⟨of_decide_eq_true hcolumnsLt.ensure, of_decide_eq_true hrowsLt.ensure⟩,
    hcolumns.mapError.ue, hrows.mapError.ue, TileSpacing.reads hspacing.mapError⟩

theorem reads {sps : Sps} {g : TileGrid} (hfits : g.Fits sps) (hcodable : g.Codable) :
    (parse sps).Reads g.encode g := by
  obtain ⟨hcolumnsLt, hrowsLt⟩ := hfits
  obtain ⟨hcolumns, hrows, hspacing⟩ := hcodable
  exact ((reads_ue _ hcolumns).mapError _).cons <|
    Reads.ensure_bind (decide_eq_true hcolumnsLt) <|
    ((reads_ue _ hrows).mapError _).cons <|
    Reads.ensure_bind (decide_eq_true hrowsLt) <|
    (hspacing.mapError _).cons <|
    ((reads_flag _ _).mapError _).cons <|
    reads_nil _

end TileGrid

namespace Partition

theorem produces_tiles {sps : Sps} {p : Partition} (h : (parse sps).Produces p) {g : TileGrid}
    (hg : p.tiles = some g) : (TileGrid.parse sps).Produces g := by
  obtain ⟨_, -, h⟩ := h.bind
  obtain ⟨_, -, h⟩ := h.bind
  obtain ⟨tiles, htiles, h⟩ := h.bind
  obtain rfl := h.pure
  exact htiles.optional.2 g hg

theorem reads {sps : Sps} {p : Partition}
    (h : ∀ g, p.tiles = some g → g.Fits sps ∧ g.Codable) : (parse sps).Reads p.encode p :=
  ((reads_flag _ _).mapError _).cons <|
    ((reads_flag _ _).mapError _).cons <|
    (Reads.optional fun g hg => TileGrid.reads (h g hg).1 (h g hg).2).cons <|
    reads_nil _

theorem loopFilterAcross_eq (p : Partition) :
    p.loopFilterAcross = (p.tiles.map (·.loopFilterAcross)).getD true := by
  unfold loopFilterAcross
  cases p.tiles <;> rfl

end Partition

/-! ## Other parts -/

theorem DeblockingControl.reads {d : DeblockingControl} (h : parse.Produces d) :
    parse.Reads d.encode d := by
  obtain ⟨overrideEnabled, -, h⟩ := h.bind
  obtain ⟨disabled, -, h⟩ := h.bind
  obtain ⟨beta, hbeta, h⟩ := h.bind
  obtain ⟨tc, htc, h⟩ := h.bind
  obtain rfl := h.pure
  obtain ⟨hbetaRead, hbetaAbsent⟩ := hbeta.optionalD
  obtain ⟨htcRead, htcAbsent⟩ := htc.optionalD
  exact (reads_flag _ _).cons <|
    (reads_flag _ _).cons <|
    (Reads.optionalD (fun hp => (hbetaRead hp).reads_se) hbetaAbsent).cons <|
    (Reads.optionalD (fun hp => (htcRead hp).reads_se) htcAbsent).cons <|
    reads_nil _

namespace ChromaQpOffsets

theorem reads_pair {pair : Int × Int} (h : parsePair.Produces pair) :
    parsePair.Reads (encodePair pair) pair := by
  obtain ⟨cb, hcb, h⟩ := h.bind
  obtain ⟨cr, hcr, h⟩ := h.bind
  obtain rfl := h.pure
  exact hcb.reads_se.cons <| hcr.reads_se.cons <| reads_nil _

/-- The code of offsets that are given in pairs. -/
theorem encode_pairs (depth : Nat) {lengthMinus1 : Nat} {pairs : List (Int × Int)}
    (h : pairs.length = lengthMinus1 + 1) :
    encode ⟨depth, pairs.map (·.1), pairs.map (·.2)⟩ =
      .concat [.ue depth, .ue lengthMinus1, .each encodePair pairs] := by
  have hzip : (pairs.map (·.1)).zip (pairs.map (·.2)) = pairs := (List.zip_of_prod rfl rfl).symm
  have hcount : (pairs.map (·.1)).length - 1 = lengthMinus1 := by simp [h]
  have hcheck : (!(pairs.map (·.1)).isEmpty &&
      (pairs.map (·.1)).length == (pairs.map (·.2)).length) = true := by
    cases pairs with
    | nil => cases h
    | cons pair pairs => simp
  simp only [encode, hzip, hcount, hcheck]
  exact Code.empty_append _

theorem reads {c : ChromaQpOffsets} (h : parse.Produces c) : parse.Reads c.encode c := by
  obtain ⟨depth, hdepth, h⟩ := h.bind
  obtain ⟨lengthMinus1, hlength, h⟩ := h.bind
  obtain ⟨_, hle, h⟩ := h.bind
  obtain ⟨pairs, hpairs, h⟩ := h.bind
  obtain rfl := h.pure
  obtain ⟨hlen, hmem⟩ := hpairs.times
  rw [encode_pairs depth hlen]
  exact (hdepth.mapError.reads_ue.mapError _).cons <|
    (hlength.mapError.reads_ue.mapError _).cons <|
    Reads.ensure_bind hle.ensure <|
    (Reads.times hlen fun a ha => (reads_pair (hmem a ha).mapError).mapError _).cons <|
    reads_nil _

end ChromaQpOffsets

theorem PpsRangeExtension.reads {transformSkip : Bool} {e : PpsRangeExtension}
    (h : (parse transformSkip).Produces e) : (parse transformSkip).Reads e.encode e := by
  obtain ⟨log2Max, hlog2Max, h⟩ := h.bind
  obtain ⟨crossComponent, -, h⟩ := h.bind
  obtain ⟨hasOffsets, -, h⟩ := h.bind
  obtain ⟨offsets, hoffsets, h⟩ := h.bind
  obtain ⟨luma, hluma, h⟩ := h.bind
  obtain ⟨chroma, hchroma, h⟩ := h.bind
  obtain rfl := h.pure
  obtain ⟨rfl, hlog2MaxRead⟩ := hlog2Max.optional
  obtain ⟨rfl, hoffsetsRead⟩ := hoffsets.optional
  exact (Reads.optional fun a ha => (hlog2MaxRead a ha).mapError.reads_ue.mapError _).cons <|
    ((reads_flag _ _).mapError _).cons <|
    ((reads_flag _ _).mapError _).cons <|
    (Reads.optional fun a ha => ChromaQpOffsets.reads (hoffsetsRead a ha)).cons <|
    (hluma.mapError.reads_ue.mapError _).cons <|
    (hchroma.mapError.reads_ue.mapError _).cons <|
    reads_nil _

namespace PpsExtensions

theorem reads_unsupported (extension : String) :
    (parseUnsupported extension).Reads (.flag false) () :=
  ((reads_flag _ false).mapError _).bind_empty <| reads_pure ()

theorem produces_range {transformSkip : Bool} {e : PpsExtensions}
    (h : (parse transformSkip).Produces e) {range : PpsRangeExtension}
    (hrange : e.range = some range) : (PpsRangeExtension.parse transformSkip).Produces range := by
  obtain ⟨present, -, h⟩ := h.bind
  obtain ⟨extensions, hextensions, h⟩ := h.bind
  obtain ⟨_, -, h⟩ := h.bind
  obtain rfl := h.pure
  cases present with
  | false =>
    obtain rfl := hextensions.optionalD.2 rfl
    cases hrange
  | true =>
    obtain ⟨_, -, h⟩ := (hextensions.optionalD.1 rfl).bind
    obtain ⟨_, -, h⟩ := h.bind
    obtain ⟨_, -, h⟩ := h.bind
    obtain ⟨_, -, h⟩ := h.bind
    obtain ⟨_, -, h⟩ := h.bind
    obtain ⟨read, hread, h⟩ := h.bind
    obtain rfl := h.pure
    exact hread.optional.2 range hrange

/-- The range extension is read back, and nothing that is not known comes after it. -/
theorem reads {transformSkip : Bool} {e : PpsExtensions} (h : (parse transformSkip).Produces e) :
    (parse transformSkip).ReadsTo .stop e.encode { e with unknown := 0 } := by
  have hrange : ∀ range, e.range = some range → _ := fun _ => produces_range h
  obtain ⟨range, unknown⟩ := e
  cases range with
  | none => exact readsTo_absent rfl
  | some range =>
    have hpresent : (parsePresent transformSkip).Reads
        (.concat [.flag true, .flag false, .flag false, .flag false, .uint 4 0, range.encode])
        ⟨some range, 0⟩ :=
      ((reads_flag _ true).mapError _).cons <|
        (reads_unsupported _).cons <|
        (reads_unsupported _).cons <|
        (reads_unsupported _).cons <|
        ((reads_uint _ (by decide) (by decide)).mapError _).cons <|
        ((PpsRangeExtension.reads (hrange range rfl)).map some).cons <|
        reads_nil _
    show (parse _).ReadsTo .stop (.concat [.flag true, .flag true, .uint 7 0, range.encode]) _
    rw [Code.range_extension]
    exact readsTo_present hpresent rfl

end PpsExtensions

/-! ## All together -/

namespace Pps

theorem reads_numRefIdx {element : String} {v : Nat} (h : (parseNumRefIdx element).Produces v) :
    (parseNumRefIdx element).Reads (.ue v) v := by
  obtain ⟨v, hv, h⟩ := h.bind
  obtain ⟨_, hle, h⟩ := h.bind
  obtain rfl := h.pure
  exact (hv.mapError.reads_ue.mapError _).bind_empty <| Reads.ensure_bind hle.ensure <|
    reads_pure _

/-- The size of merge areas is bounded by that of blocks alone. -/
theorem reads_mergeLevel {sps sps' : Sps} {v : Nat} (h : (parseMergeLevel sps).Produces v)
    (hctb : sps'.log2Ctb = sps.log2Ctb) : (parseMergeLevel sps').Reads (.ue v) v := by
  obtain ⟨v, hv, h⟩ := h.bind
  obtain ⟨_, hle, h⟩ := h.bind
  obtain rfl := h.pure
  have hle' := hle.ensure
  rw [← hctb] at hle'
  exact (hv.mapError.reads_ue.mapError _).bind_empty <| Reads.ensure_bind hle' <| reads_pure _

/-- The set as it is read back when it is written with a given grid: there are no dependent slices,
and announcements of extensions that are not known are not written. -/
def asWritten (p : Pps) (tiles : TileOverride) : Pps :=
  { p with
    dependentSlices := false
    partition := tiles.apply p.partition
    extensions := { p.extensions with unknown := 0 } }

/-- Nothing but the grid is overridden. -/
theorem asWritten_eq (p : Pps) (o : TileOverride) :
    p.asWritten o =
      { p with
        dependentSlices := false
        partition := { p.partition with tiles := (o.apply p.partition).tiles }
        extensions := { p.extensions with unknown := 0 } } := by
  cases o <;> rfl

/-- A set is read back with the grid that was written, if the grid fits into the picture. -/
theorem reads {known known' : SpsId → Option Sps} {p : Pps} {sps sps' : Sps} {tiles : TileOverride}
    (h : (parse known).Produces p) (hsps : known p.spsId = some sps)
    (hsps' : known' p.spsId = some sps') (hctb : sps'.log2Ctb = sps.log2Ctb)
    (hcheck : tiles.check = .empty)
    (hfits : ∀ g, (tiles.apply p.partition).tiles = some g → g.Fits sps' ∧ g.Codable) :
    (parse known').ReadsPayload (p.encode tiles) (p.asWritten tiles) := by
  obtain ⟨idNumber, hidNumber, h⟩ := h.bind
  obtain ⟨id, hid, h⟩ := h.bind
  obtain ⟨spsIdNumber, hspsIdNumber, h⟩ := h.bind
  obtain ⟨spsId, hspsId, h⟩ := h.bind
  obtain ⟨source, hsource, h⟩ := h.bind
  obtain ⟨dependent, -, h⟩ := h.bind
  obtain ⟨output, -, h⟩ := h.bind
  obtain ⟨extraBits, hextraBits, h⟩ := h.bind
  obtain ⟨signHiding, -, h⟩ := h.bind
  obtain ⟨cabacInit, -, h⟩ := h.bind
  obtain ⟨refIdxL0, hrefIdxL0, h⟩ := h.bind
  obtain ⟨refIdxL1, hrefIdxL1, h⟩ := h.bind
  obtain ⟨initQp, hinitQp, h⟩ := h.bind
  obtain ⟨constrained, -, h⟩ := h.bind
  obtain ⟨transformSkip, -, h⟩ := h.bind
  obtain ⟨hasCuQpDelta, -, h⟩ := h.bind
  obtain ⟨cuQpDelta, hcuQpDelta, h⟩ := h.bind
  obtain ⟨cbQp, hcbQp, h⟩ := h.bind
  obtain ⟨crQp, hcrQp, h⟩ := h.bind
  obtain ⟨sliceQp, -, h⟩ := h.bind
  obtain ⟨weighted, -, h⟩ := h.bind
  obtain ⟨weightedB, -, h⟩ := h.bind
  obtain ⟨bypass, -, h⟩ := h.bind
  obtain ⟨partition, hpartition, h⟩ := h.bind
  obtain ⟨acrossSlices, -, h⟩ := h.bind
  obtain ⟨hasDeblocking, -, h⟩ := h.bind
  obtain ⟨deblocking, hdeblocking, h⟩ := h.bind
  obtain ⟨hasLists, -, h⟩ := h.bind
  obtain ⟨lists, hlists, h⟩ := h.bind
  obtain ⟨modification, -, h⟩ := h.bind
  obtain ⟨mergeLevel, hmergeLevel, h⟩ := h.bind
  obtain ⟨sliceExtension, -, h⟩ := h.bind
  obtain ⟨extensions, hextensions, h⟩ := h.bind
  obtain rfl := h.pure
  obtain ⟨rfl, hcuQpDeltaRead⟩ := hcuQpDelta.optional
  obtain ⟨rfl, hdeblockingRead⟩ := hdeblocking.optional
  obtain ⟨rfl, hlistsRead⟩ := hlists.optional
  obtain rfl : source = sps := by simpa [hsource.require] using hsps
  obtain rfl : id.val = idNumber := idBelow_eq_ok_iff.1 (mapError_eq_ok_iff.1 hid.ofExcept)
  obtain rfl : spsId.val = spsIdNumber := idBelow_eq_ok_iff.1 (mapError_eq_ok_iff.1 hspsId.ofExcept)
  refine ⟨_, rfl, ?_⟩
  rw [hcheck]
  exact (hidNumber.mapError.reads_ue.mapError _).cons_readsTo <|
    ReadsTo.ofExcept_bind hid.ofExcept <|
    (hspsIdNumber.mapError.reads_ue.mapError _).cons_readsTo <|
    ReadsTo.ofExcept_bind hspsId.ofExcept <|
    ReadsTo.require_bind hsps' <|
    ((reads_flag _ false).mapError _).cons_readsTo <|
    ((reads_flag _ _).mapError _).cons_readsTo <|
    (hextraBits.mapError.reads_uint.mapError _).cons_readsTo <|
    ((reads_flag _ _).mapError _).cons_readsTo <|
    ((reads_flag _ _).mapError _).cons_readsTo <|
    (reads_numRefIdx hrefIdxL0).cons_readsTo <|
    (reads_numRefIdx hrefIdxL1).cons_readsTo <|
    (hinitQp.mapError.reads_se.mapError _).cons_readsTo <|
    ((reads_flag _ _).mapError _).cons_readsTo <|
    ((reads_flag _ _).mapError _).cons_readsTo <|
    ((reads_flag _ _).mapError _).cons_readsTo <|
    (Reads.optional fun a ha =>
      (hcuQpDeltaRead a ha).mapError.reads_ue.mapError _).cons_readsTo <|
    (hcbQp.mapError.reads_se.mapError _).cons_readsTo <|
    (hcrQp.mapError.reads_se.mapError _).cons_readsTo <|
    ((reads_flag _ _).mapError _).cons_readsTo <|
    ((reads_flag _ _).mapError _).cons_readsTo <|
    ((reads_flag _ _).mapError _).cons_readsTo <|
    ((reads_flag _ _).mapError _).cons_readsTo <|
    ReadsTo.empty_cons <|
    (Partition.reads hfits).cons_readsTo <|
    ((reads_flag _ _).mapError _).cons_readsTo <|
    ((reads_flag _ _).mapError _).cons_readsTo <|
    (Reads.optional fun a ha =>
      (DeblockingControl.reads (hdeblockingRead a ha).mapError).mapError _).cons_readsTo <|
    ((reads_flag _ _).mapError _).cons_readsTo <|
    (Reads.optional fun a ha =>
      (ScalingLists.reads (hlistsRead a ha).mapError).mapError _).cons_readsTo <|
    ((reads_flag _ _).mapError _).cons_readsTo <|
    (reads_mergeLevel hmergeLevel hctb).cons_readsTo <|
    ((reads_flag _ _).mapError _).cons_readsTo <|
    (PpsExtensions.reads hextensions).bind_pure _

/-! ## Other sequence parameter sets -/

/-- The sequence parameter set bounds the grid and the merge areas, but has no part in what is
read. -/
theorem parse_agrees (known known' : SpsId → Option Sps) :
    (parse known).Agrees (parse known') := by
  have hgrid : ∀ sps sps', (TileGrid.parse sps).Agrees (TileGrid.parse sps') := fun _ _ =>
    .bind_refl fun _ => .ensure_bind <| .bind_refl fun _ => .ensure_bind <| .refl _
  have hpartition : ∀ sps sps', (Partition.parse sps).Agrees (Partition.parse sps') :=
    fun sps sps' => .bind_refl fun _ => .bind_refl fun _ =>
      ((hgrid sps sps').optional _).bind fun _ => .refl _
  have hmerge : ∀ sps sps', (parseMergeLevel sps).Agrees (parseMergeLevel sps') := fun _ _ =>
    .bind_refl fun _ => .ensure_bind <| .refl _
  iterate 4 refine .bind_refl fun _ => ?_
  refine .require_bind fun sps sps' => ?_
  iterate 18 refine .bind_refl fun _ => ?_
  refine (hpartition sps sps').bind fun _ => ?_
  iterate 6 refine .bind_refl fun _ => ?_
  exact (hmerge sps sps').bind fun _ => .refl _

/-- The parts of a set that are checked, as their readers give them. -/
theorem produces_parts {known : SpsId → Option Sps} {p : Pps} (h : (parse known).Produces p) :
    ∃ sps, known p.spsId = some sps ∧ (Partition.parse sps).Produces p.partition ∧
      (∃ element, (parseNumRefIdx element).Produces p.numRefIdxL0DefaultMinus1) ∧
      (∃ element, (parseNumRefIdx element).Produces p.numRefIdxL1DefaultMinus1) ∧
      (parseMergeLevel sps).Produces p.log2ParallelMergeLevelMinus2 ∧
      (PpsExtensions.parse p.transformSkip).Produces p.extensions := by
  obtain ⟨_, -, h⟩ := h.bind
  obtain ⟨_, -, h⟩ := h.bind
  obtain ⟨_, -, h⟩ := h.bind
  obtain ⟨spsId, -, h⟩ := h.bind
  obtain ⟨sps, hsps, h⟩ := h.bind
  iterate 5 obtain ⟨_, -, h⟩ := h.bind
  obtain ⟨refIdxL0, hrefIdxL0, h⟩ := h.bind
  obtain ⟨refIdxL1, hrefIdxL1, h⟩ := h.bind
  obtain ⟨_, -, h⟩ := h.bind
  obtain ⟨_, -, h⟩ := h.bind
  obtain ⟨transformSkip, -, h⟩ := h.bind
  iterate 8 obtain ⟨_, -, h⟩ := h.bind
  obtain ⟨partition, hpartition, h⟩ := h.bind
  iterate 6 obtain ⟨_, -, h⟩ := h.bind
  obtain ⟨mergeLevel, hmergeLevel, h⟩ := h.bind
  obtain ⟨_, -, h⟩ := h.bind
  obtain ⟨extensions, hextensions, h⟩ := h.bind
  obtain rfl := h.pure
  exact ⟨sps, hsps.require, hpartition, ⟨_, hrefIdxL0⟩, ⟨_, hrefIdxL1⟩, hmergeLevel, hextensions⟩

theorem known_of_produces {known : SpsId → Option Sps} {p : Pps} (h : (parse known).Produces p) :
    ∃ sps, known p.spsId = some sps ∧ (Partition.parse sps).Produces p.partition := by
  obtain ⟨sps, hsps, hpartition, -⟩ := produces_parts h
  exact ⟨sps, hsps, hpartition⟩

end Pps

/-- A grid with columns and rows whose numbers have codes. -/
def TileOverride.Codable : TileOverride → Prop
  | keep | remove => True
  | uniform columns rows => (0 < columns ∧ columns < 2 ^ 32) ∧ 0 < rows ∧ rows < 2 ^ 32

namespace TileOverride

theorem Codable.check {o : TileOverride} (h : o.Codable) : o.check = .empty := by
  cases o with
  | keep => rfl
  | remove => rfl
  | uniform columns rows =>
    obtain ⟨⟨hcolumns, -⟩, hrows, -⟩ := h
    have : (columns != 0 && rows != 0) = true := by simp; omega
    rw [TileOverride.check, this]
    rfl

theorem Codable.grid {o : TileOverride} (h : o.Codable) {sps : Sps} {p : Partition}
    (hp : (Partition.parse sps).Produces p) {g : TileGrid} (hg : (o.apply p).tiles = some g) :
    g.Codable := by
  cases o with
  | keep => exact (TileGrid.fits_codable_of_produces (Partition.produces_tiles hp hg)).2
  | remove => cases hg
  | uniform columns rows =>
    obtain ⟨⟨_, hcolumns⟩, _, hrows⟩ := h
    cases hg
    refine ⟨?_, ?_, TileSpacing.reads_uniform _ _⟩
    · show columns - 1 < 2 ^ 32 - 1
      omega
    · show rows - 1 < 2 ^ 32 - 1
      omega

/-- A uniform grid fits if the picture has a block for each of its columns and rows. -/
theorem fits_uniform {sps : Sps} {columns rows : Nat}
    (hcolumns : 1 ≤ columns ∧ columns ≤ sps.widthInCtbs)
    (hrows : 1 ≤ rows ∧ rows ≤ sps.heightInCtbs) {p : Partition} {g : TileGrid}
    (hg : ((uniform columns rows).apply p).tiles = some g) : g.Fits sps := by
  cases hg
  constructor
  · show columns - 1 < sps.widthInCtbs
    omega
  · show rows - 1 < sps.heightInCtbs
    omega

end TileOverride

/-- What is read from the code of a set is the set that was written. It may be read with sequence
parameter sets that make other checks. -/
theorem Pps.eq_asWritten_of_decode {known known' : SpsId → Option Sps} {p p' : Pps}
    {tiles : TileOverride} {bits : BitString} (h : (parse known).Produces p)
    (htiles : tiles.Codable) (hbits : p.encode tiles = .ok bits)
    (hp' : (parse known').decode (Bits.toBytes bits) = .ok p') : p' = p.asWritten tiles := by
  obtain ⟨sps, hsps, hpartition⟩ := known_of_produces h
  -- a picture with a block for each column and row has room for the grid
  let roomy := sps.resized ((tiles.apply p.partition).columns * 2 ^ sps.log2Ctb)
    ((tiles.apply p.partition).rows * 2 ^ sps.log2Ctb)
  have hroom : ∀ k, k ≤ ctbsFor (k * 2 ^ sps.log2Ctb) sps.log2Ctb := fun k =>
    Nat.le_of_mul_le_mul_right (le_ctbsFor_mul _ _) (Nat.two_pow_pos _)
  have hfits : ∀ g, (tiles.apply p.partition).tiles = some g → g.Fits roomy ∧ g.Codable := by
    intro g hg
    have hcolumns : g.columnsMinus1 < (tiles.apply p.partition).columns := by
      rw [Partition.columns, hg]
      exact Nat.lt_succ_self _
    have hrows : g.rowsMinus1 < (tiles.apply p.partition).rows := by
      rw [Partition.rows, hg]
      exact Nat.lt_succ_self _
    exact ⟨⟨Nat.lt_of_lt_of_le hcolumns (hroom _), Nat.lt_of_lt_of_le hrows (hroom _)⟩,
      htiles.grid hpartition hg⟩
  have hreads : (parse fun _ => some roomy).ReadsPayload (p.encode tiles) (p.asWritten tiles) :=
    reads h hsps rfl rfl htiles.check hfits
  obtain ⟨_, hbits', hread⟩ := hreads.decode
  rw [hbits] at hbits'
  cases hbits'
  exact (parse_agrees _ _).eq_of_decode hp' hread

end TiledVideo
