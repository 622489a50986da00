import TiledVideo.Proofs.ParamSet.Context

/-!
# Round trips of parameter sets

Parameter sets are written back as they were read, except for what an engine changes in them: the
size of a picture and its grid of tiles. What is then read is the set with these changes and nothing
else, save that announcements of extensions that are not known are not written.

Results:

* `Context.decodeVps_written`: a video parameter set without an extension comes back as it is.
* `Context.decodeSps_resized`: a sequence parameter set comes back with another size.
* `Context.decodePps_overridden`: a picture parameter set comes back with its grid kept, removed or
  replaced.
-/

namespace TiledVideo

open Reader

namespace Context

/-! ## Video parameter sets -/

/-- A video parameter set comes back as it is, whichever buffer models inherit their common part. -/
theorem decodeVps_written {payload : Bytes} {v : Vps} (h : decodeVps payload = .ok v)
    (hextension : v.hasExtension = false) :
    ∃ bytes, v.encode.toEscapedBytes = .ok bytes ∧
      decodeVps (Emulation.unescape bytes) = .ok v := by
  have hreads := Vps.reads (produces_of_decode h) hextension
  exact hreads.decode_escaped

/-- The payload of a video parameter set with five buffer models. -/
def sampleVpsPayload : Bytes := [
  4, 2, 255, 255, 1, 96, 0, 0, 0, 144, 0, 0, 0, 0, 0, 123, 128, 0, 1, 96, 0, 0, 0, 144, 0, 0, 0,
  0, 0, 149, 152, 138, 57, 137, 207, 11, 105, 222, 160, 0, 0, 125, 32, 0, 29, 76, 18, 26, 132,
  174, 242, 144, 0, 0, 0, 31, 255, 255, 255, 241, 0, 0, 0, 1, 255, 255, 255, 255, 39, 0, 125, 32,
  7, 209, 240, 7, 210, 0, 125, 27, 112, 7, 210, 0, 125, 31, 0, 125, 32, 7, 209, 146, 32, 0, 0, 0,
  63, 255, 255, 255, 193, 2, 0, 0, 0, 3, 255, 255, 255, 252, 16, 39, 232]

/-- A video parameter set with buffer models that code or inherit their common part. -/
def sampleVps : Vps :=
  match decodeVps sampleVpsPayload with
  | .ok v => v
  | .error _ => default

theorem decodeVps_written_sample :
    sampleVps.timing.map (·.hrds.map (·.2.commonCoded)) =
        some [true, false, false, true, false] ∧
      ∃ bytes, sampleVps.encode.toEscapedBytes = .ok bytes ∧
        decodeVps (Emulation.unescape bytes) = .ok sampleVps := by
  have hdecode : decodeVps sampleVpsPayload = .ok sampleVps := by decide +kernel
  exact ⟨by decide +kernel, decodeVps_written hdecode (by decide +kernel)⟩

/-! ## Sequence parameter sets -/

/-- A sequence parameter set comes back with the size that was written. -/
theorem decodeSps_resized {payload : Bytes} {s : Sps} {width height : Nat}
    (h : decodeSps payload = .ok s) (hlong : s.longTerm = none)
    (hwidth : 1 ≤ width ∧ width ≤ 16888) (hheight : 1 ≤ height ∧ height ≤ 16888) :
    ∃ bytes, (s.resized width height).encode.toEscapedBytes = .ok bytes ∧
      decodeSps (Emulation.unescape bytes) =
        .ok { s with
          format := { s.format with width, height }
          extensions := { s.extensions with unknown := 0 } } := by
  have hreads := Sps.reads_resized (produces_of_decode h) hlong hwidth hheight
  exact hreads.decode_escaped

/-- The payload of a sequence parameter set with most of what one may have. -/
def sampleSpsPayload : Bytes := [
  117, 1, 96, 0, 0, 0, 144, 0, 0, 0, 0, 0, 123, 96, 0, 60, 1, 96, 0, 0, 0, 144, 0, 0, 0, 0, 0,
  176, 5, 2, 4, 26, 73, 38, 82, 157, 228, 75, 85, 85, 85, 128, 123, 191, 255, 255, 255, 255, 255,
  255, 255, 213, 85, 166, 137, 12, 211, 170, 154, 101, 98, 188, 181, 43, 128, 213, 64, 0, 0, 250,
  64, 0, 58, 152, 24, 37, 119, 148, 32, 7, 210, 0, 125, 24, 3, 233, 0, 62, 140, 32, 7, 210, 0,
  125, 24, 3, 233, 0, 62, 140, 32, 7, 210, 0, 125, 24, 3, 233, 0, 62, 141, 130, 130, 192]

/-- A sequence parameter set with scaling lists, reference picture sets of which one is derived from
another, display information and a range extension. -/
def sampleSps : Sps :=
  match decodeSps sampleSpsPayload with
  | .ok s => s
  | .error _ => default

theorem decodeSps_resized_sample :
    sampleSps.extensions.unknown = 2 ∧
      ∃ bytes, (sampleSps.resized 6534 6324).encode.toEscapedBytes = .ok bytes ∧
        decodeSps (Emulation.unescape bytes) =
          .ok { sampleSps with
            format := { sampleSps.format with width := 6534, height := 6324 }
            extensions := { sampleSps.extensions with unknown := 0 } } := by
  have hdecode : decodeSps sampleSpsPayload = .ok sampleSps := by decide +kernel
  exact ⟨by decide +kernel,
    decodeSps_resized hdecode (by decide +kernel) (by decide) (by decide)⟩

/-! ## Picture parameter sets -/

variable {c : Context} {p : Pps}

/-- A picture parameter set that is written with a choice of grid is read back with the grid
`tiles`. There are no dependent slices, and extensions that are not known are not announced. -/
def ReadsBack (c : Context) (p : Pps) (o : TileOverride) (tiles : Option TileGrid) : Prop :=
  ∃ bytes, (p.encode o).toEscapedBytes = .ok bytes ∧
    c.decodePps (Emulation.unescape bytes) =
      .ok { p with
        dependentSlices := false
        partition := { p.partition with tiles }
        extensions := { p.extensions with unknown := 0 } }

/-- Any grid that fits into the picture is read back. -/
theorem readsBack {sps : Sps} {o : TileOverride} (hp : (Pps.parse c.spsById).Produces p)
    (hsps : c.spsById p.spsId = some sps) (hpartition : (Partition.parse sps).Produces p.partition)
    (ho : o.Codable) (hfits : ∀ g, (o.apply p.partition).tiles = some g → g.Fits sps) :
    c.ReadsBack p o (o.apply p.partition).tiles := by
  have hgrid : ∀ g, (o.apply p.partition).tiles = some g → g.Fits sps ∧ g.Codable := by
    intro g hg
    exact ⟨hfits g hg, ho.grid hpartition hg⟩
  have hreads := Pps.reads hp hsps hsps rfl ho.check hgrid
  rw [Pps.asWritten_eq] at hreads
  exact hreads.decode_escaped

/-- A picture parameter set comes back with its own grid, with none, and with each uniform grid that
has no more columns and rows than the picture has blocks. -/
theorem decodePps_overridden {payload : Bytes} (h : c.decodePps payload = .ok p) :
    c.ReadsBack p .keep p.partition.tiles ∧ c.ReadsBack p .remove none ∧
      ∃ sps, c.spsOf p = some sps ∧ ∀ columns rows : UInt32,
        1 ≤ columns.toNat ∧ columns.toNat ≤ sps.widthInCtbs →
        1 ≤ rows.toNat ∧ rows.toNat ≤ sps.heightInCtbs →
          c.ReadsBack p (.uniform columns.toNat rows.toNat) (some {
            columnsMinus1 := columns.toNat - 1
            rowsMinus1 := rows.toNat - 1
            spacing := .uniform
            loopFilterAcross := (p.partition.tiles.map (·.loopFilterAcross)).getD true }) := by
  have hp : (Pps.parse c.spsById).Produces p := produces_of_decode h
  obtain ⟨sps, hsps, hpartition⟩ := Pps.known_of_produces hp
  refine ⟨?_, ?_, sps, hsps, ?_⟩
  · refine readsBack hp hsps hpartition trivial fun g hg => ?_
    exact (TileGrid.fits_codable_of_produces (Partition.produces_tiles hpartition hg)).1
  · exact readsBack hp hsps hpartition trivial fun g hg => nomatch hg
  · intro columns rows hcolumns hrows
    have hcodable : (TileOverride.uniform columns.toNat rows.toNat).Codable :=
      ⟨⟨hcolumns.1, columns.toNat_lt⟩, hrows.1, rows.toNat_lt⟩
    rw [← Partition.loopFilterAcross_eq]
    exact readsBack hp hsps hpartition hcodable fun _ => TileOverride.fits_uniform hcolumns hrows

/-- The payload of a picture parameter set with columns and rows of given sizes. -/
def samplePpsPayload : Bytes := [
  5, 56, 3, 135, 131, 214, 36, 36, 19, 8, 140, 40, 164, 16, 156, 15, 65, 64, 70, 4, 90, 146, 35,
  40, 161, 112]

/-- A picture parameter set with dependent slices, a grid with columns and rows of given sizes, and a
range extension. -/
def samplePps : Pps :=
  match Sample.ctx.decodePps samplePpsPayload with
  | .ok p => p
  | .error _ => default

theorem decodePps_overridden_sample :
    samplePps.partition.tiles = some ⟨3, 2, .explicit [9, 4, 3] [7, 1], false⟩ ∧
      Sample.ctx.ReadsBack samplePps .keep samplePps.partition.tiles ∧
      Sample.ctx.ReadsBack samplePps .remove none ∧
      Sample.ctx.ReadsBack samplePps (.uniform 30 17) (some ⟨29, 16, .uniform, false⟩) := by
  have hdecode : Sample.ctx.decodePps samplePpsPayload = .ok samplePps := by
    decide +kernel
  have htiles : samplePps.partition.tiles =
      some ⟨3, 2, .explicit [9, 4, 3] [7, 1], false⟩ := by decide +kernel
  have hknown : Sample.ctx.spsOf samplePps = some Sample.sps := by decide +kernel
  have hsize : Sample.sps.widthInCtbs = 30 ∧ Sample.sps.heightInCtbs = 17 := by decide +kernel
  obtain ⟨hkeep, hremove, sps, hsps, huniform⟩ := decodePps_overridden hdecode
  obtain rfl : Sample.sps = sps := Option.some.inj (hknown.symm.trans hsps)
  have hlargest := huniform 30 17 (by rw [hsize.1]; decide) (by rw [hsize.2]; decide)
  rw [htiles] at hlargest
  exact ⟨htiles, hkeep, hremove, hlargest⟩

end Context

end TiledVideo
