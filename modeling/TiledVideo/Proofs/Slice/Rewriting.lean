import TiledVideo.Proofs.ParamSet.Context
import TiledVideo.Proofs.Slice.Header

/-!
# Rewriting slice headers with their parameter sets

A picture is made part of another one by writing its parameter sets for that picture and its slice
headers for their place in it. Whoever reads the new parameter sets then reads the new headers as
the old ones, in another place.

Results:

* `decodeFront_rewritten`: a header that is written for another picture is read back to its end
  with the parameter sets that were written for that picture.
-/

namespace TiledVideo.SliceHeader

open Reader

/-! ## The parameter sets of the other picture -/

variable {ctx : Context} {sps sps' : Sps} {pps pps' : Pps} {width height : Nat}
  {tiles : TileOverride}

theorem sps_eq_asWritten (hsps : Sps.parse.Produces sps) (hlong : sps.longTerm = none)
    (hwidth : 0 < width ∧ width ≤ PictureFormat.maxDimension)
    (hheight : 0 < height ∧ height ≤ PictureFormat.maxDimension) {bytes : Bytes}
    (hbytes : (sps.resized width height).encode.toEscapedBytes = .ok bytes)
    (hsps' : Context.decodeSps (Emulation.unescape bytes) = .ok sps') :
    sps' = (sps.resized width height).asWritten := by
  have hreads := Sps.reads_resized hsps hlong hwidth hheight
  obtain ⟨written, hwritten, hread⟩ := hreads.decode_escaped
  obtain rfl : bytes = written := Except.ok.inj (hbytes.symm.trans hwritten)
  exact Except.ok.inj (hsps'.symm.trans hread)

theorem pps_eq_asWritten {known : SpsId → Option Sps} (hpps : (Pps.parse known).Produces pps)
    (htiles : tiles.Codable) {bytes : Bytes}
    (hbytes : (pps.encode tiles).toEscapedBytes = .ok bytes)
    (hpps' : ctx.decodePps (Emulation.unescape bytes) = .ok pps') : pps' = pps.asWritten tiles := by
  obtain ⟨bits, hbits, rfl⟩ := Code.toEscapedBytes_eq_ok.1 hbytes
  rw [Emulation.unescape_escape] at hpps'
  exact Pps.eq_asWritten_of_decode hpps htiles hbits hpps'

/-! ## Headers in the other picture -/

/-- A header that is written for another picture is read back to its end with the parameter sets
that were written for that picture, as long as it has no more entry points than the picture has
blocks. Only its place, its entry points and the reserved flags differ. -/
theorem decodeFront_rewritten {unitType : UnitType} {previous previous' : Option SliceHeader}
    {payload spsBytes ppsBytes : Bytes} {h : SliceHeader} {n : Nat} {t : Target}
    (hctx : ctx.Parsed) (hparse : (parse ctx unitType previous).decodeFront payload = .ok (h, n))
    (hindependent : h.dependent = false)
    (hpps : ctx.ppsById h.ppsId = some pps) (hsps : ctx.spsOf pps = some sps)
    (hlong : sps.longTerm = none) (houtput : pps.outputFlagPresent = false)
    (hplanes : sps.format.separatePlanes = false)
    (ht : t.independent = true) (hx : t.x < t.width) (hy : t.y < t.height)
    (hwidth : t.width ≤ 16888) (hheight : t.height ≤ 16888)
    (hgrid : ∀ columns rows, t.tiles = .uniform columns rows →
      (1 ≤ columns ∧ columns ≤ ctbsFor t.width sps.log2Ctb) ∧
        1 ≤ rows ∧ rows ≤ ctbsFor t.height sps.log2Ctb)
    (hspsBytes : (sps.resized t.width t.height).encode.toEscapedBytes = .ok spsBytes)
    (hsps' : Context.decodeSps (Emulation.unescape spsBytes) = .ok sps')
    (hppsBytes : (pps.encode t.tiles).toEscapedBytes = .ok ppsBytes)
    (hpps' : (ctx.putSps sps').decodePps (Emulation.unescape ppsBytes) = .ok pps')
    (hcount : pps'.partition.hasEntryPoints = true →
      (h.entryPoints.getD .none).offsetsMinus1.length ≤ sps'.sizeInCtbs) :
    ∃ bytes, (h.encode unitType sps pps t).toEscapedBytes = .ok bytes ∧
      (parse ((ctx.putSps sps').putPps pps') unitType previous').decodeFront
          (Emulation.unescape bytes) =
        .ok ({ h with
          first := t.x == 0 && t.y == 0
          dependent := false
          address := t.y / 2 ^ sps.log2Ctb * ctbsFor t.width sps.log2Ctb + t.x / 2 ^ sps.log2Ctb
          fields := { h.fields with reservedFlags := 0 }
          entryPoints :=
            if pps'.partition.hasEntryPoints then some (h.entryPoints.getD .none) else none },
          8 * (Emulation.unescape bytes).length) := by
  obtain ⟨hspsId, hspsRead⟩ := hctx.spsOf hsps
  obtain ⟨hppsId, known, hppsRead⟩ := hctx.pps _ _ hpps
  -- the parameter sets that are read are those that were written
  have htiles : t.tiles.Codable := by
    cases htiles : t.tiles with
    | keep => trivial
    | remove => trivial
    | uniform columns rows =>
      obtain ⟨⟨hc, hcLe⟩, hr, hrLe⟩ := hgrid columns rows htiles
      have hcMax := Nat.le_trans hcLe (ctbsFor_le _ _)
      have hrMax := Nat.le_trans hrLe (ctbsFor_le _ _)
      exact ⟨by omega, by omega⟩
  obtain rfl := sps_eq_asWritten hspsRead hlong ⟨by omega, hwidth⟩ ⟨by omega, hheight⟩ hspsBytes
    hsps'
  obtain rfl := pps_eq_asWritten hppsRead htiles hppsBytes hpps'
  -- and the header finds them under their numbers
  have hfind : ((ctx.putSps (sps.resized t.width t.height).asWritten).putPps
      (pps.asWritten t.tiles)).ppsById h.ppsId = some (pps.asWritten t.tiles) := by
    rw [Context.ppsById_putPps]
    exact if_pos hppsId
  have hfindSps : ((ctx.putSps (sps.resized t.width t.height).asWritten).putPps
      (pps.asWritten t.tiles)).spsOf (pps.asWritten t.tiles) =
        some (sps.resized t.width t.height).asWritten := by
    show (ctx.putSps (sps.resized t.width t.height).asWritten).spsById pps.spsId = _
    rw [Context.spsById_putSps]
    exact if_pos hspsId
  obtain ⟨pps₀, sps₀, hpps₀, hsps₀, -, -, hfields, hlegible⟩ :=
    legible_of_produces (produces_of_decodeFront hparse)
  obtain rfl : pps = pps₀ := Option.some.inj (hpps.symm.trans hpps₀)
  obtain rfl : sps = sps₀ := Option.some.inj (hsps.symm.trans hsps₀)
  have hreads : (parse _ unitType previous').ReadsFront (h.encode unitType sps pps t) _ :=
    reads (hlegible (hfields hindependent)) ⟨hx, hy, hwidth, hheight⟩ ht houtput hplanes hlong hfind
      hfindSps hcount
  obtain ⟨bits, hbits, hread⟩ := hreads.decodeFront
  refine ⟨_, Code.toEscapedBytes_eq_ok.2 ⟨bits, hbits, rfl⟩, ?_⟩
  have hlen := Bits.length_toBytes (Code.length_closed hbits)
  have := hread []
  rw [List.append_nil] at this
  rw [Emulation.unescape_escape, this, hlen]
  rfl

/-- The header of the second tile's slice. -/
def sampleHeader : SliceHeader :=
  match (parse Sample.ctx ⟨19⟩ none).decodeFront [32, 247, 151, 128, 192, 255, 238, 1] with
  | .ok (h, _) => h
  | .error _ => default

/-- The last tile of a larger picture of four tiles. -/
def sampleTarget : Target where
  width := 3840
  height := 2176
  tiles := .uniform 2 2
  x := 1920
  y := 1088

/-- The sequence parameter set of the larger picture as it is written. -/
def sampleSpsBytes : Bytes :=
  [1, 1, 96, 0, 0, 3, 0, 144, 0, 0, 3, 0, 0, 3, 0, 123, 160, 1, 224, 32, 2, 32, 124, 185, 101, 102,
    146, 68, 138, 200]

/-- The picture parameter set of the larger picture as it is written. -/
def samplePpsBytes : Bytes := [192, 113, 132, 151, 18]

theorem decodeFront_rewritten_sample :
    ∃ bytes, (sampleHeader.encode ⟨19⟩ Sample.sps Sample.pps sampleTarget).toEscapedBytes =
        .ok bytes ∧
      (parse ((Sample.ctx.putSps (Sample.sps.resized 3840 2176).asWritten).putPps
          (Sample.pps.asWritten (.uniform 2 2))) ⟨19⟩ none).decodeFront
          (Emulation.unescape bytes) =
        .ok ({ sampleHeader with
          first := false
          dependent := false
          address := 1050
          fields := { sampleHeader.fields with reservedFlags := 0 }
          entryPoints := some (sampleHeader.entryPoints.getD .none) },
          8 * (Emulation.unescape bytes).length) := by
  have hparse : (parse Sample.ctx ⟨19⟩ none).decodeFront [32, 247, 151, 128, 192, 255, 238, 1] =
      .ok (sampleHeader, 32) := by decide +kernel
  have hpps : Sample.ctx.ppsById sampleHeader.ppsId = some Sample.pps := by decide +kernel
  have hsps : Sample.ctx.spsOf Sample.pps = some Sample.sps := by decide +kernel
  have hspsBytes : (Sample.sps.resized 3840 2176).encode.toEscapedBytes = .ok sampleSpsBytes := by
    decide +kernel
  have hsps' : Context.decodeSps (Emulation.unescape sampleSpsBytes) =
      .ok (Sample.sps.resized 3840 2176).asWritten := by decide +kernel
  have hppsBytes : (Sample.pps.encode (.uniform 2 2)).toEscapedBytes = .ok samplePpsBytes := by
    decide +kernel
  have hpps' : (Sample.ctx.putSps (Sample.sps.resized 3840 2176).asWritten).decodePps
      (Emulation.unescape samplePpsBytes) = .ok (Sample.pps.asWritten (.uniform 2 2)) := by
    decide +kernel
  have haddress : sampleTarget.y / 2 ^ Sample.sps.log2Ctb *
      ctbsFor sampleTarget.width Sample.sps.log2Ctb + sampleTarget.x / 2 ^ Sample.sps.log2Ctb =
        1050 := by decide +kernel
  rw [← haddress]
  exact decodeFront_rewritten Sample.ctx_parsed hparse (by decide +kernel) hpps hsps
    (by decide +kernel) (by decide +kernel) (by decide +kernel) rfl (by decide) (by decide)
    (by decide) (by decide) (by rintro _ _ ⟨⟩; decide +kernel) hspsBytes hsps' hppsBytes hpps'
    (by decide +kernel)

end TiledVideo.SliceHeader
