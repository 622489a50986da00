import TiledVideo.Extradata.Basic
import TiledVideo.Proofs.ParamSet.Context
import TiledVideo.Proofs.Slice.Header
import TiledVideo.Proofs.Tiling.Sizes

/-!
# Parameter sets that are never missing

A picture parameter set is read only if the sequence parameter set that it names is in force, and a
slice only if its picture parameter set is. Sets are replaced, but never removed, so none of these is
missing later on.

Results:

* `Context.Complete`: the sets that picture parameter sets name are in force.
* `Context.Complete.decode`, `Extradata.complete_of_decode`: what is read keeps it so.
* `AccessUnit.ppsById_of_decode`: the picture parameter set of a slice is in force behind the access
  unit.
-/

namespace TiledVideo

namespace Context

/-- The sequence parameter set that a picture parameter set names is in force, and sizes are given for
all tiles of its grid or for none. -/
structure Complete (c : Context) : Prop where
  spsOf : ∀ id p, c.ppsById id = some p → ∃ s, c.spsOf p = some s
  counted : ∀ id p, c.ppsById id = some p → p.Counted

variable {c : Context}

theorem Complete.empty : Context.empty.Complete := by
  have hnone : ∀ id p, Context.empty.ppsById id ≠ some p := by
    intro id p h
    simp [ppsById, Context.empty] at h
  exact ⟨fun id p h => absurd h (hnone id p), fun id p h => absurd h (hnone id p)⟩

theorem Complete.putVps (h : c.Complete) (v : Vps) : (c.putVps v).Complete :=
  ⟨h.spsOf, h.counted⟩

theorem Complete.putSps (h : c.Complete) (s : Sps) : (c.putSps s).Complete := by
  refine ⟨fun id p hp => ?_, h.counted⟩
  rw [Context.spsOf, spsById_putSps]
  split
  · exact ⟨s, rfl⟩
  · exact h.spsOf id p hp

theorem Complete.putPps (h : c.Complete) {p : Pps} (hp : (Pps.parse c.spsById).Produces p) :
    (c.putPps p).Complete := by
  have hput : ∀ id q, (c.putPps p).ppsById id = some q → p = q ∨ c.ppsById id = some q := by
    intro id q hq
    rw [ppsById_putPps] at hq
    split at hq
    · exact .inl (Option.some.inj hq)
    · exact .inr hq
  refine ⟨fun id q hq => ?_, fun id q hq => ?_⟩
  · obtain rfl | hq := hput id q hq
    · obtain ⟨sps, hsps, -⟩ := Pps.known_of_produces hp
      exact ⟨sps, hsps⟩
    · exact h.spsOf id q hq
  · obtain rfl | hq := hput id q hq
    · exact Pps.counted_of_produces hp
    · exact h.counted id q hq

end Context

/-! ## Access units -/

namespace DecoderState

theorem Yields.complete {s : DecoderState} {unit : DecodedUnit} (h : s.Yields unit)
    (hs : s.ctx.Complete) : (s.after unit).ctx.Complete := by
  cases unit with
  | vps set => exact hs.putVps set
  | sps set => exact hs.putSps set
  | pps set => exact hs.putPps h
  | slice segment =>
    rw [after_slice_ctx]
    exact hs
  | other header => exact hs

theorem YieldsAll.complete {s : DecoderState} {units : List DecodedUnit} (h : s.YieldsAll units)
    (hs : s.ctx.Complete) : (units.foldl after s).ctx.Complete := by
  induction units generalizing s with
  | nil => exact hs
  | cons unit units ih => exact ih h.2 (h.1.complete hs)

theorem YieldsAll.counted {s : DecoderState} {units : List DecodedUnit} (h : s.YieldsAll units)
    {p : Pps} (hp : .pps p ∈ units) : p.Counted := by
  induction units generalizing s with
  | nil => exact absurd hp List.not_mem_nil
  | cons unit units ih =>
    obtain rfl | hp := List.mem_cons.1 hp
    · exact Pps.counted_of_produces h.1
    · exact ih h.2 hp

/-- A picture parameter set that a slice refers to is still in force behind all units. -/
theorem YieldsAll.ppsById {s : DecoderState} {units : List DecodedUnit} (h : s.YieldsAll units)
    {segment : SliceUnit} (hmem : .slice segment ∈ units) :
    ∃ p, (units.foldl after s).ctx.ppsById segment.header.ppsId = some p := by
  induction units generalizing s with
  | nil => exact absurd hmem List.not_mem_nil
  | cons unit units ih =>
    obtain rfl | hmem := List.mem_cons.1 hmem
    · obtain ⟨p, _, hp, -⟩ := SliceHeader.legible_of_produces h.1.2
      rw [ppsById_after, hp]
      cases lastPps segment.header.ppsId (DecodedUnit.slice segment :: units) with
      | none => exact ⟨p, rfl⟩
      | some later => exact ⟨later, rfl⟩
    · exact ih h.2 hmem

end DecoderState

variable {c ctx : Context} {bytes : Bytes} {au : AccessUnit}

theorem Context.Complete.decode (h : c.Complete)
    (hdecode : AccessUnit.decode c bytes = .ok (au, ctx)) : ctx.Complete := by
  obtain ⟨hyields, rfl⟩ := AccessUnit.yieldsAll_of_decode hdecode
  exact hyields.complete h

theorem AccessUnit.ppsById_of_decode (hdecode : AccessUnit.decode c bytes = .ok (au, ctx))
    {segment : SliceUnit} (hmem : segment ∈ au.slices) :
    ∃ p, ctx.ppsById segment.header.ppsId = some p := by
  obtain ⟨hyields, rfl⟩ := AccessUnit.yieldsAll_of_decode hdecode
  exact hyields.ppsById (mem_slices_iff.1 hmem)

/-! ## Extradata -/

theorem DecoderConfig.produces_of_readPps {nal : Bytes} {p : Pps} (h : readPps c nal = .ok p) :
    (Pps.parse c.spsById).Produces p := by
  obtain ⟨payload, -, h⟩ := bind_eq_ok_iff.1 h
  exact Reader.produces_of_decode (mapError_eq_ok_iff.1 h)

theorem DecoderConfig.complete_of_context {config : DecoderConfig} (h : config.context = .ok ctx) :
    ctx.Complete := by
  obtain ⟨c₁, hvps, h⟩ := bind_eq_ok_iff.1 h
  obtain ⟨c₂, hsps, hpps⟩ := bind_eq_ok_iff.1 h
  have h₁ : c₁.Complete := foldlM_keeps (fun nal c c' h hc => by
    obtain ⟨payload, -, h⟩ := bind_eq_ok_iff.1 h
    obtain ⟨set, -, h⟩ := bind_eq_ok_iff.1 h
    cases h
    exact hc.putVps set) hvps .empty
  have h₂ : c₂.Complete := foldlM_keeps (fun nal c c' h hc => by
    obtain ⟨payload, -, h⟩ := bind_eq_ok_iff.1 h
    obtain ⟨set, -, h⟩ := bind_eq_ok_iff.1 h
    cases h
    exact hc.putSps set) hsps h₁
  exact foldlM_keeps (fun nal c c' h hc => by
    obtain ⟨p, hp, rfl⟩ := map_eq_ok_iff.1 h
    exact hc.putPps (produces_of_readPps hp)) hpps h₂

theorem Pps.counted_of_firstPps {s : DecoderState} (hyields : s.YieldsAll au.units) {p : Pps}
    (hp : au.firstPps = some p) : p.Counted := by
  obtain ⟨unit, hunit, hp⟩ := List.exists_of_findSome?_eq_some hp
  cases unit with
  | pps set =>
    cases hp
    exact hyields.counted hunit
  | _ => cases hp

namespace Extradata

variable {sets : Extradata}

theorem complete_of_decodeConfig (h : decodeConfig bytes = .ok sets) :
    sets.ctx.Complete ∧ ∀ p, sets.firstPps = some p → p.Counted := by
  obtain ⟨config, -, h⟩ := bind_eq_ok_iff.1 h
  obtain ⟨ctx, hctx, h⟩ := bind_eq_ok_iff.1 h
  have hcomplete := DecoderConfig.complete_of_context hctx
  split at h
  · cases h
    refine ⟨hcomplete, fun p hp => ?_⟩
    cases hp
  · obtain ⟨first, hfirst, h⟩ := bind_eq_ok_iff.1 h
    cases h
    refine ⟨hcomplete, fun p hp => ?_⟩
    cases hp
    exact Pps.counted_of_produces (DecoderConfig.produces_of_readPps hfirst)

theorem complete_of_decodeByteStream (h : decodeByteStream bytes = .ok sets) :
    sets.ctx.Complete ∧ ∀ p, sets.firstPps = some p → p.Counted := by
  obtain ⟨⟨au, ctx⟩, hdecode, h⟩ := bind_eq_ok_iff.1 h
  cases h
  exact ⟨Context.Complete.empty.decode hdecode, fun p hp =>
    Pps.counted_of_firstPps (AccessUnit.yieldsAll_of_decode hdecode).1 hp⟩

/-- The sets of extradata are complete, and sizes are given for all tiles of the first grid or for
none. -/
theorem complete_of_decode (h : decode bytes = .ok sets) :
    sets.ctx.Complete ∧ ∀ p, sets.firstPps = some p → p.Counted := by
  unfold decode at h
  split at h
  · cases h
  · split at h
    · exact complete_of_decodeConfig (mapError_eq_ok_iff.1 h)
    · exact complete_of_decodeByteStream (mapError_eq_ok_iff.1 h)

end Extradata

end TiledVideo
