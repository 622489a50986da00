import TiledVideo.Proofs.Engine.PlacerRun
import TiledVideo.Proofs.Nal.TrailingZeros
import TiledVideo.Proofs.ParamSet.WriteErrors

/-!
# Units that wait

What an engine leaves in a stream to wait for a slice are parameter sets, each written up to its end. If
there is no room for the packet of a slice, a placer leaves the slice there as well.

Results:

* `WrittenSets`: bytes that are parameter sets, one after the other.
* `WrittenUnits`: bytes that are parameter sets and slices, one after the other.
* `WrittenSets.of_setBytes`, `Placer.writeUnits_spec`: what a splitter and a placer write for the
  parameter sets of an access unit.
* `Placer.place_eq_error`: where a placer fails to place an access unit.
-/

namespace TiledVideo

open ByteStream TileStreams

/-- Bytes are parameter sets, each as it is written on its own, one after the other. -/
inductive WrittenSets : Bytes → Prop where
  | nil : WrittenSets []
  | vps {front own : Bytes} (earlier : WrittenSets front) (set : Vps)
    (write : ownSet .vps set.encode = .ok own) : WrittenSets (front ++ own)
  | sps {front own : Bytes} (earlier : WrittenSets front) (set : Sps)
    (write : ownSet .sps set.encode = .ok own) : WrittenSets (front ++ own)
  | pps {front own : Bytes} (earlier : WrittenSets front) (set : Pps) (tiles : TileOverride)
    (write : ownSet .pps (set.encode tiles) = .ok own) : WrittenSets (front ++ own)

namespace WrittenSets

variable {a b bytes : Bytes}

theorem append (ha : WrittenSets a) (hb : WrittenSets b) : WrittenSets (a ++ b) := by
  induction hb with
  | nil => rwa [List.append_nil]
  | vps _ set write ih => exact List.append_assoc a _ _ ▸ ih.vps set write
  | sps _ set write ih => exact List.append_assoc a _ _ ▸ ih.sps set write
  | pps _ set tiles write ih => exact List.append_assoc a _ _ ▸ ih.pps set tiles write

/-- Parameter sets are units that can all be found again. -/
theorem framed (h : WrittenSets bytes) : Framed bytes := by
  have hown : ∀ {unitType : UnitType} {code : Code} {own : Bytes},
      ownSet unitType code.closed = .ok own → Framed own := by
    intro unitType code own h
    obtain ⟨_, -, rfl, hsolid⟩ := ownSet_eq_ok h
    exact .single hsolid
  induction h with
  | nil => exact .nil
  | vps _ set write ih => exact ih.append (hown write)
  | sps _ set write ih => exact ih.append (hown write)
  | pps _ set tiles write ih => exact ih.append (hown write)

theorem of_ownSetBytes {tile : Nat} {rest : List DecodedUnit} {unit : DecodedUnit}
    (h : ownSetBytes tile rest unit = .ok bytes) : WrittenSets bytes := by
  cases unit with
  | vps set => exact nil.vps set h
  | sps sps =>
    obtain ⟨pps, -, h⟩ := bind_eq_ok_iff.1 h
    obtain ⟨⟨width, height⟩, -, h⟩ := bind_eq_ok_iff.1 h
    exact nil.sps _ h
  | pps pps => exact nil.pps pps .remove h
  | slice segment =>
    cases h
    exact nil
  | other header =>
    cases h
    exact nil

/-- What a tile gets of the parameter sets of an access unit. -/
theorem of_setBytes {tile : Nat} {units : List DecodedUnit} (h : setBytes tile units = .ok bytes) :
    WrittenSets bytes := by
  induction units generalizing bytes with
  | nil =>
    cases h
    exact nil
  | cons unit rest ih =>
    obtain ⟨own, hown, h⟩ := bind_eq_ok_iff.1 h
    obtain ⟨later, hlater, h⟩ := bind_eq_ok_iff.1 h
    cases h
    exact (of_ownSetBytes hown).append (ih hlater)

end WrittenSets

/-- Nothing but parameter sets is in a stream, and no byte has been begun. -/
structure BitStream.HoldsSets (s : BitStream) : Prop where
  whole : s.Whole
  sets : WrittenSets s.out.bytes

namespace BitStream

variable {s s' : BitStream}

theorem HoldsSets.aligned (h : s.HoldsSets) : s.aligned = true := by
  rw [BitStream.aligned, h.whole.pending]
  rfl

theorem holdsSets_empty : HoldsSets .empty :=
  ⟨whole_empty, .nil⟩

end BitStream

/-- Bytes are parameter sets and slices, each as it is written on its own, one after the other. -/
inductive WrittenUnits : Bytes → Prop where
  | nil : WrittenUnits []
  | sets {front own : Bytes} (earlier : WrittenUnits front) (sets : WrittenSets own) :
    WrittenUnits (front ++ own)
  | slice {front : Bytes} {own : BitStream} (earlier : WrittenUnits front) (segment : SliceUnit)
    (sps : Sps) (pps : Pps) (target : SliceHeader.Target)
    (write : BitStream.empty.slice segment sps pps target = .ok own) :
    WrittenUnits (front ++ own.out.bytes)

/-- Nothing but whole units is in a stream, and no byte has been begun. -/
structure BitStream.HoldsUnits (s : BitStream) : Prop where
  whole : s.Whole
  units : WrittenUnits s.out.bytes

namespace BitStream

theorem HoldsSets.holdsUnits {s : BitStream} (h : s.HoldsSets) : s.HoldsUnits :=
  ⟨h.whole, WrittenUnits.nil.sets h.sets⟩

theorem HoldsUnits.aligned {s : BitStream} (h : s.HoldsUnits) : s.aligned = true := by
  rw [BitStream.aligned, h.whole.pending]
  rfl

theorem holdsUnits_empty : HoldsUnits .empty :=
  holdsSets_empty.holdsUnits

end BitStream

namespace Placer

variable {p : Placement} {ctx : Context} {stream stream' : BitStream}

theorem writeUnit_spec {unit : DecodedUnit} (h : writeUnit p ctx stream unit = .ok stream')
    (hs : stream.Whole) : stream'.Whole ∧
      ∃ own, WrittenSets own ∧ stream'.out.bytes = stream.out.bytes ++ own := by
  have hset : ∀ {unitType : UnitType} {code : Code},
      (stream.parameterSet unitType code.closed).mapError EngineError.ofWrite = .ok stream' →
        (∀ {own}, ownSet unitType code.closed = .ok own → WrittenSets own) →
          stream'.Whole ∧ ∃ own, WrittenSets own ∧ stream'.out.bytes = stream.out.bytes ++ own := by
    intro unitType code h hown
    obtain ⟨hwhole, bytes, hbytes, hout⟩ := parameterSet_spec hs (mapError_eq_ok_iff.1 h)
    exact ⟨hwhole, bytes, hown hbytes, hout⟩
  cases unit with
  | vps set => exact hset h (WrittenSets.nil.vps set)
  | sps sps => exact hset h (WrittenSets.nil.sps _)
  | pps pps =>
    cases hsps : ctx.spsOf pps with
    | none =>
      simp only [writeUnit, hsps] at h
      exact hset h (WrittenSets.nil.pps pps p.tiles)
    | some sps =>
      simp only [writeUnit, hsps] at h
      obtain ⟨_, -, h⟩ := bind_eq_ok_iff.1 h
      exact hset h (WrittenSets.nil.pps pps p.tiles)
  | slice segment =>
    cases h
    exact ⟨hs, [], .nil, (List.append_nil _).symm⟩
  | other header =>
    cases h
    exact ⟨hs, [], .nil, (List.append_nil _).symm⟩

/-- What a placer adds to a stream for the units of an access unit. -/
theorem writeUnits_spec {units : List DecodedUnit}
    (h : units.foldlM (writeUnit p ctx) stream = .ok stream') (hs : stream.Whole) : stream'.Whole ∧
      ∃ own, WrittenSets own ∧ stream'.out.bytes = stream.out.bytes ++ own := by
  refine foldlM_keeps (P := fun s => s.Whole ∧ ∃ own, WrittenSets own ∧
    s.out.bytes = stream.out.bytes ++ own) (fun unit s s' hunit hadded => ?_) h
    ⟨hs, [], .nil, (List.append_nil _).symm⟩
  obtain ⟨hwhole, own, hown, hbytes⟩ := hadded
  obtain ⟨hwhole', later, hlater, hbytes'⟩ := writeUnit_spec hunit hwhole
  exact ⟨hwhole', own ++ later, hown.append hlater, by rw [hbytes', hbytes, List.append_assoc]⟩

theorem holdsSets_writeUnits {units : List DecodedUnit}
    (h : units.foldlM (writeUnit p ctx) stream = .ok stream') (hs : stream.HoldsSets) :
    stream'.HoldsSets := by
  obtain ⟨hwhole, own, hown, hbytes⟩ := writeUnits_spec h hs.whole
  exact ⟨hwhole, hbytes ▸ hs.sets.append hown⟩

/-- What a placer adds to a stream for a slice. -/
theorem writeSlice_spec {segment : SliceUnit} (h : writeSlice p ctx stream segment = .ok stream')
    (hs : stream.Whole) : stream'.Whole ∧
      ∃ sps pps own, ctx.paramSets segment.header.ppsId = some (sps, pps) ∧
        BitStream.empty.slice segment sps pps p.target = .ok own ∧
        stream'.out.bytes = stream.out.bytes ++ own.out.bytes := by
  obtain ⟨pps, hpps, h⟩ := bind_eq_ok_iff.1 h
  obtain ⟨sps, hsps, h⟩ := bind_eq_ok_iff.1 h
  obtain ⟨hwhole, own, hown, hbytes⟩ := BitStream.bytes_slice hs (mapError_eq_ok_iff.1 h)
  exact ⟨hwhole, sps, pps, own, Context.paramSets_eq_some_iff.2
    ⟨elim_eq_ok_iff.1 hpps, elim_eq_ok_iff.1 hsps⟩, hown, hbytes⟩

/-- What a placer adds to a stream for an access unit with a slice: the parameter sets and the slice. -/
theorem holdsUnits_place {au : AccessUnit} (h : place p ctx stream au = .ok (stream', true))
    (hs : stream.HoldsUnits) : stream'.HoldsUnits := by
  obtain ⟨segment, stream₁, -, hwrite, hslice⟩ := place_eq_ok_true_iff.1 h
  obtain ⟨hwhole₁, sets, hsets, hbytes₁⟩ := writeUnits_spec hwrite hs.whole
  obtain ⟨hwhole, sps, pps, own, -, hown, hbytes⟩ := writeSlice_spec hslice hwhole₁
  refine ⟨hwhole, ?_⟩
  rw [hbytes, hbytes₁]
  exact (hs.units.sets hsets).slice segment sps pps p.target hown

/-! ## Access units that are not placed -/

variable {e : EngineError}

/-- A placer fails to write a unit if its grid is too fine for the pictures, or if a parameter set has no
code. -/
theorem writeUnit_eq_error {unit : DecodedUnit} (h : writeUnit p ctx stream unit = .error e) :
    (∃ option value, e = .invalidOption option value) ∨
      ∃ (unitType : UnitType) (code : Code) (e' : WriteError), code.closed.FailsByContent ∧
        stream.parameterSet unitType code.closed = .error e' ∧ EngineError.ofWrite e' = e := by
  have hset : ∀ {unitType : UnitType} {code : Code}, code.closed.FailsByContent →
      (stream.parameterSet unitType code.closed).mapError EngineError.ofWrite = .error e →
        ∃ (unitType : UnitType) (code : Code) (e' : WriteError), code.closed.FailsByContent ∧
          stream.parameterSet unitType code.closed = .error e' ∧ EngineError.ofWrite e' = e :=
    fun hcode h => ⟨_, _, (mapError_eq_error_iff.1 h).imp fun _ h => ⟨hcode, h⟩⟩
  cases unit with
  | vps set => exact .inr (hset set.failsByContent h)
  | sps sps => exact .inr (hset (sps.resized p.width p.height).failsByContent h)
  | pps pps =>
    cases hsps : ctx.spsOf pps with
    | none =>
      simp only [writeUnit, hsps] at h
      exact .inr (hset (pps.failsByContent p.tiles) h)
    | some sps =>
      simp only [writeUnit, hsps] at h
      obtain h | ⟨_, -, h⟩ := bind_eq_error_iff.1 h
      · exact .inl (Placement.checkGrid_eq_error h)
      · exact .inr (hset (pps.failsByContent p.tiles) h)
  | slice segment => cases h
  | other header => cases h

/-- A placer fails to write a slice if the parameter sets that it names are not known, or if the slice has
no code. -/
theorem writeSlice_eq_error {segment : SliceUnit} (h : writeSlice p ctx stream segment = .error e) :
    (ctx.paramSets segment.header.ppsId = none ∧ (e = .unknownPps ∨ e = .unknownSps)) ∨
      ∃ (sps : Sps) (pps : Pps) (e' : WriteError),
        stream.slice segment sps pps p.target = .error e' ∧ EngineError.ofWrite e' = e := by
  obtain h | ⟨pps, hpps, h⟩ := bind_eq_error_iff.1 h
  · obtain ⟨hpps, rfl⟩ := elim_eq_error_iff.1 h
    exact .inl ⟨by rw [Context.paramSets, hpps]; rfl, .inl rfl⟩
  obtain h | ⟨sps, -, h⟩ := bind_eq_error_iff.1 h
  · obtain ⟨hsps, rfl⟩ := elim_eq_error_iff.1 h
    exact .inl ⟨by rw [Context.paramSets, elim_eq_ok_iff.1 hpps]; simp [hsps], .inr rfl⟩
  exact .inr ⟨sps, pps, mapError_eq_error_iff.1 h⟩

/-- A placer fails to place an access unit if it fails to write one of the units, or then the first
slice. -/
theorem place_eq_error {au : AccessUnit} (hs : stream.Whole)
    (h : place p ctx stream au = .error e) :
    ∃ stream₁ : BitStream, stream₁.Whole ∧
      ((∃ unit, writeUnit p ctx stream₁ unit = .error e) ∨
        ∃ segment, au.slices.head? = some segment ∧
          writeSlice p ctx stream₁ segment = .error e) := by
  obtain h | ⟨stream₁, hunits, h⟩ := bind_eq_error_iff.1 h
  · obtain ⟨unit, -, stream₁, hs₁, hunit⟩ :=
      exists_of_foldlM_eq_error (P := BitStream.Whole)
        (fun _ _ _ hunit hs => (writeUnit_spec hunit hs).1) h hs
    exact ⟨stream₁, hs₁, .inl ⟨unit, hunit⟩⟩
  refine ⟨stream₁, (writeUnits_spec hunits hs).1, .inr ?_⟩
  cases hfirst : au.slices.head? with
  | none =>
    simp only [hfirst] at h
    cases h
  | some segment =>
    simp only [hfirst] at h
    obtain h | ⟨_, -, h⟩ := bind_eq_error_iff.1 h
    · exact ⟨segment, rfl, h⟩
    · cases h

end Placer

end TiledVideo
