import TiledVideo.ParamSet.Vps
import TiledVideo.Proofs.Bitstream.Endings
import TiledVideo.Proofs.ParamSet.SubLayers

/-!
# Reading back video parameter sets

Results:

* `Vps.reads`: a video parameter set without an extension is read back as it is.
-/

namespace TiledVideo

open Reader

/-! ## Time base and buffer models -/

namespace VpsTiming

/-- Every buffer model but the first says whether it codes its common part. -/
theorem reads_laterHrds {m n : Nat} {inherited : HrdCommon} {hrds : List (Nat × Hrd)}
    (h : (parseHrds m n (some inherited)).Produces hrds) :
    hrds.length = n ∧
      (parseHrds m n (some inherited)).Reads (.each encodeLaterHrd hrds) hrds := by
  induction n generalizing inherited hrds with
  | zero =>
    obtain rfl := h.pure
    exact ⟨rfl, reads_pure []⟩
  | succ n ih =>
    obtain ⟨layerSet, hlayerSet, h⟩ := h.bind
    obtain ⟨commonCoded, -, h⟩ := h.bind
    obtain ⟨hrd, hhrd, h⟩ := h.bind
    obtain ⟨rest, hrest, h⟩ := h.bind
    obtain rfl := h.pure
    obtain ⟨rfl, hhrd⟩ := Hrd.reads hhrd
    obtain ⟨hlen, hrest⟩ := ih hrest
    refine ⟨by simp [hlen], ?_⟩
    show Reads _ (encodeLaterHrd (layerSet, hrd) ++ Code.each encodeLaterHrd rest) _
    rw [encodeLaterHrd, Code.each, ← Code.concat_append]
    obtain ⟨bits, hc, hb⟩ := hrest
    exact hlayerSet.reads_ue.cons <|
      (reads_flag _ _).cons <|
      hhrd.cons ⟨bits, hc, fun tail pos => by rw [bind_of_eq_ok (hb tail pos)]; rfl⟩

theorem reads_hrds {m n : Nat} {hrds : List (Nat × Hrd)}
    (h : (parseHrds m n none).Produces hrds) :
    hrds.length = n ∧ (parseHrds m n none).Reads (encodeHrds hrds) hrds := by
  cases n with
  | zero =>
    obtain rfl := h.pure
    exact ⟨rfl, reads_pure []⟩
  | succ n =>
    obtain ⟨layerSet, hlayerSet, h⟩ := h.bind
    obtain ⟨commonCoded, hcommonCoded, h⟩ := h.bind
    obtain ⟨hrd, hhrd, h⟩ := h.bind
    obtain ⟨rest, hrest, h⟩ := h.bind
    obtain rfl := h.pure
    obtain rfl := hcommonCoded.optionalD.2 rfl
    obtain ⟨-, hhrd⟩ := Hrd.reads hhrd
    obtain ⟨hlen, hrest⟩ := reads_laterHrds hrest
    exact ⟨by simp [hlen],
      hlayerSet.reads_ue.cons <| (reads_pure true).empty_bind <| hhrd.cons <| hrest.cons <|
      reads_nil _⟩

theorem reads {m maxHrds : Nat} {t : VpsTiming} (h : (parse m maxHrds).Produces t) :
    (parse m maxHrds).Reads t.encode t := by
  obtain ⟨numUnits, hnumUnits, h⟩ := h.bind
  obtain ⟨timeScale, htimeScale, h⟩ := h.bind
  obtain ⟨proportional, -, h⟩ := h.bind
  obtain ⟨ticks, hticks, h⟩ := h.bind
  obtain ⟨count, hcount, h⟩ := h.bind
  obtain ⟨_, hle, h⟩ := h.bind
  obtain ⟨hrds, hhrds, h⟩ := h.bind
  obtain rfl := h.pure
  obtain ⟨rfl, hticksRead⟩ := hticks.optional
  obtain ⟨rfl, hhrdsRead⟩ := reads_hrds hhrds.mapError
  exact (hnumUnits.mapError.reads_uint.mapError _).cons <|
    (htimeScale.mapError.reads_uint.mapError _).cons <|
    ((reads_flag _ _).mapError _).cons <|
    (Reads.optional fun a ha => (hticksRead a ha).mapError.reads_ue.mapError _).cons <|
    (hcount.mapError.reads_ue.mapError _).cons <|
    Reads.ensure_bind hle.ensure <|
    (hhrdsRead.mapError _).cons <|
    reads_nil _

end VpsTiming

/-! ## All together -/

/-- A video parameter set without an extension is read back as it is. -/
theorem Vps.reads {v : Vps} (h : parse.Produces v) (hx : v.hasExtension = false) :
    parse.ReadsPayload v.encode v := by
  obtain ⟨idNumber, hid, h⟩ := h.bind
  obtain ⟨internal, -, h⟩ := h.bind
  obtain ⟨available, -, h⟩ := h.bind
  obtain ⟨layers, hlayers, h⟩ := h.bind
  obtain ⟨subLayers, hsubLayers, h⟩ := h.bind
  obtain ⟨_, hsubLayersLe, h⟩ := h.bind
  obtain ⟨nesting, -, h⟩ := h.bind
  obtain ⟨reserved, hreserved, h⟩ := h.bind
  obtain ⟨_, hreservedEq, h⟩ := h.bind
  obtain ⟨ptl, hptl, h⟩ := h.bind
  obtain ⟨ordering, hordering, h⟩ := h.bind
  obtain ⟨maxLayerId, hmaxLayerId, h⟩ := h.bind
  obtain ⟨numSets, hnumSets, h⟩ := h.bind
  obtain ⟨_, hnumSetsLe, h⟩ := h.bind
  obtain ⟨sets, hsets, h⟩ := h.bind
  obtain ⟨hasTiming, -, h⟩ := h.bind
  obtain ⟨timing, htiming, h⟩ := h.bind
  obtain ⟨extension, -, h⟩ := h.bind
  obtain ⟨_, -, h⟩ := h.bind
  obtain rfl := h.pure
  obtain rfl : extension = false := hx
  obtain rfl : reserved = 0xffff := by simpa using hreservedEq.ensure
  obtain ⟨rfl, htimingRead⟩ := htiming.optional
  obtain ⟨rfl, hsetsRead⟩ := hsets.times
  have hidRead := hid.mapError.reads_uint
  have hidVal : (Fin.ofNat 16 idNumber).val = idNumber :=
    Nat.mod_eq_of_lt hid.mapError.uint.2
  refine ⟨_, rfl, ReadsTo.ensure_cons rfl ?_⟩
  simp only [hidVal]
  exact (hidRead.mapError _).cons_readsTo <|
    ((reads_flag _ _).mapError _).cons_readsTo <|
    ((reads_flag _ _).mapError _).cons_readsTo <|
    (hlayers.mapError.reads_uint.mapError _).cons_readsTo <|
    (hsubLayers.mapError.reads_uint.mapError _).cons_readsTo <|
    ReadsTo.ensure_bind hsubLayersLe.ensure <|
    ((reads_flag _ _).mapError _).cons_readsTo <|
    (hreserved.mapError.reads_uint.mapError _).cons_readsTo <|
    ReadsTo.ensure_bind hreservedEq.ensure <|
    ((ProfileTierLevel.reads hptl.mapError).mapError _).cons_readsTo <|
    ((SubLayerOrdering.reads hordering.mapError).mapError _).cons_readsTo <|
    (hmaxLayerId.mapError.reads_uint.mapError _).cons_readsTo <|
    (hnumSets.mapError.reads_ue.mapError _).cons_readsTo <|
    ReadsTo.ensure_bind hnumSetsLe.ensure <|
    (Reads.times rfl fun s hs =>
      Reads.times (hsetsRead s hs).times.1 fun b _ => (reads_flag _ b).mapError _).cons_readsTo <|
    ((reads_flag _ _).mapError _).cons_readsTo <|
    (Reads.optional fun a ha => VpsTiming.reads (htimingRead a ha)).cons_readsTo <|
    ((reads_flag _ false).mapError _).cons_readsTo <|
    ReadsTo.bind_pure_empty _ (readsTo_finish.mapError _)

end TiledVideo
