import TiledVideo.Proofs.Engine.SliceData

/-!
# Parameter sets that slices are written with

A slice is read with the parameter sets in force at its place in the access unit, but written with
those in force at the end of the access unit. These are the same exactly if no parameter set behind
the slice takes the place of one that the slice was read with and differs from it.

Results:

* `AccessUnit.readsWith_of_decode`: each slice of an access unit was read with the sets in force at
  its place.
* `writtenWith_eq_iff`: when a splitter and a placer write a slice with these sets.
* `redefined_behind_slice`: a picture parameter set behind the slice that refers to its number.
-/

namespace TiledVideo

/-! ## Reading a slice -/

namespace DecoderState

variable {s : DecoderState}

/-- A decoder reads a slice with some parameter sets, which are those in force. -/
structure ReadsWith (s : DecoderState) (segment : SliceUnit) (sps : Sps) (pps : Pps) : Prop where
  decode : SliceUnit.decode s.ctx s.lastIndependent segment.nalHeader segment.payload = .ok segment
  sets : s.ctx.paramSets segment.header.ppsId = some (sps, pps)

theorem readsWith_of_decodeNal {nal : Bytes} {segment : SliceUnit}
    (h : s.decodeNal nal = .ok (.slice segment)) : ∃ sps pps, s.ReadsWith segment sps pps := by
  obtain ⟨-, hproduces⟩ := yields_of_decodeNal h
  obtain ⟨pps, sps, hpps, hsps, -⟩ := SliceHeader.legible_of_produces hproduces
  obtain ⟨-, -, hdecode⟩ := decodeNal_eq_slice_iff.1 h
  exact ⟨sps, pps, hdecode, Context.paramSets_eq_some_iff.2 ⟨hpps, hsps⟩⟩

/-- Each unit is read in the state that the units before it lead to. -/
theorem decodeNal_of_decodeNals {nals : List Bytes} {last : DecoderState}
    {before after : List DecodedUnit} {unit : DecodedUnit}
    (h : s.decodeNals nals = .ok (before ++ unit :: after, last)) :
    ∃ nal ∈ nals, (before.foldl DecoderState.after s).decodeNal nal = .ok unit := by
  induction before generalizing s nals with
  | nil =>
    cases nals with
    | nil => cases h
    | cons nal nals =>
      obtain ⟨first, hfirst, h⟩ := bind_eq_ok_iff.1 h
      obtain ⟨⟨later, last⟩, -, h⟩ := bind_eq_ok_iff.1 h
      cases h
      exact ⟨nal, List.mem_cons_self, hfirst⟩
  | cons earlier before ih =>
    cases nals with
    | nil => cases h
    | cons nal nals =>
      obtain ⟨first, hfirst, h⟩ := bind_eq_ok_iff.1 h
      obtain ⟨⟨later, last⟩, hlater, h⟩ := bind_eq_ok_iff.1 h
      cases h
      obtain ⟨nal', hmem, hnal'⟩ := ih hlater
      exact ⟨nal', List.mem_cons_of_mem _ hmem, hnal'⟩

end DecoderState

/-- Each slice of an access unit was read with the sets in force at its place. Those in force at the
end are the same exactly if no unit behind the slice brings other ones. -/
theorem AccessUnit.readsWith_of_decode {c ctx : Context} {bytes : Bytes} {au : AccessUnit}
    (hdecode : decode c bytes = .ok (au, ctx)) {before after : List DecodedUnit}
    {segment : SliceUnit} (hunits : au.units = before ++ .slice segment :: after) :
    ∃ sps pps, (before.foldl DecoderState.after (.start c)).ReadsWith segment sps pps ∧
      ∀ sps' pps', ctx.paramSets segment.header.ppsId = some (sps', pps') →
        ((sps' = sps ∧ pps' = pps) ↔ KeepsSets after segment.header.ppsId sps pps) := by
  obtain ⟨-, hctx⟩ := yieldsAll_of_decode hdecode
  obtain ⟨found, -, hdecode⟩ := bind_eq_ok_iff.1 hdecode
  obtain ⟨⟨units, last⟩, hnals, hdecode⟩ := bind_eq_ok_iff.1 hdecode
  cases hdecode
  obtain rfl : units = before ++ .slice segment :: after := hunits
  obtain ⟨nal, -, hnal⟩ := DecoderState.decodeNal_of_decodeNals hnals
  obtain ⟨sps, pps, hreads⟩ := DecoderState.readsWith_of_decodeNal hnal
  refine ⟨sps, pps, hreads, fun sps' pps' hsets => ?_⟩
  have hbefore : ((before.foldl DecoderState.after (.start c)).after (.slice segment)).ctx.paramSets
      segment.header.ppsId = some (sps, pps) := by
    rw [DecoderState.after_slice_ctx]
    exact hreads.sets
  refine paramSets_after_eq_iff hbefore ?_
  rw [hctx, List.foldl_append, List.foldl_cons] at hsets
  exact hsets

/-! ## Splitters -/

namespace Splitter

/-- The state after a number of packets have been received. -/
def received (s : Splitter) : Nat → Splitter
  | 0 => s
  | n + 1 => s.receive.2.received n

variable {s : Splitter} {input packet : Packet}

theorem Reachable.received (h : s.Reachable) (n : Nat) : (s.received n).Reachable := by
  induction n generalizing s with
  | zero => exact h
  | succ n ih => exact ih h.receive

/-- An access unit that is taken is given out slice by slice. -/
theorem phase_send_of_ok {au : AccessUnit} {ctx : Context}
    (hdecode : AccessUnit.decode s.ctx input.data = .ok (au, ctx))
    (h : (s.send input).1 = .ok ()) :
    (s.send input).2.phase = .ofSlices input au.slices ∧ (s.send input).2.ctx = ctx := by
  have hsends := s.sends input
  generalize s.send input = result at h hsends ⊢
  cases hsends with
  | busy => cases h
  | unread idle unread => cases hdecode.symm.trans unread
  | refused => cases h
  | taken idle decode =>
    cases hdecode.symm.trans decode
    exact ⟨rfl, rfl⟩

theorem phase_send_of_error (hidle : s.phase = .idle) {e : EngineError}
    (h : (s.send input).1 = .error e) : (s.send input).2.phase = .idle := by
  have hsends := s.sends input
  generalize s.send input = result at h hsends ⊢
  cases hsends with
  | busy busy => exact absurd hidle busy
  | unread => cases h
  | refused => rfl
  | taken => cases h

/-- A packet that is received takes the first of the slices that are left. -/
theorem phase_receive_of_ok {slices : List SliceUnit} (h : s.phase = .ofSlices input slices)
    {result : Option Packet} (hok : s.receive.1 = .ok result) :
    s.receive.2.phase = .ofSlices input (slices.drop 1) ∧ s.receive.2.ctx = s.ctx := by
  cases slices with
  | nil =>
    unfold receive
    rw [h]
    exact ⟨h, rfl⟩
  | cons next later =>
    unfold receive at hok ⊢
    rw [h] at hok ⊢
    simp only [Phase.ofSlices] at hok ⊢
    cases hwrite : TileStreams.writeSlice .ample s.ctx next s.tiles with
    | error e tiles =>
      rw [hwrite] at hok
      cases hok
    | ok written tiles => exact ⟨rfl, rfl⟩

theorem phase_receive_of_error {e : EngineError} (h : s.receive.1 = .error e) :
    s.receive.2.phase = .idle := by
  have hreceives := s.receives
  generalize s.receive = result at h hreceives ⊢
  cases hreceives with
  | nothing => cases h
  | back => cases h
  | failed => rfl
  | given => cases h

/-- A packet that is received is that of the first slice left. If it fails, no slices are left. -/
theorem phase_receive {slices : List SliceUnit} (h : s.phase = .ofSlices input slices) :
    s.receive.2.phase = .idle ∨
      s.receive.2.phase = .ofSlices input (slices.drop 1) ∧ s.receive.2.ctx = s.ctx := by
  cases hreceive : s.receive.1 with
  | error e => exact .inl (phase_receive_of_error hreceive)
  | ok result => exact .inr (phase_receive_of_ok h hreceive)

/-- As long as no packet fails, the slices are given out one by one with the same sets in force. -/
theorem phase_received {slices : List SliceUnit} (h : s.phase = .ofSlices input slices) (n : Nat) :
    (s.received n).phase = .idle ∨
      (s.received n).phase = .ofSlices input (slices.drop n) ∧ (s.received n).ctx = s.ctx := by
  induction n generalizing s slices with
  | zero => exact .inr ⟨h, rfl⟩
  | succ n ih =>
    rcases phase_receive h with hidle | ⟨hphase, hctx⟩
    · -- with no slices left, none is received any more
      refine .inl ?_
      have hphase : s.receive.2.phase = .ofSlices input [] := hidle
      rcases ih hphase with h | ⟨h, -⟩
      · exact h
      · rwa [List.drop_nil] at h
    · rcases ih hphase with h | ⟨h, hctx'⟩
      · exact .inl h
      · refine .inr ⟨?_, hctx'.trans hctx⟩
        rwa [List.drop_drop, Nat.add_comm] at h

/-- Once the slices before it have been received, a slice of an access unit is the first one left. -/
theorem phase_of_received (hidle : s.phase = .idle) {au : AccessUnit} {ctx : Context}
    (hdecode : AccessUnit.decode s.ctx input.data = .ok (au, ctx)) {before after : List DecodedUnit}
    {segment : SliceUnit} (hunits : au.units = before ++ .slice segment :: after)
    (hreceive : ((s.send input).2.received (before.filterMap DecodedUnit.slice?).length).receive.1 =
      .ok (some packet)) :
    ((s.send input).2.received (before.filterMap DecodedUnit.slice?).length).phase =
        .distributing input segment (after.filterMap DecodedUnit.slice?) ∧
      ((s.send input).2.received (before.filterMap DecodedUnit.slice?).length).ctx = ctx := by
  have hslices : au.slices = before.filterMap DecodedUnit.slice? ++
      segment :: after.filterMap DecodedUnit.slice? := by
    rw [AccessUnit.slices, hunits, List.filterMap_append]
    rfl
  have hsent : (s.send input).2.phase = .idle ∨
      (s.send input).2.phase = .ofSlices input au.slices ∧ (s.send input).2.ctx = ctx := by
    cases hsend : (s.send input).1 with
    | error e => exact .inl (phase_send_of_error hidle hsend)
    | ok _ => exact .inr (phase_send_of_ok hdecode hsend)
  have hnone : ∀ {s' : Splitter}, s'.phase = .idle → s'.receive.1 ≠ .ok (some packet) := by
    intro s' hs' hsome
    simp only [receive, hs'] at hsome
    cases hsome
  rcases hsent with hsent | ⟨hsent, hctx⟩
  · have hnothing : (s.send input).2.phase = .ofSlices input [] := hsent
    rcases phase_received hnothing (before.filterMap DecodedUnit.slice?).length with h | ⟨h, -⟩
    · exact absurd hreceive (hnone h)
    · rw [List.drop_nil] at h
      exact absurd hreceive (hnone h)
  · rcases phase_received hsent (before.filterMap DecodedUnit.slice?).length with h | ⟨h, hctx'⟩
    · exact absurd hreceive (hnone h)
    · rw [hslices, List.drop_left] at h
      exact ⟨h, hctx'.trans hctx⟩

end Splitter

/-! ## Writing a slice -/

/-- A packet ends in a slice that was written with some parameter sets, placed at `t`. -/
def EndsInWritten (packet : Bytes) (segment : SliceUnit) (sps : Sps) (pps : Pps)
    (t : SliceHeader.Target) : Prop :=
  ∃ own, BitStream.empty.slice segment sps pps t = .ok own ∧ own.out.bytes <:+ packet

instance (packet : Bytes) (segment : SliceUnit) (sps : Sps) (pps : Pps) (t : SliceHeader.Target) :
    Decidable (EndsInWritten packet segment sps pps t) :=
  match h : BitStream.empty.slice segment sps pps t with
  | .ok own => decidable_of_iff (own.out.bytes <:+ packet)
      ⟨fun hends => ⟨own, h, hends⟩, fun ⟨_, hown, hends⟩ => Except.ok.inj (h.symm.trans hown) ▸ hends⟩
  | .error _ => .isFalse fun ⟨_, hown, _⟩ => nomatch h.symm.trans hown

/-- Each slice of an access unit that a splitter or a placer gives out is read with the parameter sets
in force at its place, and written with those in force behind the access unit. These are the same
exactly if the last sets behind the slice with their numbers, if there are any, are the same. -/
theorem writtenWith_eq_iff {s : Splitter} {p : Placer} (hs : s.Reachable) (hp : p.Reachable) :
    (∀ (input packet : Packet) (au : AccessUnit) (ctx : Context) (before after : List DecodedUnit)
      (segment : SliceUnit), s.phase = .idle →
      AccessUnit.decode s.ctx input.data = .ok (au, ctx) →
      au.units = before ++ .slice segment :: after →
      ((s.send input).2.received (before.filterMap DecodedUnit.slice?).length).receive.1 =
        .ok (some packet) →
      ∃ sps pps sps' pps' width height,
        (before.foldl DecoderState.after (.start s.ctx)).ReadsWith segment sps pps ∧
        ctx.paramSets segment.header.ppsId = some (sps', pps') ∧
        EndsInWritten packet.data segment sps' pps'
          { width, height, tiles := .remove, x := 0, y := 0 } ∧
        ((sps' = sps ∧ pps' = pps) ↔ KeepsSets after segment.header.ppsId sps pps)) ∧
    ∀ (input packet : Packet) (au : AccessUnit) (ctx : Context) (before after : List DecodedUnit)
      (segment : SliceUnit), AccessUnit.decode p.ctx input.data = .ok (au, ctx) →
      au.units = before ++ .slice segment :: after → (∀ unit ∈ before, unit.slice? = none) →
      (p.filter input).1 = .ok (some packet) →
      ∃ sps pps sps' pps',
        (before.foldl DecoderState.after (.start p.ctx)).ReadsWith segment sps pps ∧
        ctx.paramSets segment.header.ppsId = some (sps', pps') ∧
        EndsInWritten packet.data segment sps' pps' p.placement.target ∧
        ((sps' = sps ∧ pps' = pps) ↔ KeepsSets after segment.header.ppsId sps pps) := by
  refine ⟨?_, ?_⟩
  · intro input packet au ctx before after segment hidle hdecode hunits hreceive
    obtain ⟨sps, pps, hreads, hsame⟩ := AccessUnit.readsWith_of_decode hdecode hunits
    obtain ⟨hphase, hctx⟩ := Splitter.phase_of_received hidle hdecode hunits hreceive
    obtain ⟨d, own, hd, -, hown, hdata, -⟩ :=
      ((hs.send input).received _).receive_slice hphase hreceive
    rw [hctx] at hd
    obtain ⟨hpps, hsps, _, width, height, -, -, -, htarget⟩ :=
      TileStreams.destination_eq_ok_iff.1 hd
    have hsets := Context.paramSets_eq_some_iff.2 ⟨hpps, hsps⟩
    rw [htarget] at hown
    refine ⟨sps, pps, d.sps, d.pps, width, height, hreads, hsets, ⟨own, hown, ?_⟩,
      hsame _ _ hsets⟩
    rw [hdata]
    exact List.suffix_append _ _
  · intro input packet au ctx before after segment hdecode hunits hbefore hfilter
    obtain ⟨sps, pps, hreads, hsame⟩ := AccessUnit.readsWith_of_decode hdecode hunits
    have hfirst : au.slices.head? = some segment := by
      rw [AccessUnit.slices, hunits, List.filterMap_append, List.filterMap_eq_nil_iff.2 hbefore]
      rfl
    obtain ⟨stream, sps', pps', own, -, hsets, hown, hdata, -⟩ :=
      hp.filter_slice hdecode hfirst hfilter
    refine ⟨sps, pps, sps', pps', hreads, hsets, ⟨own, hown, ?_⟩, hsame _ _ hsets⟩
    rw [hdata]
    exact List.suffix_append _ _

namespace Sample

/-- The units in front of the first slice of the picture. -/
def front : List DecodedUnit := accessUnit.units.take 3

/-- The units behind it. -/
def rest : List DecodedUnit := accessUnit.units.drop 4

end Sample

open Sample in
theorem writtenWith_eq_iff_sample :
    (Splitter.empty.Reachable ∧ Splitter.empty.phase = .idle ∧
      AccessUnit.decode Splitter.empty.ctx picture = .ok (accessUnit, Sample.ctx) ∧
      accessUnit.units = front ++ .slice firstSlice :: rest ∧
      ((Splitter.empty.send { data := picture }).2.received
        (front.filterMap DecodedUnit.slice?).length).receive.1 = .ok (some firstPacket) ∧
      ∃ sps pps sps' pps' width height,
        (front.foldl DecoderState.after (.start Splitter.empty.ctx)).ReadsWith firstSlice sps pps ∧
        Sample.ctx.paramSets firstSlice.header.ppsId = some (sps', pps') ∧
        EndsInWritten firstPacket.data firstSlice sps' pps'
          { width, height, tiles := .remove, x := 0, y := 0 } ∧
        ((sps' = sps ∧ pps' = pps) ↔ KeepsSets rest firstSlice.header.ppsId sps pps)) ∧
    (placer.Reachable ∧
      AccessUnit.decode placer.ctx picture = .ok (accessUnit, Sample.ctx) ∧
      (∀ unit ∈ front, unit.slice? = none) ∧
      (placer.filter { data := picture }).1 = .ok (some placedPacket) ∧
      ∃ sps pps sps' pps',
        (front.foldl DecoderState.after (.start placer.ctx)).ReadsWith firstSlice sps pps ∧
        Sample.ctx.paramSets firstSlice.header.ppsId = some (sps', pps') ∧
        EndsInWritten placedPacket.data firstSlice sps' pps' placer.placement.target ∧
        ((sps' = sps ∧ pps' = pps) ↔ KeepsSets rest firstSlice.header.ppsId sps pps)) := by
  have hdecode : AccessUnit.decode .empty picture = .ok (accessUnit, Sample.ctx) := by
    decide +kernel
  have hunits : accessUnit.units = front ++ .slice firstSlice :: rest := by decide +kernel
  have hreceive : ((Splitter.empty.send { data := picture }).2.received
      (front.filterMap DecodedUnit.slice?).length).receive.1 = .ok (some firstPacket) := by
    decide +kernel
  have hplacer : placer.Reachable :=
    .ofPlacement (p := Placer.samplePlacement) (by decide +kernel)
  have hfront : ∀ unit ∈ front, unit.slice? = none := by decide +kernel
  have hfilter : (placer.filter { data := picture }).1 = .ok (some placedPacket) := by
    decide +kernel
  have hboth := writtenWith_eq_iff .empty hplacer
  refine ⟨⟨.empty, rfl, hdecode, hunits, hreceive, ?_⟩, hplacer, hdecode, hfront, hfilter, ?_⟩
  · exact hboth.1 { data := picture } firstPacket accessUnit Sample.ctx front rest firstSlice rfl
      hdecode hunits hreceive
  · exact hboth.2 { data := picture } placedPacket accessUnit Sample.ctx front rest firstSlice
      hdecode hunits hfront hfilter

/-! ## A picture parameter set behind a slice -/

namespace Sample

/-- The picture with a picture parameter set of the same number in place of its second slice. That one
has two reserved bits in each slice header. -/
def redefinedPicture : Bytes :=
  picture.take 90 ++ [0, 0, 0, 1, 68, 1, 196, 113, 132, 188, 72]

/-- Its access unit, and the parameter sets in force behind it. -/
def redefined : AccessUnit × Context :=
  match AccessUnit.decode .empty redefinedPicture with
  | .ok (au, ctx) => (au, ctx)
  | .error _ => (⟨[]⟩, .empty)

/-- The packet of its slice. -/
def redefinedPacket : Packet :=
  match (Splitter.empty.send { data := redefinedPicture }).2.receive.1 with
  | .ok (some packet) => packet
  | _ => default

/-- The picture parameter set that is in force behind the slice. -/
def redefinedPps : Pps := (redefined.2.ppsById 0).getD default

end Sample

open Sample in
/-- The slice was read with the picture parameter set in front of it. In its packet it is written with
the one behind it, and not with that in front. -/
theorem redefined_behind_slice :
    AccessUnit.decode .empty redefinedPicture = .ok (redefined.1, redefined.2) ∧
      redefined.1.units = front ++ [.slice firstSlice, .pps redefinedPps] ∧
      (front.foldl DecoderState.after (.start .empty)).ReadsWith firstSlice firstDestination.sps
        firstDestination.pps ∧
      (Splitter.empty.send { data := redefinedPicture }).2.receive.1 = .ok (some redefinedPacket) ∧
      EndsInWritten redefinedPacket.data firstSlice firstDestination.sps redefinedPps
        firstDestination.target ∧
      ¬ EndsInWritten redefinedPacket.data firstSlice firstDestination.sps firstDestination.pps
        firstDestination.target ∧
      redefinedPps ≠ firstDestination.pps := by
  refine ⟨by decide +kernel, by decide +kernel, ⟨by decide +kernel, by decide +kernel⟩,
    by decide +kernel, by decide +kernel, by decide +kernel, by decide +kernel⟩

end TiledVideo
