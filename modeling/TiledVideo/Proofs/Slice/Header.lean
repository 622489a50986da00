import TiledVideo.Proofs.Slice.Fields

/-!
# Reading back slice headers

A slice header is written for a picture of another size and with another grid of tiles, and read
back with the parameter sets that were written for them.

Results:

* `SliceHeader.legible_of_produces`: what a reader makes sure of in a header.
* `SliceHeader.reads`: a header is read back up to its place, its entry points and its reserved
  flags.
-/

namespace TiledVideo

open Reader

theorem Bits.widthFor_le {n m : Nat} (h : n ≤ 2 ^ m) : widthFor n ≤ m := by
  unfold widthFor
  split
  · omega
  · next hn => exact (Nat.log2_lt (by omega)).2 (by omega)

/-! ## Entry points -/

namespace EntryPoints

/-- Entry points have a code: their number and their offsets do, and the length of the offsets is
given exactly if there are any. -/
def Codable (e : EntryPoints) : Prop :=
  e.offsetsMinus1.length < 2 ^ 32 - 1 ∧
    (e.offsetsMinus1 = [] → e.offsetLengthMinus1 = 0) ∧ e.offsetLengthMinus1 ≤ 31 ∧
    ∀ offset ∈ e.offsetsMinus1, offset < 2 ^ (e.offsetLengthMinus1 + 1)

theorem codable_none : none.Codable :=
  ⟨by decide, fun _ => rfl, by decide, nofun⟩

theorem codable_of_produces {sps : Sps} {e : EntryPoints} (h : (parse sps).Produces e) :
    e.Codable := by
  obtain ⟨count, hcount, h⟩ := h.bind
  obtain ⟨length, hlength, h⟩ := h.bind
  obtain ⟨offsets, hoffsets, h⟩ := h.bind
  obtain rfl := h.pure
  obtain ⟨rfl, hmem⟩ := hoffsets.times
  obtain ⟨hlengthRead, hlengthAbsent⟩ := hlength.optionalD
  refine ⟨(SliceError.bounds_of_produces hcount).1, fun hnil => ?_, ?_, fun o ho => (hmem o ho).mapError.uint.2⟩
  · obtain rfl : offsets = [] := hnil
    exact hlengthAbsent rfl
  · cases hzero : (offsets.length != 0) with
    | true => exact (SliceError.bounds_of_produces (hlengthRead hzero)).2
    | false => rw [hlengthAbsent hzero]; exact Nat.zero_le _

theorem reads {sps : Sps} {e : EntryPoints} (h : e.Codable)
    (hcount : e.offsetsMinus1.length ≤ sps.sizeInCtbs) : (parse sps).Reads e.encode e := by
  obtain ⟨hlt, hempty, hlength, hoffsets⟩ := h
  have hpresent : (e.offsetsMinus1.length != 0) = !e.offsetsMinus1.isEmpty := by
    cases e.offsetsMinus1 <;> rfl
  refine (SliceError.reads_ueUpTo _ hlt hcount).cons ?_
  rw [hpresent]
  refine (Reads.optionalD (fun _ => SliceError.reads_ueUpTo _ (by omega) hlength)
      fun habsent => ?_).cons <|
    (Reads.times rfl fun o ho =>
      (reads_uint _ (by omega) (hoffsets o ho)).mapError _).cons <|
    reads_nil _
  exact hempty (by simpa using habsent)

end EntryPoints

/-! ## Place -/

namespace SliceHeader

namespace Target

/-- The place is in the picture, which has a size that pictures can have. -/
structure InPicture (t : Target) : Prop where
  x_lt : t.x < t.width
  y_lt : t.y < t.height
  width_le : t.width ≤ PictureFormat.maxDimension
  height_le : t.height ≤ PictureFormat.maxDimension

variable {t : Target} (log2Ctb : Nat)

theorem InPicture.address_lt (h : t.InPicture) : t.address log2Ctb < t.sizeInCtbs log2Ctb := by
  have hx := div_lt_ctbsFor h.x_lt log2Ctb
  have hy := div_lt_ctbsFor h.y_lt log2Ctb
  calc t.address log2Ctb
      < (t.y / 2 ^ log2Ctb + 1) * ctbsFor t.width log2Ctb := by
        rw [address, Nat.add_mul, Nat.one_mul]
        omega
    _ ≤ ctbsFor t.height log2Ctb * ctbsFor t.width log2Ctb := Nat.mul_le_mul_right _ hy
    _ = t.sizeInCtbs log2Ctb := Nat.mul_comm _ _

theorem InPicture.widthFor_le (h : t.InPicture) : Bits.widthFor (t.sizeInCtbs log2Ctb) ≤ 32 := by
  have hw := Nat.le_trans (ctbsFor_le t.width log2Ctb) h.width_le
  have hh := Nat.le_trans (ctbsFor_le t.height log2Ctb) h.height_le
  have hmax : PictureFormat.maxDimension * PictureFormat.maxDimension ≤ 2 ^ 32 := by decide
  exact Bits.widthFor_le (Nat.le_trans (Nat.mul_le_mul hw hh) hmax)

theorem address_of_isFirst (h : t.isFirst = true) : t.address log2Ctb = 0 := by
  obtain ⟨hx, hy⟩ : t.x = 0 ∧ t.y = 0 := by simpa [isFirst] using h
  simp [address, hx, hy]

theorem reads_address {sps : Sps} (h : t.InPicture) :
    (parseAddress (sps.resized t.width t.height).asWritten).Reads (t.encodeAddress sps.log2Ctb)
      (t.address sps.log2Ctb) := by
  have hlt := h.address_lt sps.log2Ctb
  have hin : (decide (t.x < t.width) && decide (t.y < t.height)) = true := by
    simp [h.x_lt, h.y_lt]
  exact Reads.ensure_cons hin <|
    ((reads_uint _ (h.widthFor_le _) (Bits.lt_two_pow_widthFor hlt)).mapError _).cons <|
    Reads.ensure_bind (decide_eq_true hlt) <|
    reads_nil _

end Target

theorem address_lt {sps : Sps} {address : Nat} (h : (parseAddress sps).Produces address) :
    address < sps.sizeInCtbs := by
  obtain ⟨address, -, h⟩ := h.bind
  obtain ⟨_, hlt, h⟩ := h.bind
  obtain rfl := h.pure
  exact of_decide_eq_true hlt.ensure

/-! ## Extension data and alignment -/

theorem reads_extension {data : List Nat} (h : parseExtension.Produces data) :
    parseExtension.Reads (encodeExtension data) data := by
  obtain ⟨length, hlength, h⟩ := h.bind
  obtain ⟨rfl, hmem⟩ := Produces.times h
  exact hlength.reads_ueUpTo.cons <|
    (Reads.times rfl fun a ha => (hmem a ha).mapError.reads_uint.mapError _).concat_single

theorem skip_replicate {n : Nat} {element : String} {rest : BitString} {pos : Nat} :
    skip n element ⟨List.replicate n false ++ rest, pos⟩ = .ok () ⟨rest, pos + n⟩ :=
  step_map_of_ok (bits_append List.length_replicate)

theorem readsTo_alignment (rest : BitString) :
    parseAlignment.ReadsTo (.aligned rest) .empty () := by
  refine ⟨[], rfl, fun pos => ?_⟩
  have hskip : (8 - (pos + 1) % 8) % 8 = 7 - pos % 8 := by omega
  have hstep : skipToByte "alignment_bit_equal_to_zero"
      ⟨List.replicate (7 - pos % 8) false ++ rest, pos + 1⟩ = .ok () ⟨rest, pos + (8 - pos % 8)⟩ := by
    show skip ((8 - (pos + 1) % 8) % 8) _ _ = _
    rw [hskip, skip_replicate]
    congr 2
    omega
  show mapError SliceError.read (skipToByte "alignment_bit_equal_to_zero")
    ⟨List.replicate (7 - pos % 8) false ++ rest, pos + 1⟩ = _
  rw [mapError, hstep]
  rfl

/-! ## Headers -/

/-- What a reader makes sure of in a header, apart from its place: there is only what the unit type
and the parameter sets announce, and the fields are those of some slice of the same kind. -/
structure Legible (unitType : UnitType) (sps : Sps) (pps : Pps) (h : SliceHeader) : Prop where
  noOutput : unitType.isIrap = false → h.noOutputOfPriorPics = false
  fields : (SliceFields.parse unitType sps pps).Produces h.fields
  entryPoints : ∀ e, h.entryPoints = some e → e.Codable
  extension : pps.sliceHeaderExtensionPresent = h.extension.isSome
  extensionData : ∀ data, h.extension = some data → parseExtension.Produces data

variable {ctx : Context} {unitType : UnitType} {previous : Option SliceHeader} {h : SliceHeader}
  {sps : Sps} {pps : Pps}

/-- A header names the parameter sets that it was read with. It is legible if its fields are, which
a dependent segment takes over from the independent one before it. -/
theorem legible_of_produces (hp : (parse ctx unitType previous).Produces h) :
    ∃ pps sps, ctx.ppsById h.ppsId = some pps ∧ ctx.spsOf pps = some sps ∧
      h.address < max 1 sps.sizeInCtbs ∧
      (h.dependent = true → ∃ p, previous = some p ∧ h.fields = p.fields) ∧
      (h.dependent = false → (SliceFields.parse unitType sps pps).Produces h.fields) ∧
      ((SliceFields.parse unitType sps pps).Produces h.fields → h.Legible unitType sps pps) := by
  obtain ⟨first, -, hp⟩ := hp.bind
  obtain ⟨noOutput, hnoOutput, hp⟩ := hp.bind
  obtain ⟨_, -, hp⟩ := hp.bind
  obtain ⟨ppsId, -, hp⟩ := hp.bind
  obtain ⟨pps, hpps, hp⟩ := hp.bind
  obtain ⟨sps, hsps, hp⟩ := hp.bind
  obtain ⟨dependent, -, hp⟩ := hp.bind
  obtain ⟨address, haddress, hp⟩ := hp.bind
  have hlt : address < max 1 sps.sizeInCtbs := by
    obtain ⟨hread, habsent⟩ := haddress.optionalD
    cases first with
    | true =>
      rw [habsent rfl]
      omega
    | false =>
      have := address_lt (hread rfl)
      omega
  cases dependent with
  | true =>
    obtain ⟨fields, hfields, hp⟩ := hp.bind
    obtain ⟨entries, hentries, hp⟩ := hp.bind
    obtain ⟨extension, hextension, hp⟩ := hp.bind
    obtain ⟨_, -, hp⟩ := hp.bind
    obtain rfl := hp.pure
    obtain ⟨p, hprevious, rfl⟩ := Option.map_eq_some_iff.1 hfields.require
    refine ⟨pps, sps, hpps.require, hsps.require, hlt, fun _ => ⟨p, hprevious, rfl⟩, nofun,
      fun hfields => ⟨hnoOutput.optionalD.2, hfields, fun e he => ?_, hextension.optional.1,
        hextension.optional.2⟩⟩
    exact EntryPoints.codable_of_produces (hentries.optional.2 e he)
  | false =>
    obtain ⟨fields, hfields, hp⟩ := hp.bind
    obtain ⟨entries, hentries, hp⟩ := hp.bind
    obtain ⟨extension, hextension, hp⟩ := hp.bind
    obtain ⟨_, -, hp⟩ := hp.bind
    obtain rfl := hp.pure
    refine ⟨pps, sps, hpps.require, hsps.require, hlt, nofun, fun _ => hfields,
      fun hfields => ⟨hnoOutput.optionalD.2, hfields, fun e he => ?_, hextension.optional.1,
        hextension.optional.2⟩⟩
    exact EntryPoints.codable_of_produces (hentries.optional.2 e he)

/-- The header as it is read back when it is written at a place. -/
def asWritten (h : SliceHeader) (sps : Sps) (pps : Pps) (t : Target) : SliceHeader :=
  { h with
    first := t.isFirst
    dependent := false
    address := t.address sps.log2Ctb
    fields := { h.fields with reservedFlags := 0 }
    entryPoints :=
      if (t.tiles.apply pps.partition).hasEntryPoints then some (h.entryPoints.getD .none)
      else none }

/-- A legible header is read back with the parameter sets that are written for the same picture. -/
theorem reads (hl : h.Legible unitType sps pps) {t : Target} (ht : t.InPicture)
    (hindependent : t.independent = true) (houtput : pps.outputFlagPresent = false)
    (hplanes : sps.format.separatePlanes = false) (hlong : sps.longTerm = none)
    (hpps : ctx.ppsById h.ppsId = some (pps.asWritten t.tiles))
    (hsps : ctx.spsOf (pps.asWritten t.tiles) = some (sps.resized t.width t.height).asWritten)
    (hcount : (t.tiles.apply pps.partition).hasEntryPoints = true →
      (h.entryPoints.getD .none).offsetsMinus1.length ≤ (sps.resized t.width t.height).sizeInCtbs) :
    (parse ctx unitType previous).ReadsFront (h.encode unitType sps pps t)
      (h.asWritten sps pps t) := by
  have hid : (PpsId.ofNat h.ppsId.val).mapError SliceError.badPpsId = .ok h.ppsId :=
    mapError_eq_ok_iff.2 (idBelow_eq_ok_iff.2 rfl)
  have hidLt : h.ppsId.val < 2 ^ 32 - 1 := by
    have := h.ppsId.isLt
    omega
  have hdependent : (optionalD (!t.isFirst && (pps.asWritten t.tiles).dependentSlices)
      (flag "dependent_slice_segment_flag" : Reader SliceError Bool) false).Reads .empty false := by
    rw [show (pps.asWritten t.tiles).dependentSlices = false from rfl, Bool.and_false]
    exact reads_pure false
  have hfields := SliceFields.reads hl.fields houtput hplanes hlong
  rw [← SliceFields.parse_asWritten unitType sps pps t.width t.height t.tiles] at hfields
  have hentry : (Reader.optional (pps.asWritten t.tiles).partition.hasEntryPoints
      (EntryPoints.parse (sps.resized t.width t.height).asWritten)).Reads
      (.onlyIf (t.tiles.apply pps.partition).hasEntryPoints (h.entryPoints.getD .none).encode)
      (h.asWritten sps pps t).entryPoints := by
    have hcodable : (h.entryPoints.getD .none).Codable := by
      cases he : h.entryPoints with
      | none => exact EntryPoints.codable_none
      | some e => exact hl.entryPoints e he
    show (Reader.optional (t.tiles.apply pps.partition).hasEntryPoints _).Reads _
      (if (t.tiles.apply pps.partition).hasEntryPoints then _ else _)
    cases hhas : (t.tiles.apply pps.partition).hasEntryPoints with
    | true => exact (EntryPoints.reads hcodable (hcount hhas)).map some
    | false => exact reads_pure none
  have hextension : (Reader.optional (pps.asWritten t.tiles).sliceHeaderExtensionPresent
      parseExtension).Reads (.onlyIf pps.sliceHeaderExtensionPresent
        (encodeExtension (h.extension.getD []))) h.extension :=
    Reads.onlyIf hl.extension fun data hdata => by
      rw [hdata]
      exact reads_extension (hl.extensionData data hdata)
  refine ⟨_, rfl, fun rest => ReadsTo.ensure_cons (by rw [houtput]; rfl) <|
    ReadsTo.ensure_cons (by rw [hplanes]; rfl) <| ReadsTo.ensure_cons (by rw [hlong]; rfl) ?_⟩
  rw [hindependent]
  exact ((reads_flag _ _).mapError _).cons_readsTo <|
    (Reads.optionalD (fun _ => (reads_flag _ _).mapError _) hl.noOutput).cons_readsTo <|
    ((reads_ue _ hidLt).mapError _).cons_readsTo <|
    ReadsTo.ofExcept_bind hid <|
    ReadsTo.require_bind hpps <|
    ReadsTo.require_bind hsps <|
    hdependent.empty_bind_readsTo <|
    (Reads.optionalD (fun _ => Target.reads_address ht) fun hfirst =>
      Target.address_of_isFirst _ (by simpa using hfirst)).cons_readsTo <|
    hfields.cons_readsTo <|
    hentry.cons_readsTo <|
    hextension.cons_readsTo <|
    (readsTo_alignment rest).bind_pure_empty fun _ => h.asWritten sps pps t

end SliceHeader

end TiledVideo
