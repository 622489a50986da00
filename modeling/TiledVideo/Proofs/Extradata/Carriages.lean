import TiledVideo.Extradata.Basic
import TiledVideo.Proofs.Extradata.Records
import TiledVideo.Proofs.Nal.Sequences

/-!
# Extradata of either form

Parameter sets of the base layer are the same in a record and in a byte stream: both are read if one is,
and then the same sets are in force and the same picture parameter set is the first, also where sets of
one number follow each other. A record takes its sets by type, and a byte stream takes them as they come,
so they are given here in the order of their types.

Units of other layers are passed over in a byte stream. In a record they are read as if they were of the
base layer. So there a byte stream agrees with the record that leaves them out.

Results:

* `decodeNals_iff_foldlM`: units of one type, put in from a record and read from a byte stream.
* `decodeByteStream_eq_ok_iff`, `decodeConfig_eq_ok_iff`: what is read of either form.
* `carriages_agree`: parameter sets in a byte stream and in a record.
* `other_layers_in_record`: a set of another layer that is in force in one form only.
-/

namespace TiledVideo

open ByteStream DecoderConfig

/-- The unit is of the base layer. -/
def inBase (nal : Bytes) : Bool :=
  match NalHeader.ofBytes nal with
  | .ok header => header.layerId = 0
  | .error _ => false

/-- The unit has the given type, and both a byte stream and an array can hold it. -/
structure Carried (unitType : UnitType) (nal : Bytes) : Prop extends
  Solid nal, FitsArray unitType nal

/-! ## Units of one type -/

/-- A unit of the base layer with the given type is read exactly if `put` takes it, and does the same to
the sets in force. -/
structure Puts (unitType : UnitType) (put : Context → Bytes → Except ConfigError Context) : Prop where
  of_decode : ∀ (s : DecoderState) (nal : Bytes) (header : NalHeader) (unit : DecodedUnit),
    header.unitType = unitType → s.decodeBase header nal = .ok unit →
      ∃ c, put s.ctx nal = .ok c ∧ s.after unit = ⟨c, s.lastIndependent⟩
  of_put : ∀ (s : DecoderState) (nal : Bytes) (header : NalHeader) (c : Context),
    header.unitType = unitType → put s.ctx nal = .ok c →
      ∃ unit, s.decodeBase header nal = .ok unit ∧ s.after unit = ⟨c, s.lastIndependent⟩

variable {s : DecoderState} {nal : Bytes} {header : NalHeader}

theorem decodeNal_of_header (h : NalHeader.ofBytes nal = .ok header) :
    s.decodeNal nal =
      if header.layerId = 0 then s.decodeBase header nal else .ok (.other header) := by
  simp only [DecoderState.decodeNal, h]
  rfl

/-- The payload of the unit is read as a set. -/
def Carries {ε α : Type} (read : Bytes → Except ε α) (nal : Bytes) (set : α) : Prop :=
  ∃ payload, nalPayload nal = .ok payload ∧ read payload = .ok set

/-- Both forms read the payload of a unit and then the set in it, each with its own errors. -/
theorem payload_bind_eq_ok_iff {ε ε' α β : Type} {f : ReadError → ε'} {g : ε → ε'} {into : α → β}
    {read : Bytes → Except ε α} {b : β} :
    ((nalPayload nal).mapError f >>= fun payload => into <$> (read payload).mapError g) = .ok b ↔
      ∃ set, Carries read nal set ∧ into set = b := by
  simp only [bind_eq_ok_iff, map_eq_ok_iff, mapError_eq_ok_iff, Carries]
  constructor
  · rintro ⟨payload, hpayload, set, hset, rfl⟩
    exact ⟨set, ⟨payload, hpayload, hset⟩, rfl⟩
  · rintro ⟨set, ⟨payload, hpayload, hset⟩, rfl⟩
    exact ⟨payload, hpayload, set, hset, rfl⟩

theorem puts_of_carries {unitType : UnitType} {put : Context → Bytes → Except ConfigError Context}
    {ε α : Type} (read : Context → Bytes → Except ε α) (into : Context → α → Context)
    (unit : α → DecodedUnit)
    (hput : ∀ ctx nal c, put ctx nal = .ok c ↔ ∃ set, Carries (read ctx) nal set ∧ into ctx set = c)
    (hdecode : ∀ (s : DecoderState) (header : NalHeader) (nal : Bytes) (u : DecodedUnit),
      header.unitType = unitType → (s.decodeBase header nal = .ok u ↔
        ∃ set, Carries (read s.ctx) nal set ∧ unit set = u))
    (hafter : ∀ (s : DecoderState) (set : α),
      s.after (unit set) = ⟨into s.ctx set, s.lastIndependent⟩) : Puts unitType put := by
  constructor
  · intro s nal header u htype h
    obtain ⟨set, hset, rfl⟩ := (hdecode s header nal u htype).1 h
    exact ⟨_, (hput s.ctx nal _).2 ⟨set, hset, rfl⟩, hafter s set⟩
  · intro s nal header c htype h
    obtain ⟨set, hset, rfl⟩ := (hput s.ctx nal c).1 h
    exact ⟨_, (hdecode s header nal _ htype).2 ⟨set, hset, rfl⟩, hafter s set⟩

theorem puts_vps : Puts .vps putVps := by
  refine puts_of_carries (fun _ => Context.decodeVps) Context.putVps .vps (fun ctx nal c => ?_)
    (fun s header nal u htype => ?_) fun _ _ => rfl
  · simp only [putVps, bind_pure_comp]
    exact payload_bind_eq_ok_iff
  · rw [DecoderState.decodeBase, if_pos htype]
    exact payload_bind_eq_ok_iff

theorem puts_sps : Puts .sps putSps := by
  refine puts_of_carries (fun _ => Context.decodeSps) Context.putSps .sps (fun ctx nal c => ?_)
    (fun s header nal u htype => ?_) fun _ _ => rfl
  · simp only [putSps, bind_pure_comp]
    exact payload_bind_eq_ok_iff
  · rw [DecoderState.decodeBase, htype, if_neg (by decide), if_pos rfl]
    exact payload_bind_eq_ok_iff

theorem readPps_eq_ok_iff {ctx : Context} {pps : Pps} :
    readPps ctx nal = .ok pps ↔ Carries ctx.decodePps nal pps := by
  simp only [readPps, unitPayload, bind_eq_ok_iff, mapError_eq_ok_iff, Carries]

theorem decodeBase_pps (htype : header.unitType = .pps) {u : DecodedUnit} :
    s.decodeBase header nal = .ok u ↔ ∃ pps, Carries s.ctx.decodePps nal pps ∧ .pps pps = u := by
  rw [DecoderState.decodeBase, htype, if_neg (by decide), if_neg (by decide), if_pos rfl]
  exact payload_bind_eq_ok_iff

theorem puts_pps : Puts .pps putPps := by
  refine puts_of_carries Context.decodePps Context.putPps .pps (fun ctx nal c => ?_)
    (fun s header nal u htype => decodeBase_pps htype) fun _ _ => rfl
  simp only [putPps, map_eq_ok_iff, readPps_eq_ok_iff]

/-- Units of one type come into force one by one. Those of other layers are passed over in a byte stream.
-/
theorem decodeNals_iff_foldlM {unitType : UnitType}
    {put : Context → Bytes → Except ConfigError Context} (hput : Puts unitType put)
    {nals : List Bytes} (h : ∀ nal ∈ nals, FitsArray unitType nal) {e : DecoderState} :
    (∃ units, s.decodeNals nals = .ok (units, e)) ↔
      (nals.filter inBase).foldlM put s.ctx = .ok e.ctx ∧
        e.lastIndependent = s.lastIndependent := by
  induction nals generalizing s with
  | nil =>
    constructor
    · rintro ⟨_, ⟨⟩⟩
      exact ⟨rfl, rfl⟩
    · rintro ⟨hctx, hlast⟩
      obtain ⟨c, last⟩ := e
      cases hctx
      cases hlast
      exact ⟨[], rfl⟩
  | cons nal nals ih =>
    obtain ⟨⟨header, hheader, htype⟩, -⟩ := h nal List.mem_cons_self
    have hlater : ∀ nal ∈ nals, FitsArray unitType nal := fun n hn => h n (List.mem_cons_of_mem _ hn)
    simp only [DecoderState.decodeNals_cons_eq_ok_iff]
    rw [decodeNal_of_header hheader]
    by_cases hbase : header.layerId = 0
    · have hin : inBase nal = true := by simp [inBase, hheader, hbase]
      rw [List.filter_cons_of_pos hin, List.foldlM_cons, bind_eq_ok_iff, if_pos hbase]
      constructor
      · rintro ⟨_, unit, later, hunit, hrest, rfl⟩
        obtain ⟨c, hfirst, hafter⟩ := hput.of_decode s nal header unit htype hunit
        rw [hafter] at hrest
        obtain ⟨hrest, hlast⟩ := (ih hlater).1 ⟨later, hrest⟩
        exact ⟨⟨c, hfirst, hrest⟩, hlast⟩
      · rintro ⟨⟨c, hfirst, hrest⟩, hlast⟩
        obtain ⟨unit, hunit, hafter⟩ := hput.of_put s nal header c htype hfirst
        obtain ⟨later, hrest⟩ := (ih (s := ⟨c, s.lastIndependent⟩) hlater).2 ⟨hrest, hlast⟩
        exact ⟨_, unit, later, hunit, by rwa [hafter], rfl⟩
    · have hout : ¬ inBase nal = true := by simp [inBase, hheader, hbase]
      rw [List.filter_cons_of_neg hout, ← ih hlater, if_neg hbase]
      constructor
      · rintro ⟨_, _, later, ⟨⟩, hrest, rfl⟩
        exact ⟨later, hrest⟩
      · rintro ⟨later, hrest⟩
        exact ⟨_, _, later, rfl, hrest, rfl⟩

/-! ## The first picture parameter set -/

theorem pps?_eq_none_of_decodeBase (htype : header.unitType ≠ .pps) {unit : DecodedUnit}
    (h : s.decodeBase header nal = .ok unit) : unit.pps? = none := by
  cases DecoderState.decodeBase_eq_ok_iff.1 h with
  | pps hpps hpayload hset => exact absurd hpps htype
  | _ => rfl

theorem firstPps_eq_none {unitType : UnitType} (htype : unitType ≠ .pps) {nals : List Bytes}
    (h : ∀ nal ∈ nals, FitsArray unitType nal) {units : List DecodedUnit} {e : DecoderState}
    (hs : s.decodeNals nals = .ok (units, e)) : units.findSome? DecodedUnit.pps? = none := by
  induction nals generalizing s units with
  | nil =>
    cases hs
    rfl
  | cons nal nals ih =>
    obtain ⟨⟨header, hheader, rfl⟩, -⟩ := h nal List.mem_cons_self
    obtain ⟨unit, later, hunit, hrest, rfl⟩ := DecoderState.decodeNals_cons_eq_ok_iff.1 hs
    have hnone : unit.pps? = none := by
      rw [decodeNal_of_header hheader] at hunit
      split at hunit
      · exact pps?_eq_none_of_decodeBase htype hunit
      · cases hunit
        rfl
    rw [List.findSome?_cons, hnone]
    exact ih (fun n hn => h n (List.mem_cons_of_mem _ hn)) hrest

/-- The first picture parameter set in force is that of the first unit in the base layer. -/
theorem firstPps_eq {nals : List Bytes} (h : ∀ nal ∈ nals, FitsArray .pps nal)
    {units : List DecodedUnit} {e : DecoderState} (hs : s.decodeNals nals = .ok (units, e)) :
    units.findSome? DecodedUnit.pps? =
      (nals.filter inBase).head?.bind fun nal => (readPps s.ctx nal).toOption := by
  induction nals generalizing s units with
  | nil =>
    cases hs
    rfl
  | cons nal nals ih =>
    obtain ⟨⟨header, hheader, htype⟩, -⟩ := h nal List.mem_cons_self
    obtain ⟨unit, later, hunit, hrest, rfl⟩ := DecoderState.decodeNals_cons_eq_ok_iff.1 hs
    rw [decodeNal_of_header hheader] at hunit
    split at hunit
    · next hbase =>
      obtain ⟨pps, hpps, rfl⟩ := (decodeBase_pps htype).1 hunit
      rw [List.filter_cons_of_pos (by simp [inBase, hheader, hbase]), List.head?_cons,
        Option.bind_some, readPps_eq_ok_iff.2 hpps]
      rfl
    · next hbase =>
      cases hunit
      rw [List.filter_cons_of_neg (by simp [inBase, hheader, hbase]), List.findSome?_cons]
      exact ih (s := s) (fun n hn => h n (List.mem_cons_of_mem _ hn)) hrest

/-- A picture parameter set is read against the sequence parameter sets alone. -/
theorem readPps_congr {c c' : Context} (h : c'.spsSlots = c.spsSlots) (nal : Bytes) :
    readPps c' nal = readPps c nal := by
  have hsps : c'.spsById = c.spsById := by
    funext id
    simp only [Context.spsById, h]
  simp only [readPps, Context.decodePps, hsps]

theorem spsSlots_of_putPps {c c' : Context} {nals : List Bytes}
    (h : nals.foldlM putPps c = .ok c') : c'.spsSlots = c.spsSlots := by
  refine foldlM_keeps (P := fun d => d.spsSlots = c.spsSlots) (fun nal d d' hput hd => ?_) h rfl
  obtain ⟨pps, -, rfl⟩ := map_eq_ok_iff.1 hput
  exact hd

/-! ## Both forms -/

/-- The sets come into force one by one, those of the video first and those of pictures last. The first
picture parameter set is the one that it is with all of them in force. -/
def Held (vpss spss ppss : List Bytes) (sets : Extradata) : Prop :=
  ∃ c₁ c₂, vpss.foldlM putVps Context.empty = .ok c₁ ∧ spss.foldlM putSps c₁ = .ok c₂ ∧
    ppss.foldlM putPps c₂ = .ok sets.ctx ∧
    sets.firstPps = ppss.head?.bind fun nal => (readPps sets.ctx nal).toOption

section Forms

variable {vpss spss ppss : List Bytes} {sets : Extradata}

theorem decodeByteStream_eq_ok_iff_decode {bytes : Bytes} :
    Extradata.decodeByteStream bytes = .ok sets ↔
      ∃ au, AccessUnit.decode .empty bytes = .ok (au, sets.ctx) ∧ sets.firstPps = au.firstPps := by
  rw [Extradata.decodeByteStream, bind_eq_ok_iff]
  constructor
  · rintro ⟨⟨au, c⟩, hdecode, h⟩
    cases h
    exact ⟨au, hdecode, rfl⟩
  · rintro ⟨au, hdecode, h⟩
    obtain ⟨ctx, firstPps⟩ := sets
    cases h
    exact ⟨(au, ctx), hdecode, rfl⟩

/-- In a byte stream those of the base layer come into force. -/
theorem decodeByteStream_eq_ok_iff (hvps : ∀ nal ∈ vpss, FitsArray .vps nal)
    (hsps : ∀ nal ∈ spss, FitsArray .sps nal) (hpps : ∀ nal ∈ ppss, FitsArray .pps nal)
    {bytes : Bytes} (hstart : hasStartCode bytes = true)
    (hnals : nals bytes = vpss ++ spss ++ ppss) :
    Extradata.decodeByteStream bytes = .ok sets ↔
      Held (vpss.filter inBase) (spss.filter inBase) (ppss.filter inBase) sets := by
  rw [decodeByteStream_eq_ok_iff_decode]
  simp only [AccessUnit.decode_eq_ok_iff, hstart, true_and, hnals]
  have hkept : ∀ {c c' : Context}, (ppss.filter inBase).foldlM putPps c = .ok c' →
      ((ppss.filter inBase).head?.bind fun nal => (readPps c' nal).toOption) =
        (ppss.filter inBase).head?.bind fun nal => (readPps c nal).toOption := by
    intro c c' h
    simp only [readPps_congr (spsSlots_of_putPps h)]
  constructor
  · rintro ⟨⟨units⟩, ⟨s₃, hunits, hctx⟩, hfirst⟩
    obtain ⟨front, us₃, s₂, hfront, h₃, rfl⟩ := DecoderState.decodeNals_append_eq_ok_iff.1 hunits
    obtain ⟨us₁, us₂, s₁, h₁, h₂, rfl⟩ := DecoderState.decodeNals_append_eq_ok_iff.1 hfront
    have hvps' := ((decodeNals_iff_foldlM puts_vps hvps).1 ⟨us₁, h₁⟩).1
    have hsps' := ((decodeNals_iff_foldlM puts_sps hsps).1 ⟨us₂, h₂⟩).1
    have hpps' := ((decodeNals_iff_foldlM puts_pps hpps).1 ⟨us₃, h₃⟩).1
    rw [hctx] at hpps'
    refine ⟨s₁.ctx, s₂.ctx, hvps', hsps', hpps', ?_⟩
    rw [hfirst, hkept hpps', ← firstPps_eq hpps h₃, AccessUnit.firstPps, List.findSome?_append,
      List.findSome?_append, firstPps_eq_none (by decide) hvps h₁,
      firstPps_eq_none (by decide) hsps h₂]
    rfl
  · rintro ⟨c₁, c₂, hvps', hsps', hpps', hfirst⟩
    obtain ⟨us₁, h₁⟩ := (decodeNals_iff_foldlM puts_vps hvps (s := .start .empty)
      (e := ⟨c₁, none⟩)).2 ⟨hvps', rfl⟩
    obtain ⟨us₂, h₂⟩ := (decodeNals_iff_foldlM puts_sps hsps (s := ⟨c₁, none⟩)
      (e := ⟨c₂, none⟩)).2 ⟨hsps', rfl⟩
    obtain ⟨us₃, h₃⟩ := (decodeNals_iff_foldlM puts_pps hpps (s := ⟨c₂, none⟩)
      (e := ⟨sets.ctx, none⟩)).2 ⟨hpps', rfl⟩
    have hfront := DecoderState.decodeNals_append_eq_ok_iff.2 ⟨us₁, us₂, _, h₁, h₂, rfl⟩
    refine ⟨⟨us₁ ++ us₂ ++ us₃⟩, ⟨_, DecoderState.decodeNals_append_eq_ok_iff.2 ⟨_, us₃, _, hfront, h₃, rfl⟩,
      rfl⟩, ?_⟩
    rw [hfirst, hkept hpps', AccessUnit.firstPps, List.findSome?_append, List.findSome?_append,
      firstPps_eq_none (by decide) hvps h₁, firstPps_eq_none (by decide) hsps h₂,
      firstPps_eq hpps h₃]
    rfl

/-- In a record all come into force, whatever their layer. -/
theorem decodeConfig_eq_ok_iff {bytes : Bytes} {config : DecoderConfig}
    (hconfig : DecoderConfig.decode bytes = .ok config) :
    Extradata.decodeConfig bytes = .ok sets ↔
      Held (config.unitsOfType .vps) (config.unitsOfType .sps) (config.unitsOfType .pps) sets := by
  have hcontext : ∀ {c}, config.context = .ok c ↔ ∃ c₁ c₂,
      (config.unitsOfType .vps).foldlM putVps Context.empty = .ok c₁ ∧
      (config.unitsOfType .sps).foldlM putSps c₁ = .ok c₂ ∧
      (config.unitsOfType .pps).foldlM putPps c₂ = .ok c := by
    simp only [DecoderConfig.context, bind_eq_ok_iff, exists_and_left, implies_true]
  simp only [Extradata.decodeConfig, hconfig, bind_eq_ok_iff, Except.ok.injEq, exists_eq_left',
    hcontext]
  unfold Held
  generalize config.unitsOfType .pps = ppss
  cases ppss with
  | nil =>
    constructor
    · rintro ⟨c, ⟨c₁, c₂, hvps, hsps, hpps⟩, ⟨⟩⟩
      exact ⟨c₁, c₂, hvps, hsps, hpps, rfl⟩
    · rintro ⟨c₁, c₂, hvps, hsps, hpps, hfirst⟩
      obtain ⟨ctx, firstPps⟩ := sets
      cases hfirst
      exact ⟨ctx, ⟨c₁, c₂, hvps, hsps, hpps⟩, rfl⟩
  | cons nal later =>
    simp only [List.head?_cons, Option.bind_some, bind_eq_ok_iff]
    constructor
    · rintro ⟨c, ⟨c₁, c₂, hvps, hsps, hpps⟩, pps, hread, ⟨⟩⟩
      exact ⟨c₁, c₂, hvps, hsps, hpps, by rw [hread]; rfl⟩
    · rintro ⟨c₁, c₂, hvps, hsps, hpps, hfirst⟩
      -- the first set was read when it was put in
      have hfold := hpps
      rw [List.foldlM_cons, bind_eq_ok_iff] at hfold
      obtain ⟨_, hput, -⟩ := hfold
      obtain ⟨pps, hread, -⟩ := map_eq_ok_iff.1 hput
      rw [← readPps_congr (spsSlots_of_putPps hpps)] at hread
      obtain ⟨ctx, firstPps⟩ := sets
      rw [hread] at hfirst
      cases hfirst
      exact ⟨ctx, ⟨c₁, c₂, hvps, hsps, hpps⟩, pps, hread, rfl⟩

end Forms

theorem decode_of_startCode {bytes : Bytes} (h : hasStartCode bytes = true) :
    Extradata.decode bytes = (Extradata.decodeByteStream bytes).mapError .byteStream := by
  obtain ⟨n, rest, rfl⟩ := hasStartCode_iff.1 h
  cases n <;> rfl

theorem decode_recordBytes {fixed : Vector UInt8 23} {arrays : List (UInt8 × List Bytes)}
    (h : Sound fixed arrays) (rest : Bytes) : Extradata.decode (recordBytes fixed arrays ++ rest) =
      (Extradata.decodeConfig (recordBytes fixed arrays ++ rest)).mapError .config := by
  have hhead : (recordBytes fixed arrays ++ rest).head? = some 1 := by
    rw [recordBytes, List.append_assoc, List.head?_eq_getElem?,
      List.getElem?_append_left (by simp), Vector.getElem?_toList, h.version]
  obtain ⟨tail, htail⟩ := List.head?_eq_some_iff.1 hhead
  rw [htail]
  rfl

section Forms

variable {vpss spss ppss : List Bytes} {fixed : Vector UInt8 23} {v s p : UInt8} {sets : Extradata}

/-- A record of three arrays, one for each type of parameter sets. -/
theorem decode_recordBytes_eq_ok_iff (hvps : ∀ nal ∈ vpss, FitsArray .vps nal)
    (hsps : ∀ nal ∈ spss, FitsArray .sps nal) (hpps : ∀ nal ∈ ppss, FitsArray .pps nal)
    (hcounts : vpss.length < 65536 ∧ spss.length < 65536 ∧ ppss.length < 65536)
    (hversion : fixed[0] = 1) (hcount : fixed[22] = 3)
    (htypes : arrayType v = .vps ∧ arrayType s = .sps ∧ arrayType p = .pps) (rest : Bytes) :
    Extradata.decode (recordBytes fixed [(v, vpss), (s, spss), (p, ppss)] ++ rest) = .ok sets ↔
      Held vpss spss ppss sets := by
  obtain ⟨hv, hs, hp⟩ := htypes
  have hsound : Sound fixed [(v, vpss), (s, spss), (p, ppss)] := by
    refine ⟨by simp [hversion], by simp [hcount], ?_, ?_⟩
    · simpa using hcounts
    · simpa [hv, hs, hp] using ⟨hvps, hsps, hpps⟩
  have hunits : ∀ unitType, unitsOfType ⟨fixed, [arrayOf v vpss, arrayOf s spss, arrayOf p ppss]⟩
      unitType = (if .vps = unitType then vpss else []) ++ (if .sps = unitType then spss else []) ++
        (if .pps = unitType then ppss else []) := by
    intro unitType
    simp only [unitsOfType, arrayOf, hv, hs, hp, List.filter_cons, List.filter_nil]
    split_ifs <;> simp_all
  rw [decode_recordBytes hsound, mapError_eq_ok_iff,
    decodeConfig_eq_ok_iff (decode_record hsound rest)]
  simp [hunits, UnitType.vps, UnitType.sps, UnitType.pps]

/-- A byte stream is read as the record of its parameter sets in the base layer is read. If all are in the
base layer, that is the record of all of them. -/
theorem carriages_agree (hvps : ∀ nal ∈ vpss, Carried .vps nal)
    (hsps : ∀ nal ∈ spss, Carried .sps nal) (hpps : ∀ nal ∈ ppss, Carried .pps nal)
    (hne : vpss ++ spss ++ ppss ≠ [])
    (hcounts : vpss.length < 65536 ∧ spss.length < 65536 ∧ ppss.length < 65536)
    (hversion : fixed[0] = 1) (hcount : fixed[22] = 3)
    (htypes : arrayType v = .vps ∧ arrayType s = .sps ∧ arrayType p = .pps)
    {us : List (Nat × Bytes)} (hus : us.map Prod.snd = vpss ++ spss ++ ppss) (rest : Bytes)
    (sets : Extradata) :
    (Extradata.decode (spaced us) = .ok sets ↔
      Extradata.decode (recordBytes fixed
        [(v, vpss.filter inBase), (s, spss.filter inBase), (p, ppss.filter inBase)] ++ rest) =
          .ok sets) ∧
    ((∀ nal ∈ vpss ++ spss ++ ppss, inBase nal = true) →
      (Extradata.decode (spaced us) = .ok sets ↔
        Extradata.decode (recordBytes fixed [(v, vpss), (s, spss), (p, ppss)] ++ rest) =
          .ok sets)) := by
  have hvps' : ∀ nal ∈ vpss, FitsArray .vps nal := fun nal h => (hvps nal h).toFitsArray
  have hsps' : ∀ nal ∈ spss, FitsArray .sps nal := fun nal h => (hsps nal h).toFitsArray
  have hpps' : ∀ nal ∈ ppss, FitsArray .pps nal := fun nal h => (hpps nal h).toFitsArray
  have hus' : us ≠ [] := by
    rintro rfl
    exact hne hus.symm
  have hsolid : ∀ u ∈ us, Solid u.2 := by
    intro u hu
    have hmem : u.2 ∈ vpss ++ spss ++ ppss := hus ▸ List.mem_map_of_mem hu
    obtain hmem | hmem := List.mem_append.1 hmem
    · obtain hmem | hmem := List.mem_append.1 hmem
      · exact (hvps _ hmem).toSolid
      · exact (hsps _ hmem).toSolid
    · exact (hpps _ hmem).toSolid
  have hstart := hasStartCode_spaced hus'
  rw [decode_of_startCode hstart, mapError_eq_ok_iff, decodeByteStream_eq_ok_iff hvps' hsps' hpps'
    hstart ((nals_spaced hus' hsolid).trans hus)]
  constructor
  · have hle := fun nals : List Bytes => List.length_filter_le inBase nals
    rw [decode_recordBytes_eq_ok_iff (fun nal h => hvps' nal (List.mem_of_mem_filter h))
      (fun nal h => hsps' nal (List.mem_of_mem_filter h))
      (fun nal h => hpps' nal (List.mem_of_mem_filter h))
      ⟨(hle _).trans_lt hcounts.1, (hle _).trans_lt hcounts.2.1, (hle _).trans_lt hcounts.2.2⟩
      hversion hcount htypes]
  · intro hbase
    simp only [List.forall_mem_append] at hbase
    obtain ⟨⟨hbvps, hbsps⟩, hbpps⟩ := hbase
    rw [decode_recordBytes_eq_ok_iff hvps' hsps' hpps' hcounts hversion hcount htypes,
      List.filter_eq_self.2 hbvps, List.filter_eq_self.2 hbsps, List.filter_eq_self.2 hbpps]

end Forms

/-! ## The parameter sets of a picture of two tiles -/

namespace Sample

/-- The unit of the video parameter set. -/
def vpsUnit : Bytes := (picture.take 28).drop 4

/-- The unit of the sequence parameter set. -/
def spsUnit : Bytes := (picture.take 64).drop 32

/-- The unit of the picture parameter set. -/
def ppsUnit : Bytes := (picture.take 75).drop 68

/-- A picture parameter set with the same number and one tile. -/
def oneTileUnit : Bytes := [68, 1, 192, 113, 129, 18]

/-- The unit of the picture parameter set, in another layer. -/
def layerUnit : Bytes := 68 :: 9 :: ppsUnit.drop 2

/-- The fixed bytes of a record with three arrays. -/
def fixedBytes : Vector UInt8 23 :=
  toFixed [1, 1, 96, 0, 0, 0, 144, 0, 0, 0, 0, 0, 93, 240, 0, 252, 253, 248, 248, 0, 0, 15, 3]

theorem carried_vpsUnit : Carried .vps vpsUnit where
  noStartCode := by decide
  last := by decide
  nonempty := by decide
  header := ⟨⟨.vps, 0, 0⟩, by decide⟩
  length := by decide

theorem carried_spsUnit : Carried .sps spsUnit where
  noStartCode := by decide
  last := by decide
  nonempty := by decide
  header := ⟨⟨.sps, 0, 0⟩, by decide⟩
  length := by decide

theorem carried_ppsUnit : Carried .pps ppsUnit where
  noStartCode := by decide
  last := by decide
  nonempty := by decide
  header := ⟨⟨.pps, 0, 0⟩, by decide⟩
  length := by decide

theorem carried_oneTileUnit : Carried .pps oneTileUnit where
  noStartCode := by decide
  last := by decide
  nonempty := by decide
  header := ⟨⟨.pps, 0, 0⟩, by decide⟩
  length := by decide

theorem carried_layerUnit : Carried .pps layerUnit where
  noStartCode := by decide
  last := by decide
  nonempty := by decide
  header := ⟨⟨.pps, 1, 0⟩, by decide⟩
  length := by decide

/-- The units in a byte stream, with start codes of several lengths. -/
def setsStream : Bytes := spaced [(2, vpsUnit), (0, spsUnit), (1, ppsUnit), (3, oneTileUnit)]

/-- The units in a record. -/
def setsRecord : Bytes := recordBytes fixedBytes
  [(160, [vpsUnit]), (161, [spsUnit]), (34, [ppsUnit, oneTileUnit])]

/-- What is read of the byte stream. -/
def readSets : Extradata :=
  match Extradata.decode setsStream with
  | .ok sets => sets
  | .error _ => ⟨.empty, none⟩

end Sample

open Sample in
theorem carriages_agree_sample :
    (∀ nal ∈ [vpsUnit] ++ [spsUnit] ++ [ppsUnit, oneTileUnit], inBase nal = true) ∧
      Extradata.decode setsStream = .ok readSets ∧
      readSets.ctx.ppsIds = [0] ∧ readSets.firstPps ≠ readSets.ctx.ppsById 0 ∧
      Extradata.decode (setsRecord ++ [0]) = .ok readSets := by
  have hbase : ∀ nal ∈ [vpsUnit] ++ [spsUnit] ++ [ppsUnit, oneTileUnit], inBase nal = true := by
    decide
  have hstream : Extradata.decode setsStream = .ok readSets := by decide +kernel
  have hpps : ∀ nal ∈ [ppsUnit, oneTileUnit], Carried .pps nal := by
    simpa using ⟨carried_ppsUnit, carried_oneTileUnit⟩
  refine ⟨hbase, hstream, by decide +kernel, by decide +kernel, ?_⟩
  exact ((carriages_agree (by simpa using carried_vpsUnit) (by simpa using carried_spsUnit) hpps
    (List.cons_ne_nil _ _) (by decide) rfl rfl ⟨rfl, rfl, rfl⟩ rfl [0] readSets).2 hbase).1 hstream

open Sample in
/-- A byte stream and a record hold the same units, of which one is a picture parameter set in another
layer. Both are read, but the set is in force in the record alone. -/
theorem other_layers_in_record :
    (Carried .vps vpsUnit ∧ Carried .sps spsUnit ∧ Carried .pps layerUnit) ∧
      (Extradata.decode (framedAll [vpsUnit, spsUnit, layerUnit])).toOption.map
        (fun sets => (sets.ctx.ppsIds, sets.firstPps.isSome)) = some ([], false) ∧
      (Extradata.decode (recordBytes fixedBytes
        [(160, [vpsUnit]), (161, [spsUnit]), (162, [layerUnit])])).toOption.map
          (fun sets => (sets.ctx.ppsIds, sets.firstPps.isSome)) = some ([0], true) :=
  ⟨⟨carried_vpsUnit, carried_spsUnit, carried_layerUnit⟩, by decide +kernel, by decide +kernel⟩

end TiledVideo
