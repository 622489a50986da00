import TiledVideo.Proofs.Extradata.InBounds

/-!
# The grammar of records

A byte string is read as a record exactly if it begins with one: 23 fixed bytes of which the first is one,
and as many arrays as the last of them says, each a byte for a type, the number of its units in two bytes,
and the units, each with its length in two bytes in front and a header of the type of its array. What is
read holds all that was there except for one bit: in the byte for the type of an array, the bit below the
one that says whether the array is complete means nothing.

Results:

* `NalHeader.ofBytes_eq_ok_iff`: what has a header.
* `exact_unit`, `exact_array`, `decode_eq_ok_iff`: what units, arrays and records are read from.
* `toBytes_of_parts`: writing again what was read.
* `decode_exact`: the grammar, and what becomes of the bytes in it and behind it.
-/

namespace TiledVideo

/-! ## Headers -/

namespace NalHeader

theorem ofValue_eq_ok {v : Nat} (hv : v < 65536) {header : NalHeader} (h : ofValue v = .ok header) :
    header.value = v := by
  rw [ofValue] at h
  split at h
  · cases h
  · split at h
    · cases h
    · cases h
      simp only [value]
      omega

/-- A unit has a header exactly if it begins with the bytes of one. -/
theorem ofBytes_eq_ok_iff {nal : Bytes} {header : NalHeader} :
    ofBytes nal = .ok header ↔ ∃ body, nal = header.toBytes ++ body := by
  constructor
  · intro h
    match nal, h with
    | a :: b :: body, h =>
      have ha := a.toNat_lt
      have hb := b.toNat_lt
      have hvalue := ofValue_eq_ok (by omega) h
      have hhigh : header.value / 256 = a.toNat := by omega
      have hlow : header.value % 256 = b.toNat := by omega
      refine ⟨body, ?_⟩
      rw [toBytes, hhigh, hlow, UInt8.ofNat_toNat, UInt8.ofNat_toNat]
      rfl
  · rintro ⟨body, rfl⟩
    exact ofBytes_toBytes header body

end NalHeader

namespace DecoderConfig

variable {α γ : Type}

/-- The unit begins with a header of the given type. -/
def Headed (unitType : UnitType) (nal : Bytes) : Prop :=
  ∃ (header : NalHeader) (body : Bytes), nal = header.toBytes ++ body ∧ header.unitType = unitType

theorem fitsArray_iff {unitType : UnitType} {nal : Bytes} :
    FitsArray unitType nal ↔ nal.length < 65536 ∧ Headed unitType nal := by
  have hheaded : (∃ header, NalHeader.ofBytes nal = .ok header ∧ header.unitType = unitType) ↔
      Headed unitType nal := by
    simp only [NalHeader.ofBytes_eq_ok_iff, Headed, exists_and_right]
  constructor
  · intro h
    exact ⟨h.length, hheaded.1 h.header⟩
  · rintro ⟨hlength, h⟩
    exact ⟨hheaded.2 h, hlength⟩

theorem checkType_eq_ok {unitType : UnitType} {nal : Bytes} (h : checkType unitType nal = .ok ()) :
    ∃ header, NalHeader.ofBytes nal = .ok header ∧ header.unitType = unitType := by
  obtain ⟨header, hheader, htype⟩ := bind_eq_ok_iff.1 h
  refine ⟨header, mapError_eq_ok_iff.1 hheader, ?_⟩
  split at htype
  · assumption
  · cases htype

/-! ## What is taken -/

/-- The reader takes nothing but the bytes of a part that is good, and gives what that part stands for. -/
def ByteReader.TakesOnly (p : ByteReader α) (good : γ → Prop) (code : γ → Bytes) (meaning : γ → α) :
    Prop :=
  ∀ c a c', p c = .ok a c' → ∃ part, good part ∧ c.rest = code part ++ c'.rest ∧ meaning part = a

theorem takeBytes_eq_ok {n : Nat} {bytes : Bytes} {c c' : ByteCursor}
    (h : takeBytes n c = .ok bytes c') : bytes.length = n ∧ c.rest = bytes ++ c'.rest := by
  rw [takeBytes] at h
  split at h
  · cases h
  · next hn =>
    cases h
    exact ⟨List.length_take_of_le (Nat.not_lt.1 hn), (List.take_append_drop n c.rest).symm⟩

theorem takesOnly_timesBytes {p : ByteReader α} {good : γ → Prop} {code : γ → Bytes}
    {meaning : γ → α} (hp : p.TakesOnly good code meaning) (n : Nat) :
    (timesBytes n p).TakesOnly (fun parts : List γ => parts.length = n ∧ ∀ part ∈ parts, good part)
      (·.flatMap code) (·.map meaning) := by
  induction n with
  | zero =>
    rintro c _ _ ⟨⟩
    exact ⟨[], ⟨rfl, nofun⟩, rfl, rfl⟩
  | succ n ih =>
    intro c as c' h
    obtain ⟨a, c₁, hfirst, h⟩ := step_bind_eq_ok.1 h
    obtain ⟨later, c₂, hlater, h⟩ := step_bind_eq_ok.1 h
    cases h
    obtain ⟨part, hpart, hrest, rfl⟩ := hp c a c₁ hfirst
    obtain ⟨parts, ⟨hlength, hparts⟩, hrest₁, rfl⟩ := ih c₁ later _ hlater
    refine ⟨part :: parts, ⟨congrArg (· + 1) hlength, ?_⟩, ?_, rfl⟩
    · simpa using ⟨hpart, hparts⟩
    · show c.rest = (part :: parts).flatMap code ++ c'.rest
      rw [hrest, hrest₁, List.flatMap_cons, List.append_assoc]

/-- Two bytes are those of the number that they denote. -/
theorem twoBytes_bigEndian {bytes : Bytes} (h : bytes.length = 2) :
    bigEndian bytes < 65536 ∧ twoBytes (bigEndian bytes) = bytes := by
  match bytes, h with
  | [a, b], _ =>
    have ha := a.toNat_lt
    have hb := b.toNat_lt
    rw [bigEndian_pair]
    refine ⟨by omega, ?_⟩
    have hhigh : (a.toNat * 256 + b.toNat) / 256 = a.toNat := by omega
    have hlow : UInt8.ofNat (a.toNat * 256 + b.toNat) = b := by
      rw [← UInt8.toNat_inj, UInt8.toNat_ofNat']
      omega
    rw [twoBytes, hhigh, hlow, UInt8.ofNat_toNat]

theorem exact_unit (unitType : UnitType) :
    (parseUnit unitType).TakesOnly (FitsArray unitType) unitBytes id := by
  intro c nal c' h
  obtain ⟨length, c₁, hlength, h⟩ := step_bind_eq_ok.1 h
  obtain ⟨unit, c₂, hunit, h⟩ := step_bind_eq_ok.1 h
  cases hcheck : checkType unitType unit with
  | error e =>
    rw [hcheck] at h
    cases h
  | ok =>
    rw [hcheck] at h
    cases h
    obtain ⟨htwo, hrest⟩ := takeBytes_eq_ok hlength
    obtain ⟨hcount, hrest₁⟩ := takeBytes_eq_ok hunit
    obtain ⟨hlt, hbytes⟩ := twoBytes_bigEndian htwo
    refine ⟨nal, ⟨checkType_eq_ok hcheck, hcount ▸ hlt⟩, ?_, rfl⟩
    rw [unitBytes, hcount, hbytes, List.append_assoc, ← hrest₁, hrest]

/-- The units of an array fit it, and their number its two bytes. -/
def ArrayFits (array : UInt8 × List Bytes) : Prop :=
  array.2.length < 65536 ∧ ∀ nal ∈ array.2, FitsArray (arrayType array.1) nal

theorem exact_array :
    parseArray.TakesOnly ArrayFits (fun array => arrayBytes array.1 array.2)
      (fun array => arrayOf array.1 array.2) := by
  intro c array c' h
  obtain ⟨head, c₁, hhead, h⟩ := step_bind_eq_ok.1 h
  obtain ⟨units, c₂, hunits, h⟩ := step_bind_eq_ok.1 h
  cases h
  obtain ⟨hthree, hrest⟩ := takeBytes_eq_ok hhead
  match head, hthree with
  | kind :: count, hthree =>
    obtain ⟨hlt, hbytes⟩ := twoBytes_bigEndian (Nat.succ.inj hthree)
    obtain ⟨parts, ⟨hlength, hparts⟩, hrest₁, hmap⟩ :=
      takesOnly_timesBytes (exact_unit (arrayType kind)) (bigEndian count) c₁ units _ hunits
    obtain rfl : parts = units := (List.map_id parts).symm.trans hmap
    refine ⟨(kind, parts), ⟨?_, hparts⟩, ?_, rfl⟩
    · show parts.length < 65536
      rw [hlength]
      exact hlt
    · show c.rest = kind :: twoBytes parts.length ++ parts.flatMap unitBytes ++ _
      rw [hlength, hbytes, List.append_assoc, ← hrest₁, hrest]

/-! ## Records -/

theorem toList_toFixed {bytes : Bytes} (h : bytes.length = 23) : (toFixed bytes).toList = bytes := by
  refine List.ext_getElem (by simp [h]) fun i hi hi' => ?_
  rw [Vector.getElem_toList, toFixed_getElem (by omega)]

/-- A record is read from the bytes that it is put together of, and from nothing else. -/
theorem decode_eq_ok_iff {bytes : Bytes} {config : DecoderConfig} :
    decode bytes = .ok config ↔ ∃ arrays rest, Sound config.fixed arrays ∧
      bytes = recordBytes config.fixed arrays ++ rest ∧
      config.arrays = arrays.map fun array => arrayOf array.1 array.2 := by
  constructor
  · intro h
    rw [decode] at h
    split at h
    · next c hparse =>
      cases h
      rw [parse, bind_map_left] at hparse
      obtain ⟨front, c₁, hfront, hparse⟩ := step_bind_eq_ok.1 hparse
      obtain ⟨htaken, hrest⟩ := takeBytes_eq_ok hfront
      generalize hfixed : toFixed front = fixed at hparse
      by_cases hone : fixed[0] = 1
      · rw [if_neg (not_not_intro hone)] at hparse
        obtain ⟨arrays, c₂, harrays, hparse⟩ := step_bind_eq_ok.1 hparse
        cases hparse
        obtain ⟨parts, ⟨hlength, hparts⟩, hrest₁, rfl⟩ :=
          takesOnly_timesBytes exact_array fixed[22].toNat c₁ arrays _ harrays
        refine ⟨parts, c.rest, ⟨?_, ?_, fun array h => (hparts array h).1,
          fun array h => (hparts array h).2⟩, ?_, rfl⟩
        · simp [hone]
        · simp [hlength]
        · show bytes = fixed.toList ++ _ ++ c.rest
          rw [← hfixed, toList_toFixed htaken, List.append_assoc, ← hrest₁]
          exact hrest
      · rw [if_pos hone] at hparse
        cases hparse
    · cases h
  · rintro ⟨arrays, rest, hsound, rfl, harrays⟩
    rw [decode_record hsound, ← harrays]

/-- What `Sound` demands, without the reader of headers. -/
theorem sound_iff {fixed : Vector UInt8 23} {arrays : List (UInt8 × List Bytes)} :
    Sound fixed arrays ↔
      fixed[0]? = some 1 ∧ fixed[22]?.map UInt8.toNat = some arrays.length ∧
      ∀ array ∈ arrays, array.2.length < 65536 ∧
        ∀ nal ∈ array.2, nal.length < 65536 ∧ Headed (arrayType array.1) nal := by
  constructor
  · intro h
    refine ⟨h.version, h.count, fun array harray => ?_⟩
    exact ⟨h.counts array harray, fun nal hnal => fitsArray_iff.1 (h.units array harray nal hnal)⟩
  · rintro ⟨hversion, hcount, harrays⟩
    refine ⟨hversion, hcount, fun array harray => (harrays array harray).1, ?_⟩
    exact fun array harray nal hnal => fitsArray_iff.2 ((harrays array harray).2 nal hnal)

/-! ## Writing again -/

/-- The byte for the type of an array. -/
def kindOf (array : NalArray) : UInt8 :=
  (if array.complete then 128 else 0) + UInt8.ofNat array.unitType.id.val

/-- The bytes of a record. -/
def toBytes (config : DecoderConfig) : Bytes :=
  recordBytes config.fixed (config.arrays.map fun array => (kindOf array, array.units))

/-- The byte for the type of an array without the bit that means nothing. -/
def withoutReserved (kind : UInt8) : UInt8 :=
  kind &&& 0b10111111

theorem kindOf_arrayOf (kind : UInt8) (units : List Bytes) :
    kindOf (arrayOf kind units) = withoutReserved kind := by
  have hall : ∀ b : Fin 256, (if 128 ≤ UInt8.ofNat b.val then 128 else 0) +
      UInt8.ofNat ((UInt8.ofNat b.val).toNat % 64) = withoutReserved (UInt8.ofNat b.val) := by
    decide +kernel
  have h := hall ⟨kind.toNat, kind.toNat_lt⟩
  rw [UInt8.ofNat_toNat] at h
  rw [← h, kindOf, arrayOf, arrayType]
  simp only [decide_eq_true_eq]

theorem toBytes_of_parts {config : DecoderConfig} {arrays : List (UInt8 × List Bytes)}
    (h : config.arrays = arrays.map fun array => arrayOf array.1 array.2) :
    config.toBytes = recordBytes config.fixed
      (arrays.map fun array => (withoutReserved array.1, array.2)) := by
  rw [toBytes, h, List.map_map]
  congr 2
  funext array
  exact Prod.ext (kindOf_arrayOf array.1 array.2) rfl

/-- A byte string is read as a record exactly if it begins with one. Then the fixed bytes and the arrays
that were read, written again, are the front of it, but for one bit in the bytes for the types of arrays;
and whatever comes behind that front is passed over. On any byte string, no byte is asked for at a place
that it does not have. -/
theorem decode_exact (bytes : Bytes) :
    ((∃ config, decode bytes = .ok config) ↔
      ∃ (fixed : Vector UInt8 23) (arrays : List (UInt8 × List Bytes)) (rest : Bytes),
        bytes = recordBytes fixed arrays ++ rest ∧
        fixed[0]? = some 1 ∧ fixed[22]?.map UInt8.toNat = some arrays.length ∧
        ∀ array ∈ arrays, array.2.length < 65536 ∧
          ∀ nal ∈ array.2, nal.length < 65536 ∧ Headed (arrayType array.1) nal) ∧
    (∀ config, decode bytes = .ok config → ∃ arrays rest,
      bytes = recordBytes config.fixed arrays ++ rest ∧
      config.toBytes = recordBytes config.fixed
        (arrays.map fun array => (withoutReserved array.1, array.2)) ∧
      ∀ other, decode (recordBytes config.fixed arrays ++ other) = .ok config) ∧
    decodeAt bytes = (decode bytes).mapError .refused ∧
    ∀ place, decodeAt bytes ≠ .error (.outside place) := by
  refine ⟨⟨?_, ?_⟩, ?_, decodeAt_eq bytes, ?_⟩
  · rintro ⟨config, h⟩
    obtain ⟨arrays, rest, hsound, hbytes, -⟩ := decode_eq_ok_iff.1 h
    exact ⟨config.fixed, arrays, rest, hbytes, sound_iff.1 hsound⟩
  · rintro ⟨fixed, arrays, rest, rfl, h⟩
    exact ⟨_, decode_record (sound_iff.2 h) rest⟩
  · intro config h
    obtain ⟨arrays, rest, hsound, hbytes, harrays⟩ := decode_eq_ok_iff.1 h
    refine ⟨arrays, rest, hbytes, toBytes_of_parts harrays, fun other => ?_⟩
    exact decode_eq_ok_iff.2 ⟨arrays, other, hsound, rfl, harrays⟩
  · intro place h
    rw [decodeAt_eq] at h
    obtain ⟨_, -, hne⟩ := mapError_eq_error_iff.1 h
    cases hne

/-- The fixed bytes of a record with two arrays. -/
def fixedOfTwo : Vector UInt8 23 :=
  toFixed [1, 1, 96, 0, 0, 0, 144, 0, 0, 0, 0, 0, 93, 240, 0, 252, 253, 248, 248, 0, 0, 15, 2]

/-- An array of two units and an empty one. In the byte for the type of the first, the bit that means
nothing is set. -/
def twoArrays : List (UInt8 × List Bytes) :=
  [(0xE0, [[64, 1, 12], [64, 2]]), (34, [])]

theorem decode_exact_sample :
    ∃ config, decode (recordBytes fixedOfTwo twoArrays ++ [1, 2, 3]) = .ok config ∧
      ∃ arrays rest, recordBytes fixedOfTwo twoArrays ++ [1, 2, 3] =
          recordBytes config.fixed arrays ++ rest ∧
        config.toBytes = recordBytes config.fixed
          (arrays.map fun array => (withoutReserved array.1, array.2)) ∧
        ∀ other, decode (recordBytes config.fixed arrays ++ other) = .ok config := by
  have hlong : Headed (arrayType 0xE0) [64, 1, 12] := ⟨⟨.vps, 0, 0⟩, [12], by decide, by decide⟩
  have hshort : Headed (arrayType 0xE0) [64, 2] := ⟨⟨.vps, 0, 1⟩, [], by decide, by decide⟩
  have harrays : ∀ array ∈ twoArrays, array.2.length < 65536 ∧
      ∀ nal ∈ array.2, nal.length < 65536 ∧ Headed (arrayType array.1) nal := by
    simp only [twoArrays, List.mem_cons, List.not_mem_nil, or_false, forall_eq_or_imp, forall_eq]
    exact ⟨⟨by decide, ⟨by decide, hlong⟩, by decide, hshort⟩, by decide, nofun⟩
  obtain ⟨hgrammar, hagain, -⟩ := decode_exact (recordBytes fixedOfTwo twoArrays ++ [1, 2, 3])
  obtain ⟨config, hread⟩ :=
    hgrammar.2 ⟨fixedOfTwo, twoArrays, [1, 2, 3], rfl, by decide, by decide, harrays⟩
  exact ⟨config, hread, hagain config hread⟩

end DecoderConfig

end TiledVideo
