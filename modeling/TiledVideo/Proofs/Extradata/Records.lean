import TiledVideo.Extradata.DecoderConfig
import TiledVideo.Proofs.Success

/-!
# Records that are read

A record is put together of its fixed bytes and of arrays, each with a byte for the type of its units,
with their number, and with the length of each in front of it. If the numbers fit their two bytes and
each unit has a header of the type of its array, then the reader of records finds these parts again,
whatever comes behind them.

Results:

* `takes_unit`, `takes_array`: how a unit and an array are read.
* `decode_record`: how a record is read.
-/

namespace TiledVideo.DecoderConfig

variable {α β : Type}

/-! ## Readers and what they take -/

/-- The reader takes exactly these bytes and gives `a`, whatever comes before and behind them. -/
def ByteReader.Takes (p : ByteReader α) (bytes : Bytes) (a : α) : Prop :=
  ∀ rest offset, p ⟨bytes ++ rest, offset⟩ = .ok a ⟨rest, offset + bytes.length⟩

theorem takes_pure (a : α) : (pure a : ByteReader α).Takes [] a :=
  fun _ _ => rfl

theorem ByteReader.Takes.bind {p : ByteReader α} {f : α → ByteReader β} {x y : Bytes} {a : α} {b : β}
    (hp : p.Takes x a) (hf : (f a).Takes y b) : (p >>= f).Takes (x ++ y) b := by
  intro rest offset
  rw [List.append_assoc, step_bind_of_ok (hp (y ++ rest) offset), hf rest, List.length_append,
    Nat.add_assoc]

/-- Nothing may be left to take for what comes last. -/
theorem ByteReader.Takes.bind_nil {p : ByteReader α} {f : α → ByteReader β} {x : Bytes} {a : α} {b : β}
    (hp : p.Takes x a) (hf : (f a).Takes [] b) : (p >>= f).Takes x b := by
  have h := hp.bind hf
  rwa [List.append_nil] at h

theorem ByteReader.Takes.map {p : ByteReader α} {x : Bytes} {a : α} (f : α → β) (hp : p.Takes x a) :
    (f <$> p).Takes x (f a) := by
  intro rest offset
  exact step_map_of_ok (hp rest offset)

theorem takes_takeBytes {n : Nat} {bytes : Bytes} (h : bytes.length = n) :
    (takeBytes n).Takes bytes bytes := by
  subst h
  intro rest offset
  simp [takeBytes]

theorem takes_timesBytes {γ : Type} {p : ByteReader α} {code : γ → Bytes} {g : γ → α} {cs : List γ}
    (h : ∀ c ∈ cs, p.Takes (code c) (g c)) :
    (timesBytes cs.length p).Takes (cs.flatMap code) (cs.map g) := by
  induction cs with
  | nil => exact takes_pure []
  | cons c cs ih =>
    rw [List.flatMap_cons]
    refine (h c List.mem_cons_self).bind ?_
    exact (ih fun d hd => h d (List.mem_cons_of_mem c hd)).map (g c :: ·)

/-! ## Arrays -/

/-- A number as two bytes, the higher one first. -/
def twoBytes (n : Nat) : Bytes :=
  [UInt8.ofNat (n / 256), UInt8.ofNat n]

theorem bigEndian_twoBytes {n : Nat} (h : n < 65536) : bigEndian (twoBytes n) = n := by
  simp only [bigEndian, twoBytes, List.foldl_cons, List.foldl_nil, UInt8.toNat_ofNat']
  omega

/-- The unit has a header of the given type, and its length fits two bytes. -/
structure FitsArray (unitType : UnitType) (nal : Bytes) : Prop where
  header : ∃ header, NalHeader.ofBytes nal = .ok header ∧ header.unitType = unitType
  length : nal.length < 65536

/-- A unit behind its length. -/
def unitBytes (nal : Bytes) : Bytes :=
  twoBytes nal.length ++ nal

theorem checkType_of_fits {unitType : UnitType} {nal : Bytes} (h : FitsArray unitType nal) :
    checkType unitType nal = .ok () := by
  obtain ⟨header, hheader, rfl⟩ := h.header
  simp only [checkType, hheader]
  exact if_pos rfl

theorem takes_unit {unitType : UnitType} {nal : Bytes} (h : FitsArray unitType nal) :
    (parseUnit unitType).Takes (unitBytes nal) nal := by
  have hlength : (twoBytes nal.length).length = 2 := rfl
  refine (takes_takeBytes hlength).bind ?_
  have hnal : (takeBytes (bigEndian (twoBytes nal.length))).Takes nal nal :=
    takes_takeBytes (bigEndian_twoBytes h.length).symm
  refine hnal.bind_nil ?_
  rw [checkType_of_fits h]
  exact takes_pure nal

/-- An array: a byte for the type, the number of units, and the units. -/
def arrayBytes (kind : UInt8) (units : List Bytes) : Bytes :=
  kind :: twoBytes units.length ++ units.flatMap unitBytes

/-- The array that the bytes of `arrayBytes` stand for. -/
def arrayOf (kind : UInt8) (units : List Bytes) : NalArray where
  complete := 128 ≤ kind
  unitType := arrayType kind
  units

theorem takes_array {kind : UInt8} {units : List Bytes} (hcount : units.length < 65536)
    (h : ∀ nal ∈ units, FitsArray (arrayType kind) nal) :
    parseArray.Takes (arrayBytes kind units) (arrayOf kind units) := by
  have hlength : (kind :: twoBytes units.length).length = 3 := rfl
  refine (takes_takeBytes hlength).bind ?_
  have hunits := takes_timesBytes (g := id) fun nal hnal => takes_unit (h nal hnal)
  rw [← bigEndian_twoBytes hcount, List.map_id] at hunits
  exact hunits.map (NalArray.mk (128 ≤ kind) (arrayType kind))

/-! ## Records -/

/-- A record of fixed bytes and arrays, each given by the byte for its type and its units. -/
def recordBytes (fixed : Vector UInt8 23) (arrays : List (UInt8 × List Bytes)) : Bytes :=
  fixed.toList ++ arrays.flatMap fun array => arrayBytes array.1 array.2

/-- The record has version one, and its numbers fit what it holds. -/
structure Sound (fixed : Vector UInt8 23) (arrays : List (UInt8 × List Bytes)) : Prop where
  version : fixed[0]? = some 1
  count : fixed[22]?.map UInt8.toNat = some arrays.length
  counts : ∀ array ∈ arrays, array.2.length < 65536
  units : ∀ array ∈ arrays, ∀ nal ∈ array.2, FitsArray (arrayType array.1) nal

theorem toFixed_toList (fixed : Vector UInt8 23) : toFixed fixed.toList = fixed := by
  ext i hi
  simp [toFixed]

/-- A record is read as what it was put together of, whatever comes behind it. -/
theorem decode_record {fixed : Vector UInt8 23} {arrays : List (UInt8 × List Bytes)}
    (h : Sound fixed arrays) (rest : Bytes) : decode (recordBytes fixed arrays ++ rest) =
      .ok ⟨fixed, arrays.map fun array => arrayOf array.1 array.2⟩ := by
  have hfixed : (toFixed <$> takeBytes 23).Takes fixed.toList fixed := by
    have htaken := (takes_takeBytes fixed.length_toList).map toFixed
    rwa [toFixed_toList] at htaken
  have harrays : (timesBytes fixed[22].toNat parseArray).Takes
      (arrays.flatMap fun array => arrayBytes array.1 array.2)
      (arrays.map fun array => arrayOf array.1 array.2) := by
    have hcount : fixed[22].toNat = arrays.length := by simpa using h.count
    rw [hcount]
    exact takes_timesBytes fun array harray =>
      takes_array (h.counts array harray) (h.units array harray)
  have hparse : parse.Takes (recordBytes fixed arrays)
      ⟨fixed, arrays.map fun array => arrayOf array.1 array.2⟩ := by
    refine hfixed.bind ?_
    rw [if_neg (by simpa using h.version)]
    exact harrays.map (DecoderConfig.mk fixed)
  rw [decode, hparse rest 0]

end TiledVideo.DecoderConfig
