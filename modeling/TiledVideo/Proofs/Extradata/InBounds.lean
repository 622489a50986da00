import TiledVideo.Proofs.Extradata.Records

/-!
# Records that are read by position

Parts of a record are of lengths that the record itself gives, so a reader that moves along the data may
come to a place behind their end. Here the record is read by position: each byte is asked for at its place,
a place that the data do not have is an outcome of its own, and only the lengths that are looked at in
between can keep the reader from it. They do, on any data, and what comes out is what `decode` gives.

Results:

* `Halt`, `decodeAt`: reading by position, and how it may end.
* `Matches.bind`, `matches_take`: both ways of reading step by step.
* `matches_unitAt`, `matches_arrayAt`, `matches_recordAt`: units, arrays and records.
* `decodeAt_eq`: no data lead to a place behind their end.
-/

namespace TiledVideo.DecoderConfig

/-! ## Reading by position -/

/-- Why a record is not read. -/
inductive Halt where
  /-- A byte was asked for at a place that the data do not have. -/
  | outside (place : Nat)
  | refused (cause : ConfigError)
  deriving DecidableEq, Repr

section Positions

variable (data : Bytes)

/-- The data must be of this length at least. -/
def need (length : Nat) : Except Halt Unit :=
  if data.length < length then .error (.refused (.notEnoughData length data.length)) else .ok ()

/-- The byte at a place. -/
def byteAt (place : Nat) : Except Halt UInt8 :=
  match data[place]? with
  | some b => .ok b
  | none => .error (.outside place)

/-- The bytes from one place up to another. -/
def bytesBetween (first last : Nat) : Except Halt Bytes :=
  if last ≤ data.length then .ok ((data.take last).drop first) else .error (.outside last)

/-- Reads a number of parts, each behind the one before it. -/
def timesAt {α : Type} (part : Nat → Except Halt (α × Nat)) : Nat → Nat → Except Halt (List α × Nat)
  | 0, place => pure ([], place)
  | n + 1, place => do
    let (a, place) ← part place
    let (as, place) ← timesAt part n place
    pure (a :: as, place)

/-- The unit at a place, and the place behind it. -/
def unitAt (unitType : UnitType) (place : Nat) : Except Halt (Bytes × Nat) := do
  need data (place + 2)
  let high ← byteAt data place
  let low ← byteAt data (place + 1)
  let first := place + 2
  let last := first + (high.toNat * 256 + low.toNat)
  need data last
  let nal ← bytesBetween data first last
  (checkType unitType nal).mapError .refused
  pure (nal, last)

/-- The array at a place, and the place behind it. -/
def arrayAt (place : Nat) : Except Halt (NalArray × Nat) := do
  need data (place + 3)
  let kind ← byteAt data place
  let high ← byteAt data (place + 1)
  let low ← byteAt data (place + 2)
  let (units, last) ←
    timesAt (unitAt data (arrayType kind)) (high.toNat * 256 + low.toNat) (place + 3)
  pure ({ complete := 128 ≤ kind, unitType := arrayType kind, units }, last)

/-- The record at the front of the data, and the place behind it. -/
def recordAt : Except Halt (DecoderConfig × Nat) := do
  need data 23
  let version ← byteAt data 0
  if version ≠ 1 then
    throw (.refused (.unsupportedVersion version.toNat))
  let count ← byteAt data 22
  let (arrays, last) ← timesAt (arrayAt data) count.toNat 23
  let fixed ← bytesBetween data 0 23
  pure ({ fixed := toFixed fixed, arrays }, last)

/-- The record at the front of the data, read by position. -/
def decodeAt : Except Halt DecoderConfig :=
  Prod.fst <$> recordAt data

/-! ## Both ways of reading -/

/-- What is left of the data from a place on. -/
def cursorAt (place : Nat) : ByteCursor :=
  ⟨data.drop place, place⟩

/-- Reading has the same outcome, and goes on at the same place within the data. -/
inductive Matches {α : Type} : EStateM.Result ConfigError ByteCursor α → Except Halt (α × Nat) → Prop
  | ok {a : α} {place : Nat} (h : place ≤ data.length) :
      Matches (.ok a (cursorAt data place)) (.ok (a, place))
  | error {e : ConfigError} {c : ByteCursor} : Matches (.error e c) (.error (.refused e))

end Positions

variable {data : Bytes} {α β : Type} {place : Nat}

theorem Matches.bind {p : ByteReader α} {f : α → ByteReader β} {c : ByteCursor}
    {q : Except Halt (α × Nat)} {g : α × Nat → Except Halt (β × Nat)} (hp : Matches data (p c) q)
    (hf : ∀ a place, place ≤ data.length → Matches data (f a (cursorAt data place)) (g (a, place))) :
    Matches data ((p >>= f) c) (q >>= g) := by
  cases hpc : p c with
  | ok a c' =>
    rw [hpc] at hp
    rw [step_bind_of_ok hpc]
    cases hp with
    | ok h => exact hf a _ h
  | error e c' =>
    rw [hpc] at hp
    rw [step_bind_of_error hpc]
    cases hp
    exact .error

/-- Bytes are taken where the data are found to be long enough for them. -/
theorem matches_take {n : Nat} {f : Bytes → ByteReader α} {g : Except Halt (α × Nat)}
    (hplace : place ≤ data.length)
    (h : place + n ≤ data.length →
      Matches data (f ((data.drop place).take n) (cursorAt data (place + n))) g) :
    Matches data ((takeBytes n >>= f) (cursorAt data place)) (need data (place + n) >>= fun _ => g) := by
  by_cases hn : place + n ≤ data.length
  · have htake : takeBytes n (cursorAt data place) =
        .ok ((data.drop place).take n) (cursorAt data (place + n)) := by
      rw [takeBytes, if_neg (by simp [cursorAt]; omega)]
      simp [cursorAt, List.drop_drop]
    rw [step_bind_of_ok htake, need, if_neg (by omega)]
    exact h hn
  · have hlength : place + (data.length - place) = data.length := by omega
    have htake : takeBytes n (cursorAt data place) =
        .error (.notEnoughData (place + n) data.length) (cursorAt data place) := by
      rw [takeBytes, if_pos (by simp [cursorAt]; omega)]
      simp [cursorAt, hlength]
    rw [step_bind_of_error htake, need, if_pos (by omega)]
    exact .error

theorem matches_timesAt {p : ByteReader α} {part : Nat → Except Halt (α × Nat)}
    (h : ∀ place, place ≤ data.length → Matches data (p (cursorAt data place)) (part place))
    (n : Nat) (hplace : place ≤ data.length) :
    Matches data (timesBytes n p (cursorAt data place)) (timesAt part n place) := by
  induction n generalizing place with
  | zero => exact .ok hplace
  | succ n ih =>
    refine (h place hplace).bind fun a next hnext => ?_
    refine (ih hnext).bind fun as last hlast => ?_
    exact .ok hlast

/-! ## The parts of a record -/

theorem byteAt_eq (h : place < data.length) : byteAt data place = .ok data[place] := by
  rw [byteAt, List.getElem?_eq_getElem h]

theorem bytesBetween_eq {n : Nat} (h : place + n ≤ data.length) :
    bytesBetween data place (place + n) = .ok ((data.drop place).take n) := by
  rw [bytesBetween, if_pos h, List.drop_take, Nat.add_sub_cancel_left]

theorem bigEndian_pair (a b : UInt8) : bigEndian [a, b] = a.toNat * 256 + b.toNat := by
  simp [bigEndian]

theorem take_drop_succ {n : Nat} (h : place < data.length) :
    (data.drop place).take (n + 1) = data[place] :: (data.drop (place + 1)).take n := by
  rw [List.drop_eq_getElem_cons h, List.take_succ_cons]

theorem matches_checkType {unitType : UnitType} {nal : Bytes} (h : place ≤ data.length) :
    Matches data
      ((match checkType unitType nal with
        | .ok () => pure nal
        | .error e => throw e : ByteReader Bytes) (cursorAt data place))
      (do
        (checkType unitType nal).mapError .refused
        pure (nal, place)) := by
  cases checkType unitType nal with
  | ok => exact .ok h
  | error e => exact .error

theorem matches_unitAt (unitType : UnitType) (hplace : place ≤ data.length) :
    Matches data (parseUnit unitType (cursorAt data place)) (unitAt data unitType place) := by
  refine matches_take hplace fun hlength => ?_
  have htaken : (data.drop place).take 2 = [data[place], data[place + 1]] := by
    rw [take_drop_succ (by omega), take_drop_succ (by omega), List.take_zero]
  rw [htaken, bigEndian_pair, byteAt_eq (by omega), byteAt_eq (by omega)]
  refine matches_take hlength fun hunit => ?_
  rw [bytesBetween_eq hunit]
  exact matches_checkType hunit

theorem matches_arrayAt (hplace : place ≤ data.length) :
    Matches data (parseArray (cursorAt data place)) (arrayAt data place) := by
  refine matches_take hplace fun hhead => ?_
  have htaken : (data.drop place).take 3 = [data[place], data[place + 1], data[place + 2]] := by
    rw [take_drop_succ (by omega), take_drop_succ (by omega), take_drop_succ (by omega),
      List.take_zero]
  rw [htaken, byteAt_eq (by omega), byteAt_eq (by omega), byteAt_eq (by omega)]
  show Matches data ((timesBytes (bigEndian [data[place + 1], data[place + 2]]) _ >>= _) _) _
  rw [bigEndian_pair]
  have hunits := matches_timesAt (fun _ => matches_unitAt (arrayType data[place]))
    (data[place + 1].toNat * 256 + data[place + 2].toNat) hhead
  exact hunits.bind fun units last hlast => .ok hlast

theorem toFixed_getElem {bytes : Bytes} {i : Nat} (hi : i < 23) (h : i < bytes.length) :
    (toFixed bytes)[i] = bytes[i] := by
  simp [toFixed, h]

theorem matches_recordAt (data : Bytes) : Matches data (parse (cursorAt data 0)) (recordAt data) := by
  rw [parse, bind_map_left]
  refine matches_take (n := 23) (Nat.zero_le _) fun hlength => ?_
  have hfixed : bytesBetween data 0 23 = .ok ((data.drop 0).take 23) := bytesBetween_eq hlength
  have hversion : byteAt data 0 = .ok (toFixed ((data.drop 0).take 23))[0] := by
    rw [byteAt_eq (by omega), toFixed_getElem (by omega) (by simp; omega)]
    simp
  have hcount : byteAt data 22 = .ok (toFixed ((data.drop 0).take 23))[22] := by
    rw [byteAt_eq (by omega), toFixed_getElem (by omega) (by simp; omega)]
    simp
  rw [hfixed, hversion, hcount]
  generalize hread : toFixed ((data.drop 0).take 23) = fixed
  by_cases hone : fixed[0] = 1
  · rw [if_neg (not_not_intro hone)]
    show Matches data _ (if fixed[0] ≠ 1 then _ else _)
    rw [if_neg (not_not_intro hone)]
    refine (matches_timesAt (fun _ => matches_arrayAt) _ hlength).bind fun arrays last hlast => ?_
    subst hread
    exact .ok hlast
  · rw [if_pos hone]
    show Matches data _ (if fixed[0] ≠ 1 then _ else _)
    rw [if_pos hone]
    exact .error

/-- A record that is read by position is read as it is from the front to the back. So no byte is ever asked
for at a place that the data do not have. -/
theorem decodeAt_eq (data : Bytes) : decodeAt data = (decode data).mapError .refused := by
  have h : Matches data (parse ⟨data, 0⟩) (recordAt data) := matches_recordAt data
  rw [decodeAt, decode]
  cases hparse : parse ⟨data, 0⟩ with
  | ok config c =>
    rw [hparse] at h
    generalize recordAt data = located at h
    cases h
    rfl
  | error e c =>
    rw [hparse] at h
    generalize recordAt data = located at h
    cases h
    rfl

end TiledVideo.DecoderConfig
