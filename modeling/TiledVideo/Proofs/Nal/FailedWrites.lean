import TiledVideo.Proofs.Bitstream.Escaping
import TiledVideo.Proofs.Nal.Framing

/-!
# Writes that fail

A write takes several steps. A start code comes before the two bytes of a header, a code word is zero
bits and then a number, and bytes are counted before they are taken out. A step that fails leaves what the
steps before it have made of the stream, so a write might fail halfway. None does: whatever can be refused
is looked at before anything is written. A stream that has refused a write is thus the stream that it was,
and those who use it can go on.

Results:

* `Steps.zeroBits_eq`, `Steps.expGolomb_eq`, `Steps.fillByte_eq`: what comes of several steps.
* `Operation.steps_eq`: an operation in steps is the operation as a whole.
* `run_without_failed`: a run of operations is the run of those among them that succeed.
-/

namespace TiledVideo

theorem Bits.ofNat_zero (n : Nat) : ofNat n 0 = List.replicate n false := by
  induction n with
  | zero => rfl
  | succ n ih => rw [ofNat, ih, Nat.zero_testBit, List.replicate_succ]

namespace BitStream

theorem length_pending_append (s : BitStream) (b : Bool) :
    (s.append [b]).pending.length = (s.pending.length + 1) % 8 := by
  rw [append, Bits.length_leftover, List.length_append, List.length_singleton]

/-! ## Steps -/

/-- Writes in steps. A step that fails leaves the stream that those before it have made. -/
abbrev Steps := EStateM WriteError BitStream

namespace Steps

/-- The byte stream, if no byte has been begun. -/
def bytesOnly : Steps EscapedStream := fun s =>
  match s.wholeBytes with
  | .ok out => .ok out s
  | .error e => .error e s

/-- Writes a bit. -/
def bit (b : Bool) : Steps Unit :=
  modify fun s => s.append [b]

/-- Writes a number of 32 bits in `n` bits. -/
def bits (n v : Nat) : Steps Unit :=
  if n = 0 then pure ()
  else if n > 32 ∨ n < 32 ∧ v / 2 ^ n ≠ 0 then throw (.invalidValue "bits" v)
  else modify fun s => s.append (Bits.ofNat n v)

/-- Writes zero bits, no more than 32 at once. -/
def zeroBits (n : Nat) : Steps Unit :=
  if n = 0 then pure ()
  else do
    bits (min n 32) 0
    zeroBits (n - min n 32)
termination_by n

/-- Writes an Exp-Golomb code. The number behind the zero bits may have 33 bits, of which the first is
then written on its own. -/
def expGolomb (v : Nat) : Steps Unit := do
  let k := Nat.log2 (v + 1)
  zeroBits k
  if k = 32 then
    bit true
    bits 32 ((v + 1) % 2 ^ 32)
  else
    bits (k + 1) ((v + 1) % 2 ^ 32)

/-- Writes zero bits, one at a time, to the end of the byte that has been begun. -/
def fillByte (s : BitStream) : BitStream :=
  if s.aligned then s else fillByte (s.append [false])
termination_by if s.aligned then 0 else 8 - s.pending.length % 8
decreasing_by
  next h =>
    have hlength := length_pending_append s false
    have haligned := aligned_append_iff s [false]
    rw [if_neg h]
    split
    · omega
    · next hnot =>
      rw [haligned, List.length_singleton] at hnot
      omega

/-- Writes bytes as they are. -/
def raw (bytes : Bytes) : Steps Unit :=
  modify fun s => { s with out := s.out.writeRaw bytes }

end Steps

/-! ## Operations -/

/-- What can be asked of a stream. -/
inductive Operation where
  | bit (b : Bool)
  | bits (width value : UInt32)
  | ue (v : UInt32)
  | se (x : Int32)
  | close
  | nalHeader (unitType : UnitType) (temporalId : UInt8) (long : Bool)
  | payload (bytes : Bytes)
  | byteCount
  | fetch (room : Nat)
  | take
  | reset
  deriving DecidableEq

/-- What an operation that succeeds answers. -/
inductive Answer where
  | done
  | count (n : Nat)
  | bytes (bytes : Bytes)
  deriving DecidableEq, Repr

namespace Operation

/-- The operation as a whole. -/
def perform (s : BitStream) : Operation → Except WriteError (Answer × BitStream)
  | bit b => pure (.done, s.append [b])
  | bits n v => (.done, ·) <$> s.appendCode (.uint n.toNat v.toNat)
  | ue v => (.done, ·) <$> s.appendCode (.ue v.toNat)
  | se x => (.done, ·) <$> s.appendCode (.se x.toInt)
  | close => pure (.done, s.close)
  | nalHeader unitType temporalId long =>
    (.done, ·) <$> s.nalHeader unitType temporalId.toNat long
  | payload bytes => (.done, ·) <$> s.payload bytes
  | byteCount => (.count ·, s) <$> s.byteCount
  | fetch room => (.bytes ·, s) <$> s.fetch room
  | take => (fun taken => (.bytes taken.1, taken.2)) <$> s.take
  | reset => pure (.done, empty)

/-- The operation in steps. -/
def steps : Operation → Steps Answer
  | bit b => do
    Steps.bit b
    pure .done
  | bits n v => do
    Steps.bits n.toNat v.toNat
    pure .done
  | ue v => do
    Steps.expGolomb v.toNat
    pure .done
  | se x => do
    Steps.expGolomb (ExpGolomb.ofSigned x.toInt)
    pure .done
  | close => do
    Steps.bit true
    modify Steps.fillByte
    pure .done
  | nalHeader unitType temporalId long => do
    if temporalId.toNat > 6 then
      throw (.invalidValue "nuh_temporal_id_plus1" (temporalId.toNat + 1))
    let _ ← Steps.bytesOnly
    if long then
      Steps.raw [0]
    Steps.raw startCode
    Steps.bits 8 (unitType.id.val * 2)
    Steps.bits 8 (temporalId.toNat + 1)
    pure .done
  | payload bytes => do
    let _ ← Steps.bytesOnly
    modify fun s => { s with out := s.out.write bytes }
    pure .done
  | byteCount => do
    let out ← Steps.bytesOnly
    pure (.count out.count)
  | fetch room => do
    let out ← Steps.bytesOnly
    if out.bytes.length ≤ room then
      pure (.bytes out.bytes)
    else
      throw (.invalidValue "fetch_into buffer length" out.bytes.length)
  | take => do
    let _ ← Steps.bytesOnly
    modify fun s => { s with out := { s.out with zeros := 0, count := 0 } }
    let s ← get
    set { s with out := { s.out with bytes := [] } }
    pure (.bytes s.out.bytes)
  | reset => do
    set empty
    pure .done

end Operation

/-! ## Runs -/

/-- Operations one after another, each on the stream that the one before it has left, also by failing. -/
def run : List Operation → BitStream → List (Except WriteError Answer) × BitStream
  | [], s => ([], s)
  | op :: ops, s =>
    match op.steps s with
    | .ok a s' => (.ok a :: (run ops s').1, (run ops s').2)
    | .error e s' => (.error e :: (run ops s').1, (run ops s').2)

/-- Operations one after another, each as a whole. -/
def performAll : List Operation → BitStream → List (Except WriteError Answer) × BitStream
  | [], s => ([], s)
  | op :: ops, s =>
    match op.perform s with
    | .ok (a, s') => (.ok a :: (performAll ops s').1, (performAll ops s').2)
    | .error e => (.error e :: (performAll ops s).1, (performAll ops s).2)

/-- The operations that succeed, with their answers. -/
def succeeded (ops : List Operation) (answers : List (Except WriteError Answer)) :
    List (Operation × Except WriteError Answer) :=
  (ops.zip answers).filter fun done => done.2.isOk

/-- A stream that writes to the end of bytes that are there already. -/
def ofBytes (bytes : Bytes) : BitStream where
  out := { bytes }

variable {s : BitStream}

/-! ## What comes of several steps -/

/-- The byte that has been begun is not complete. -/
def Short (s : BitStream) : Prop :=
  s.pending.length < 8

theorem short_append (s : BitStream) (bits : BitString) : (s.append bits).Short := by
  show (Bits.leftover _).length < 8
  rw [Bits.length_leftover]
  omega

theorem short_of_nil (h : s.pending = []) : s.Short := by
  rw [Short, h]
  decide

namespace Steps

theorem bits_eq {n v : Nat} (hs : s.Short) (hn : n ≤ 32) (hv : v < 2 ^ n) :
    bits n v s = .ok () (s.append (Bits.ofNat n v)) := by
  rw [bits]
  split
  · next hzero =>
    subst hzero
    rw [show Bits.ofNat 0 v = [] from rfl, append_nil hs]
    rfl
  · rw [if_neg]
    · rfl
    · rintro (h | ⟨-, h⟩)
      · omega
      · exact h (Nat.div_eq_of_lt hv)

theorem zeroBits_eq {n : Nat} (hs : s.Short) :
    zeroBits n s = .ok () (s.append (List.replicate n false)) := by
  induction n using Nat.strongRecOn generalizing s with
  | ind n ih =>
    rw [zeroBits]
    split
    · next hzero =>
      subst hzero
      rw [List.replicate_zero, append_nil hs]
      rfl
    · next hpos =>
      have hfirst : bits (min n 32) 0 s = .ok () (s.append (List.replicate (min n 32) false)) := by
        rw [← Bits.ofNat_zero]
        exact bits_eq hs (Nat.min_le_right n 32) (Nat.two_pow_pos _)
      rw [step_bind_of_ok hfirst, ih (n - min n 32) (by omega) (short_append s _), append_append,
        List.replicate_append_replicate]
      congr 4
      omega

/-- Code words up to that of `2 ^ 32` are written. -/
theorem expGolomb_eq {v : Nat} (hs : s.Short) (hv : v ≤ 2 ^ 32) :
    expGolomb v s = .ok () (s.append (ExpGolomb.word v)) := by
  have hlow : 2 ^ Nat.log2 (v + 1) ≤ v + 1 := Nat.log2_self_le (by omega)
  have hhigh : v + 1 < 2 ^ (Nat.log2 (v + 1) + 1) := Nat.lt_log2_self
  rw [expGolomb, step_bind_of_ok (zeroBits_eq hs)]
  have hshort := short_append s (List.replicate (Nat.log2 (v + 1)) false)
  split
  · next hk =>
    rw [hk] at hlow
    have hbit : bit true (s.append (List.replicate (Nat.log2 (v + 1)) false)) =
        .ok () ((s.append (List.replicate (Nat.log2 (v + 1)) false)).append [true]) := rfl
    have hrest : Bits.ofNat 32 ((v + 1) % 2 ^ 32) = Bits.ofNat 32 (v + 1) := by
      have hlt : (v + 1) % 2 ^ 32 < 2 ^ 32 := Nat.mod_lt _ (Nat.two_pow_pos _)
      have hsplit : v + 1 = (v + 1) / 2 ^ 32 * 2 ^ 32 + (v + 1) % 2 ^ 32 := by omega
      conv_rhs => rw [hsplit]
      rw [Bits.ofNat_add_of_le (Nat.le_refl 32) hlt]
    rw [step_bind_of_ok hbit, bits_eq (short_append _ _) (Nat.le_refl 32)
      (Nat.mod_lt _ (Nat.two_pow_pos _)), hrest, append_append, append_append, ExpGolomb.word_eq,
      hk]
    rfl
  · next hk =>
    have hlt : Nat.log2 (v + 1) < 32 := by
      have hle : Nat.log2 (v + 1) < 33 := (Nat.log2_lt (by omega)).2 (by omega)
      omega
    have hpow : 2 ^ (Nat.log2 (v + 1) + 1) ≤ 2 ^ 32 := Nat.pow_le_pow_right (by decide) hlt
    rw [Nat.mod_eq_of_lt (by omega), bits_eq hshort hlt hhigh, append_append, ExpGolomb.word]

theorem fillByte_eq {n : Nat} (hs : s.Short) (hn : n < 8) (h : (s.pending.length + n) % 8 = 0) :
    fillByte s = s.append (List.replicate n false) := by
  induction n generalizing s with
  | zero =>
    have hnil : s.pending = [] := List.length_eq_zero_iff.1 (by rw [Short] at hs; omega)
    rw [fillByte, if_pos ((aligned_iff s).2 hnil), List.replicate_zero, append_nil hs]
  | succ n ih =>
    have hbegun : ¬ s.aligned = true := by
      rw [aligned_iff, ← List.length_eq_zero_iff]
      omega
    have hlength := length_pending_append s false
    rw [fillByte, if_neg hbegun, ih (short_append s _) (by omega) (by omega), append_append,
      List.singleton_append, List.replicate_succ]

end Steps

/-! ## Operations that fail -/

/-- An operation as a whole, on a stream that it leaves as it was if it fails. -/
def whole (s : BitStream) : Except WriteError (Answer × BitStream) →
    EStateM.Result WriteError BitStream Answer
  | .ok (a, s') => .ok a s'
  | .error e => .error e s

theorem wholeBytes_of_begun (h : s.pending ≠ []) : s.wholeBytes = .error .notByteAligned :=
  if_neg fun haligned => h ((aligned_iff s).1 haligned)

namespace Steps

theorem bytesOnly_eq (h : s.pending = []) : bytesOnly s = .ok s.out s := by
  rw [bytesOnly, wholeBytes_eq h]

theorem bytesOnly_of_begun (h : s.pending ≠ []) : bytesOnly s = .error .notByteAligned s := by
  rw [bytesOnly, wholeBytes_of_begun h]

/-- A byte is written to whole bytes. -/
theorem bits_eight (h : s.pending = []) {v : Nat} (hv : v < 2 ^ 8) :
    bits 8 v s = .ok () { s with out := s.out.write [UInt8.ofNat v] } := by
  have hbyte : Bits.ofNat 8 v = Bits.ofBytes [UInt8.ofNat v] := by
    rw [Bits.ofBytes_cons, Bits.ofBytes_nil, List.append_nil, Bits.ofByte,
      UInt8.toNat_ofNat_of_lt' hv]
  have hpayload := payload_of_aligned ((aligned_iff s).2 h) [UInt8.ofNat v]
  rw [payload_eq h] at hpayload
  rw [bits_eq (short_of_nil h) (by decide) hv, hbyte, ← Except.ok.inj hpayload]

end Steps

/-- An operation that asks for whole bytes first fails there, or goes on with them. -/
theorem whole_bytesOnly {f : EscapedStream → Steps Answer}
    {g : EscapedStream → Except WriteError (Answer × BitStream)}
    (h : s.pending = [] → f s.out s = whole s (g s.out)) :
    (Steps.bytesOnly >>= f) s = whole s (s.wholeBytes >>= g) := by
  by_cases hwhole : s.pending = []
  · rw [step_bind_of_ok (Steps.bytesOnly_eq hwhole), wholeBytes_eq hwhole]
    exact h hwhole
  · rw [step_bind_of_error (Steps.bytesOnly_of_begun hwhole), wholeBytes_of_begun hwhole]
    rfl

/-- A number of 32 bits has a code in steps exactly if it has one as a whole. -/
theorem steps_bits_eq (hs : s.Short) {n v : Nat} (hv : v < 2 ^ 32) :
    Steps.bits n v s = match Code.uint n v with
      | .ok bits => .ok () (s.append bits)
      | .error e => .error e s := by
  by_cases hzero : n = 0
  · subst hzero
    show EStateM.Result.ok () s = .ok () (s.append [])
    rw [append_nil hs]
  by_cases hwide : n > 32
  · rw [Steps.bits, if_neg hzero, if_pos (.inl hwide), Code.uint, if_neg hzero, if_pos hwide]
    rfl
  by_cases hfits : v < 2 ^ n
  · rw [Steps.bits_eq hs (Nat.not_lt.1 hwide) hfits, Code.uint_eq_ok (Nat.not_lt.1 hwide) hfits]
  · have hnarrow : n < 32 := by
      refine Nat.lt_of_le_of_ne (Nat.not_lt.1 hwide) ?_
      rintro rfl
      exact hfits hv
    have hlost : v / 2 ^ n ≠ 0 := by
      rw [Nat.div_ne_zero_iff]
      exact ⟨Nat.ne_of_gt (Nat.two_pow_pos n), Nat.not_lt.1 hfits⟩
    rw [Steps.bits, if_neg hzero, if_pos (.inr ⟨hnarrow, hlost⟩), Code.uint, if_neg hzero,
      if_neg hwide, if_neg hfits]
    rfl

/-- The two bytes of a header are numbers of eight bits. -/
theorem steps_headerBytes (h : s.pending = []) (unitType : UnitType) {temporalId : Nat}
    (ht : temporalId ≤ 6) :
    (do
      Steps.bits 8 (unitType.id.val * 2)
      Steps.bits 8 (temporalId + 1)
      pure Answer.done : Steps Answer) s =
        .ok .done { s with out := s.out.write (headerBytes unitType temporalId) } := by
  have htype : unitType.id.val * 2 < 2 ^ 8 := by
    have hlt := unitType.id.isLt
    omega
  rw [step_bind_of_ok (Steps.bits_eight h htype),
    step_bind_of_ok (Steps.bits_eight (by exact h) (by omega))]
  show EStateM.Result.ok _ { s with out := (s.out.write _).write _ } = _
  rw [← EscapedStream.write_append]
  rfl

theorem steps_nalHeader_eq (unitType : UnitType) (temporalId : UInt8) (long : Bool) :
    (Operation.nalHeader unitType temporalId long).steps s =
      whole s ((Operation.nalHeader unitType temporalId long).perform s) := by
  by_cases ht : temporalId.toNat > 6
  · rw [Operation.steps, if_pos ht, Operation.perform, nalHeader, if_pos ht]
    rfl
  rw [Operation.steps, if_neg ht, Operation.perform, nalHeader, if_neg ht]
  simp only [map_bind]
  refine whole_bytesOnly fun h => ?_
  cases long with
  | false =>
    exact steps_headerBytes (s := { s with out := s.out.writeRaw startCode }) h unitType
      (Nat.not_lt.1 ht)
  | true =>
    -- the zero byte and the start code are written one after the other
    have hraw : (s.out.writeRaw [0]).writeRaw startCode = s.out.writeRaw (0 :: startCode) := by
      simp only [EscapedStream.writeRaw, List.append_assoc]
      rfl
    refine (steps_headerBytes (s := { s with out := (s.out.writeRaw [0]).writeRaw startCode }) h
      unitType (Nat.not_lt.1 ht)).trans ?_
    rw [hraw]
    rfl

theorem steps_eq (hs : s.Short) (op : Operation) : op.steps s = whole s (op.perform s) := by
  cases op with
  | bit b => rfl
  | bits n v =>
    have hbits := steps_bits_eq hs (n := n.toNat) v.toNat_lt
    rw [Operation.perform, appendCode]
    cases hcode : Code.uint n.toNat v.toNat with
    | ok bits =>
      rw [hcode] at hbits
      rw [Operation.steps, step_bind_of_ok hbits]
      rfl
    | error e =>
      rw [hcode] at hbits
      rw [Operation.steps, step_bind_of_error hbits]
      rfl
  | ue v =>
    have hv : v.toNat ≤ 2 ^ 32 := Nat.le_of_lt v.toNat_lt
    rw [Operation.steps, step_bind_of_ok (Steps.expGolomb_eq hs hv)]
    rfl
  | se x =>
    have hx : ExpGolomb.ofSigned x.toInt ≤ 2 ^ 32 := by
      have hlow := x.le_toInt
      have hhigh := x.toInt_lt
      unfold ExpGolomb.ofSigned
      split <;> omega
    rw [Operation.steps, step_bind_of_ok (Steps.expGolomb_eq hs hx)]
    rfl
  | close =>
    have hfill : Steps.fillByte (s.append [true]) = s.close := by
      have hlength := length_pending_append s true
      rw [Steps.fillByte_eq (n := 7 - s.pending.length % 8) (short_append s _) (by omega) (by omega),
        append_append]
      rfl
    show EStateM.Result.ok Answer.done (Steps.fillByte (s.append [true])) = _
    rw [hfill]
    rfl
  | nalHeader unitType temporalId long => exact steps_nalHeader_eq unitType temporalId long
  | payload bytes =>
    rw [Operation.steps, Operation.perform, payload, map_bind]
    exact whole_bytesOnly fun _ => rfl
  | byteCount =>
    rw [Operation.steps, Operation.perform, byteCount, Functor.map_map, map_eq_pure_bind]
    exact whole_bytesOnly fun _ => rfl
  | fetch room =>
    rw [Operation.steps, Operation.perform, fetch, map_bind]
    refine whole_bytesOnly fun _ => ?_
    split <;> rfl
  | take =>
    rw [Operation.steps, Operation.perform, take, map_bind]
    refine whole_bytesOnly fun h => ?_
    show EStateM.Result.ok _ { s with out := {} } = .ok _ empty
    rw [h]
    rfl
  | reset => rfl

/-! ## Runs without what fails -/

theorem short_of_perform (hs : s.Short) {op : Operation} {a : Answer} {s' : BitStream}
    (h : op.perform s = .ok (a, s')) : s'.Short := by
  cases op with
  | bit b =>
    cases h
    exact short_append s _
  | bits n v =>
    obtain ⟨t, ht, ⟨⟩⟩ := map_eq_ok_iff.1 h
    obtain ⟨bits, -, rfl⟩ := map_eq_ok_iff.1 ht
    exact short_append s bits
  | ue v =>
    cases h
    exact short_append s _
  | se x =>
    cases h
    exact short_append s _
  | close =>
    cases h
    exact short_append s _
  | nalHeader unitType temporalId long =>
    obtain ⟨t, ht, ⟨⟩⟩ := map_eq_ok_iff.1 h
    rw [nalHeader] at ht
    split at ht
    · cases ht
    · obtain ⟨out, -, ⟨⟩⟩ := bind_eq_ok_iff.1 ht
      exact hs
  | payload bytes =>
    obtain ⟨t, ht, ⟨⟩⟩ := map_eq_ok_iff.1 h
    obtain ⟨out, -, ⟨⟩⟩ := bind_eq_ok_iff.1 ht
    exact hs
  | byteCount =>
    obtain ⟨n, -, ⟨⟩⟩ := map_eq_ok_iff.1 h
    exact hs
  | fetch room =>
    obtain ⟨bytes, -, ⟨⟩⟩ := map_eq_ok_iff.1 h
    exact hs
  | take =>
    obtain ⟨⟨bytes, t⟩, ht, ⟨⟩⟩ := map_eq_ok_iff.1 h
    obtain ⟨out, -, ⟨⟩⟩ := bind_eq_ok_iff.1 ht
    exact short_of_nil rfl
  | reset =>
    cases h
    exact short_of_nil rfl

variable {op : Operation} {ops : List Operation}

theorem run_cons_of_ok (hs : s.Short) {a : Answer} {s' : BitStream}
    (h : op.perform s = .ok (a, s')) :
    run (op :: ops) s = (.ok a :: (run ops s').1, (run ops s').2) := by
  rw [run, steps_eq hs, h]
  rfl

/-- What comes after an operation that fails goes on as if it had not been there. -/
theorem run_cons_of_error (hs : s.Short) {e : WriteError} (h : op.perform s = .error e) :
    run (op :: ops) s = (.error e :: (run ops s).1, (run ops s).2) := by
  rw [run, steps_eq hs, h]
  rfl

theorem run_eq_performAll (hs : s.Short) : run ops s = performAll ops s := by
  induction ops generalizing s with
  | nil => rfl
  | cons op ops ih =>
    rw [performAll]
    cases h : op.perform s with
    | ok done =>
      obtain ⟨a, s'⟩ := done
      rw [run_cons_of_ok hs h, ih (short_of_perform hs h)]
    | error e => rw [run_cons_of_error hs h, ih hs]

theorem length_run (hs : s.Short) : (run ops s).1.length = ops.length := by
  induction ops generalizing s with
  | nil => rfl
  | cons op ops ih =>
    cases h : op.perform s with
    | ok done =>
      obtain ⟨a, s'⟩ := done
      rw [run_cons_of_ok hs h, List.length_cons, ih (short_of_perform hs h), List.length_cons]
    | error e => rw [run_cons_of_error hs h, List.length_cons, ih hs, List.length_cons]

theorem run_succeeded (hs : s.Short) :
    run ((succeeded ops (run ops s).1).map Prod.fst) s =
      ((succeeded ops (run ops s).1).map Prod.snd, (run ops s).2) := by
  induction ops generalizing s with
  | nil => rfl
  | cons op ops ih =>
    cases h : op.perform s with
    | ok done =>
      obtain ⟨a, s'⟩ := done
      have hkept : succeeded (op :: ops) (.ok a :: (run ops s').1) =
          (op, .ok a) :: succeeded ops (run ops s').1 := rfl
      rw [run_cons_of_ok hs h, hkept, List.map_cons, run_cons_of_ok hs h,
        ih (short_of_perform hs h)]
      rfl
    | error e =>
      have hkept : succeeded (op :: ops) (.error e :: (run ops s).1) =
          succeeded ops (run ops s).1 := rfl
      rw [run_cons_of_error hs h, hkept]
      exact ih hs

/-- The operations that fail can be left out: the others answer as they did, and the stream ends with the
same bytes, the same bits of a byte that has been begun, and the same state of counting and escaping. The
same is so of operations that are not done in steps. -/
theorem run_without_failed (written : Bytes) (ops : List Operation) :
    run ((succeeded ops (run ops (ofBytes written)).1).map Prod.fst) (ofBytes written) =
        ((succeeded ops (run ops (ofBytes written)).1).map Prod.snd, (run ops (ofBytes written)).2) ∧
      (run ops (ofBytes written)).1.length = ops.length ∧
      run ops (ofBytes written) = performAll ops (ofBytes written) := by
  have hs : (ofBytes written).Short := short_of_nil rfl
  exact ⟨run_succeeded hs, length_run hs, run_eq_performAll hs⟩

example :
    (performAll
      [.bit true, .payload [1], .bits 3 8, .close, .nalHeader .vps 7 true, .fetch 0, .take]
      (ofBytes [])).1 =
      [.ok .done, .error .notByteAligned, .error (.invalidValue "bits" 8), .ok .done,
        .error (.invalidValue "nuh_temporal_id_plus1" 8),
        .error (.invalidValue "fetch_into buffer length" 1), .ok (.bytes [192])] := by
  decide

end BitStream

end TiledVideo
