import TiledVideo.Proofs.Bitstream.Exactness
import TiledVideo.Proofs.Nal.ByteStream

/-!
# Payloads that are read bit for bit

A reader that goes through to the end of a payload has read the code of what it gives, a stop bit and
zero bits. So the code fills the same bytes once it is closed, but for zero bytes at the end. A reader
of the front of a payload has read the bytes that the closed code fills.

Results:

* `ExactTo.bind`, `ExactTo.bind_pure`: readers that go on to an end are put together like others.
* `meets_of_elements`: demands on the elements of a payload.
* `ExactPayload.rewritten`: a payload that is read to its end is written again as it was.
* `ExactFront.rewritten`: so is the front of a payload.
-/

namespace TiledVideo

/-- The bytes that are written for the code make the payload once they are unescaped. -/
def Code.MakesPayload (code : Code) (payload : Bytes) : Prop :=
  ∃ bytes, code.toEscapedBytes = .ok bytes ∧ Emulation.unescape bytes = payload

namespace Reader

variable {ε α β : Type} {D : ε → Bool → Prop}

/-! ## Readers that go on to an end -/

/-- The bits that are read up to the end are those of the code of the value, as for `ExactAfter`. What
comes behind them is an end. -/
def ExactTo (D : ε → Bool → Prop) (ends : Cursor → Cursor → Prop) (p : Reader ε α)
    (encode : α → Code) (valid : α → Prop) (done : List Code) : Prop :=
  ∀ c a c', p c = .ok a c' → p.Meets D c → valid a →
    ∃ taken c₁, encode a = .concat done ++ .ok taken ∧ c.bits = taken ++ c₁.bits ∧
      c₁.position = c.position + taken.length ∧ ends c₁ c'

section Ends

variable {encode : β → Code} {valid : β → Prop} {done : List Code} {ends : Cursor → Cursor → Prop}

theorem exactTo_throw (e : ε) : (throw e : Reader ε β).ExactTo D ends encode valid done :=
  fun _ _ _ h => nomatch h

/-- A part that is read exactly if its value is one of those that valid values come from. -/
theorem ExactTo.bind_of_valid {p : Reader ε α} {f : α → Reader ε β} {encodePart : α → Code}
    {validPart : α → Prop} (hp : p.ExactAfter D encodePart validPart [])
    (hvalid : ∀ a b, (f a).Produces b → valid b → validPart a)
    (hf : ∀ a, p.Gives D a → (f a).ExactTo D ends encode valid (done ++ [encodePart a])) :
    (p >>= f).ExactTo D ends encode valid done := by
  intro c b c' h hmeets hb
  obtain ⟨a, c₁, hread, hlater⟩ := step_bind_eq_ok.1 h
  obtain ⟨xs, hxs, hfirst⟩ := hp c a c₁ hread hmeets.first (hvalid a b ⟨c₁, c', hlater⟩ hb)
  obtain ⟨ys, c₂, hys, hbits, hpos, hend⟩ :=
    hf a ⟨c, c₁, hread, hmeets.first⟩ c₁ b c' hlater (hmeets.rest hfirst) hb
  rw [concat_snoc hxs, Code.append_assoc] at hys
  refine ⟨xs ++ ys, c₂, hys, ?_, ?_, hend⟩
  · rw [hfirst.1, hbits, List.append_assoc]
  · rw [hpos, hfirst.2.1, List.length_append, Nat.add_assoc]

theorem ExactTo.bind {p : Reader ε α} {f : α → Reader ε β} {encodePart : α → Code}
    (hp : p.Exact D encodePart)
    (hf : ∀ a, p.Gives D a → (f a).ExactTo D ends encode valid (done ++ [encodePart a])) :
    (p >>= f).ExactTo D ends encode valid done :=
  .bind_of_valid hp (fun _ _ _ _ => trivial) hf

/-- Only what the codes at the front make together matters. -/
theorem ExactTo.of_concat {p : Reader ε β} {done' : List Code}
    (hp : p.ExactTo D ends encode valid done') (h : Code.concat done' = Code.concat done) :
    p.ExactTo D ends encode valid done := by
  unfold ExactTo at hp
  rw [h] at hp
  exact hp

/-- A part that is written after a check that cannot fail. -/
theorem ExactTo.check_bind {p : Reader ε α} {f : α → Reader ε β}
    (hp : (p >>= f).ExactTo D ends encode valid (done ++ [.empty])) :
    (p >>= f).ExactTo D ends encode valid done := by
  refine hp.of_concat ?_
  rw [Code.concat_append, Code.concat_empty_cons]
  exact Code.append_empty _

/-- A part that is written as several. -/
theorem ExactTo.bind_concat {p : Reader ε α} {f : α → Reader ε β} {encodeParts : α → List Code}
    (hp : p.Exact D fun a => .concat (encodeParts a))
    (hf : ∀ a, p.Gives D a → (f a).ExactTo D ends encode valid (done ++ encodeParts a)) :
    (p >>= f).ExactTo D ends encode valid done := by
  refine .bind hp fun a ha => (hf a ha).of_concat ?_
  rw [Code.concat_append, Code.concat_append, Code.concat_single]

theorem ExactTo.ensure_bind {f : Unit → Reader ε β} {condition : Bool} {e : ε}
    (hf : condition = true → (f ()).ExactTo D ends encode valid done) :
    (ensure condition e >>= f).ExactTo D ends encode valid done := by
  cases condition with
  | false => exact exactTo_throw e
  | true => exact hf rfl

theorem ExactTo.require_bind {f : α → Reader ε β} {value : Option α} {e : ε}
    (hf : ∀ a, value = some a → (f a).ExactTo D ends encode valid done) :
    (require value e >>= f).ExactTo D ends encode valid done := by
  cases value with
  | none => exact exactTo_throw e
  | some a => exact hf a rfl

theorem ExactTo.ofExcept_bind {f : α → Reader ε β} {value : Except ε α}
    (hf : ∀ a, value = .ok a → (f a).ExactTo D ends encode valid done) :
    (ofExcept value >>= f).ExactTo D ends encode valid done := by
  cases value with
  | error e => exact exactTo_throw e
  | ok a => exact hf a rfl

/-- What can only come to values that are not valid need not be looked at. -/
theorem exactTo_of_invalid {p : Reader ε β} (h : ∀ b, p.Produces b → ¬ valid b) :
    p.ExactTo D ends encode valid done :=
  fun c b c' hread _ hb => absurd hb (h b ⟨c, c', hread⟩)

/-- Nothing is read for a part whose value is known. -/
theorem ExactTo.pure_bind {f : α → Reader ε β} {a : α}
    (hf : (f a).ExactTo D ends encode valid done) :
    (pure a >>= f : Reader ε β).ExactTo D ends encode valid done :=
  hf

/-- The end of a structure is reached with its last part. -/
theorem ExactTo.bind_pure {p : Reader ε α} {g : α → β} {encodePart : α → Code}
    {validPart : α → Prop} (hp : p.ExactTo D ends encodePart validPart [])
    (hvalid : ∀ a, valid (g a) → validPart a)
    (h : ∀ a, p.Gives D a → valid (g a) → encode (g a) = .concat (done ++ [encodePart a])) :
    (p >>= fun a => pure (g a)).ExactTo D ends encode valid done := by
  intro c b c' hread hmeets hb
  obtain ⟨a, c₁, ha, hlast⟩ := step_bind_eq_ok.1 hread
  cases hlast
  obtain ⟨taken, c₂, hcode, hbits, hpos, hend⟩ := hp c a c' ha hmeets.first (hvalid a hb)
  exact ⟨taken, c₂, (h a ⟨c, c', ha, hmeets.first⟩ hb).trans (concat_snoc hcode), hbits, hpos, hend⟩

/-- What is read last is the end. -/
theorem ExactTo.end_bind_pure {p : Reader ε α} {b : β}
    (hp : ∀ c a c', p c = .ok a c' → p.Meets D c → ends c c')
    (h : valid b → encode b = .concat done) :
    (p >>= fun _ => pure b).ExactTo D ends encode valid done := by
  intro c b c' hread hmeets hb
  obtain ⟨a, c₁, ha, hlast⟩ := step_bind_eq_ok.1 hread
  cases hlast
  refine ⟨[], c, ?_, rfl, rfl, hp c a c' ha hmeets.first⟩
  rw [h hb]
  exact (Code.append_empty _).symm

end Ends

/-! ## Whole payloads -/

/-- The failure of a reader on some bits, if it fails. -/
def failure? (p : Reader ε α) (bits : BitString) : Option ε :=
  match p ⟨bits, 0⟩ with
  | .ok _ _ => none
  | .error e _ => some e

/-- All bits of an element are `b`: those bits in front of which the payload must end for the reader to
fail with `e`. -/
def ElementIs (p : Reader ε α) (payload : Bytes) (e : ε) (b : Bool) : Prop :=
  ∀ i (h : i < (Bits.ofBytes payload).length),
    p.failure? ((Bits.ofBytes payload).take i) = some e → (Bits.ofBytes payload)[i] = b

/-- Only other bits than those that are demanded need be looked for in the element. -/
instance [DecidableEq ε] (p : Reader ε α) (payload : Bytes) (e : ε) (b : Bool) :
    Decidable (p.ElementIs payload e b) :=
  decidable_of_iff (∀ i (h : i < (Bits.ofBytes payload).length), (Bits.ofBytes payload)[i] = b ∨
      p.failure? ((Bits.ofBytes payload).take i) ≠ some e) <|
    forall₂_congr fun _ _ => or_comm.trans imp_iff_not_or.symm

/-- Elements that have the bits demanded of them meet the demands. -/
theorem meets_of_elements {p : Reader ε α} {payload : Bytes} (elements : List (ε × Bool))
    (h : ∀ x ∈ elements, p.ElementIs payload x.1 x.2) :
    p.Meets (fun e b => ∀ x ∈ elements, x.1 = e → b = x.2) (.ofBytes payload) := by
  intro front b rest e c' hbits hfail x hx hxe
  have hlt : front.length < (Bits.ofBytes payload).length := by
    have hlength := congrArg List.length hbits
    rw [List.length_append, List.length_cons] at hlength
    exact Nat.lt_of_lt_of_eq (by omega) hlength.symm
  have hbits' : Bits.ofBytes payload = front ++ b :: rest := hbits
  have hfailure : p.failure? ((Bits.ofBytes payload).take front.length) = some x.1 := by
    rw [hbits', List.take_left, failure?, hxe]
    rw [show p ⟨front, 0⟩ = .error e c' from hfail]
  have helement := h x hx front.length hlt hfailure
  rw [← helement]
  simp [hbits']

/-- A stop bit and zero bits are left to read. -/
def AtStop (c _ : Cursor) : Prop :=
  ∃ n, c.bits = true :: List.replicate n false

/-- The bit that is set and the zero bits that fill its byte are left to read in front of what comes
next. -/
def AtAlignment (c c' : Cursor) : Prop :=
  c.bits = Code.stopBits c.position ++ c'.bits ∧ c'.position = c.position + (8 - c.position % 8)

theorem ensure_eq_ok {condition : Bool} {e : ε} {c c' : Cursor} {u : Unit}
    (h : ensure condition e c = .ok u c') : condition = true ∧ c' = c := by
  cases condition with
  | false => cases h
  | true =>
    cases h
    exact ⟨rfl, rfl⟩

theorem atStop_of_finish {c c' : Cursor} {u : Unit} (h : finish c = .ok u c') : AtStop c c' := by
  obtain ⟨bits, pos⟩ := c
  obtain ⟨more, c₁, hmore, h⟩ := step_bind_eq_ok.1 h
  cases hmore
  obtain ⟨_, c₂, hrest, h⟩ := step_bind_eq_ok.1 h
  obtain ⟨hzeros, hsame⟩ := ensure_eq_ok hrest
  clear hrest
  subst hsame
  obtain ⟨c₃, _, hget, h⟩ := step_bind_eq_ok.1 h
  cases hget
  obtain ⟨_, _, hset, -⟩ := step_bind_eq_ok.1 h
  obtain ⟨hhead, -⟩ := ensure_eq_ok hset
  cases bits with
  | nil => cases hhead
  | cons b rest =>
    obtain rfl : b = true := hhead
    refine ⟨rest.length, congrArg (true :: ·) (List.eq_replicate_iff.2 ⟨rfl, fun b hb => ?_⟩)⟩
    have hany : rest.any id = false := by simpa using hzeros
    simpa using List.any_eq_false.1 hany b hb

/-- The reader reads payloads to their end, and they are the closed codes of their values. -/
def ExactPayload (D : ε → Bool → Prop) (p : Reader ε α) (encode : α → Code) (valid : α → Prop) :
    Prop :=
  ∃ content : α → Code, (∀ a, encode a = (content a).closed) ∧ p.ExactTo D AtStop content valid []

/-- The reader reads fronts of payloads, and they are the closed codes of their values. -/
def ExactFront (D : ε → Bool → Prop) (p : Reader ε α) (encode : α → Code) (valid : α → Prop) :
    Prop :=
  ∃ content : α → Code, (∀ a, encode a = (content a).closed) ∧
    p.ExactTo D AtAlignment content valid []

theorem ofBytes_zeros (n : Nat) :
    Bits.ofBytes (List.replicate n 0) = List.replicate (8 * n) false := by
  induction n with
  | zero => rfl
  | succ n ih =>
    rw [List.replicate_succ, Bits.ofBytes_cons, ih, Nat.mul_succ, Nat.add_comm,
      List.replicate_add]
    rfl

/-- Zero bits behind a closed code are zero bytes. -/
theorem trimZeros_of_stop {payload : Bytes} {bits : BitString} {n : Nat}
    (h : Bits.ofBytes payload = bits ++ true :: List.replicate n false) :
    ByteStream.trimZeros payload = Bits.toBytes (bits ++ Code.stopBits bits.length) := by
  have hclosed : Code.closed (.ok bits) = .ok (bits ++ Code.stopBits bits.length) :=
    Code.closed_ok bits
  have hwhole := Bits.ofBytes_toBytes (Code.length_closed hclosed)
  have hlength := congrArg List.length h
  rw [Bits.length_ofBytes, List.length_append, List.length_cons, List.length_replicate] at hlength
  obtain ⟨zeros, rfl⟩ : ∃ zeros, n = 7 - bits.length % 8 + 8 * zeros :=
    ⟨(n - (7 - bits.length % 8)) / 8, by omega⟩
  have hbits : Bits.ofBytes payload =
      Bits.ofBytes (Bits.toBytes (bits ++ Code.stopBits bits.length) ++ List.replicate zeros 0) := by
    rw [h, Bits.ofBytes_append, hwhole, ofBytes_zeros, List.replicate_add, ← List.cons_append,
      List.append_assoc]
    rfl
  have hpayload := congrArg Bits.toBytes hbits
  rw [Bits.toBytes_ofBytes, Bits.toBytes_ofBytes] at hpayload
  obtain ⟨front, b, hlast, hb⟩ := Code.getLast?_closed hclosed
  rw [hpayload]
  refine ByteStream.trimZeros_append_zeros ?_ zeros
  rw [hlast]
  simpa using hb

/-- A payload that is read to its end is written again as it was, but for zero bytes at its end. -/
theorem ExactPayload.rewritten {p : Reader ε α} {encode : α → Code} {valid : α → Prop}
    {payload : Bytes} {a : α} (hp : p.ExactPayload D encode valid)
    (h : p.decode payload = .ok a) (hmeets : p.Meets D (.ofBytes payload)) (ha : valid a) :
    (encode a).MakesPayload (ByteStream.trimZeros payload) := by
  obtain ⟨content, hcontent, hp⟩ := hp
  obtain ⟨c', hread⟩ : ∃ c', p (.ofBytes payload) = .ok a c' := by
    unfold decode at h
    split at h
    · next b c hread =>
      cases h
      exact ⟨c, hread⟩
    · cases h
  obtain ⟨taken, c₁, hcode, hbits, -, n, hstop⟩ := hp _ a c' hread hmeets ha
  have hclosed : encode a = .ok (taken ++ Code.stopBits taken.length) := by
    rw [hcontent, hcode]
    rfl
  refine ⟨_, Code.toEscapedBytes_eq_ok.2 ⟨_, hclosed, rfl⟩, ?_⟩
  rw [Emulation.unescape_escape]
  rw [hstop] at hbits
  exact (trimZeros_of_stop hbits).symm

/-- The front of a payload that is read is written again as it was. -/
theorem ExactFront.rewritten {p : Reader ε α} {encode : α → Code} {valid : α → Prop}
    {payload : Bytes} {a : α} {n : Nat} (hp : p.ExactFront D encode valid)
    (h : p.decodeFront payload = .ok (a, n)) (hmeets : p.Meets D (.ofBytes payload)) (ha : valid a) :
    ∃ front rest, payload = front ++ rest ∧ n = 8 * front.length ∧
      (encode a).MakesPayload front := by
  obtain ⟨content, hcontent, hp⟩ := hp
  obtain ⟨rest, hread⟩ := decodeFront_eq_ok_iff.1 h
  obtain ⟨taken, c₁, hcode, hbits, hpos, hend, hn⟩ := hp _ a _ hread hmeets ha
  have hclosed : encode a = .ok (taken ++ Code.stopBits taken.length) := by
    rw [hcontent, hcode]
    rfl
  have hposition : c₁.position = taken.length := hpos.trans (Nat.zero_add _)
  have htotal : n = (taken ++ Code.stopBits taken.length).length := by
    rw [List.length_append, Code.length_stopBits, ← hposition]
    exact hn
  obtain ⟨k, hk⟩ : 8 ∣ n := by
    rw [htotal]
    exact Nat.dvd_of_mod_eq_zero (Code.length_closed (Code.closed_ok taken))
  rw [hend, hposition, ← List.append_assoc] at hbits
  -- the bytes in front are those of the closed code
  have hsplit : Bits.ofBytes (payload.take k) ++ Bits.ofBytes (payload.drop k) =
      taken ++ Code.stopBits taken.length ++ rest := by
    rw [← Bits.ofBytes_append, List.take_append_drop]
    exact hbits
  have hlength : (payload.take k).length = k := by
    have hall : 8 * payload.length = n + rest.length := by
      rw [← Bits.length_ofBytes, htotal, ← List.length_append]
      exact congrArg List.length hbits
    rw [List.length_take]
    omega
  have hfront : (Bits.ofBytes (payload.take k)).length =
      (taken ++ Code.stopBits taken.length).length := by
    rw [Bits.length_ofBytes, hlength, ← htotal, hk]
  refine ⟨payload.take k, payload.drop k, (List.take_append_drop k payload).symm,
    hk.trans (by rw [hlength]), _, Code.toEscapedBytes_eq_ok.2 ⟨_, hclosed, rfl⟩, ?_⟩
  rw [Emulation.unescape_escape, ← (List.append_inj hsplit hfront).1, Bits.toBytes_ofBytes]

end Reader

end TiledVideo
