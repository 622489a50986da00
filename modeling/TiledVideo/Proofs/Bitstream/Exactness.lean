import TiledVideo.Proofs.Bitstream.Prefixes

/-!
# Codes that are read bit for bit

`Reads` says that a code is read back. This module goes the other way: the bits that a reader has read
are the code of the value that it gives. It holds where each bit leaves its trace in the value. Other
bits are passed over, such as reserved ones, and for them the values that are written must be
demanded. Since a value says nothing of such a bit, it is named by its element: the bit belongs to the
element in which reading fails if the payload ends in front of the bit.

Results:

* `ExactAfter.bind`, `ExactAfter.pure`: a structure is read exactly if its elements are, and its code is
  made of theirs.
* `Exact.optional`, `Exact.optionalD`, `Exact.times`, `Exact.each`: parts that may be absent and lists
  of parts.
* `exact_flag`, `exact_uint`, `exact_ue`, `exact_se`: elements.
* `exact_skip`: bits that are passed over.
-/

namespace TiledVideo

namespace Code

theorem concat_single (code : Code) : concat [code] = code :=
  append_empty code

theorem concat_empty_cons (codes : List Code) : concat (empty :: codes) = concat codes :=
  empty_append _

theorem concat_ensure_cons {condition : Bool} (h : condition = true) (e : WriteError)
    (codes : List Code) : concat (ensure condition e :: codes) = concat codes := by
  subst h
  exact concat_empty_cons codes

end Code

namespace Reader

variable {ε ε' α β : Type} {D : ε → Bool → Prop}

/-! ## Demands on bits -/

/-- What is left to read meets the demands: if it ends in front of a bit and the reader fails there, the
bit is as demanded of the element that the failure names. -/
def Meets (D : ε → Bool → Prop) (p : Reader ε α) (c : Cursor) : Prop :=
  ∀ front b rest e c', c.bits = front ++ b :: rest → p ⟨front, c.position⟩ = .error e c' → D e b

/-- The value is one that the reader can give where the demands are met. -/
def Gives (D : ε → Bool → Prop) (p : Reader ε α) (a : α) : Prop :=
  ∃ c c', p c = .ok a c' ∧ p.Meets D c

theorem bind_of_eq_error {p : Reader ε α} {f : α → Reader ε β} {c c₁ : Cursor} {e : ε}
    (h : p c = .error e c₁) : (p >>= f) c = .error e c₁ :=
  step_bind_of_error h

theorem Meets.first {p : Reader ε α} {f : α → Reader ε β} {c : Cursor} (h : (p >>= f).Meets D c) :
    p.Meets D c :=
  fun front b rest e c' hbits hfail => h front b rest e c' hbits (bind_of_eq_error hfail)

theorem Meets.rest {p : Reader ε α} {f : α → Reader ε β} {c c₁ : Cursor} {a : α} {taken : BitString}
    (h : (p >>= f).Meets D c) (ha : p.Takes c taken a c₁) : (f a).Meets D c₁ := by
  intro front b rest e c' hbits hfail
  refine h (taken ++ front) b rest e c' ?_ ?_
  · rw [ha.1, hbits, List.append_assoc]
  · rw [bind_of_eq_ok (ha.2.2 front), hfail]

theorem Meets.mapError {p : Reader ε α} {g : ε → ε'} {D : ε' → Bool → Prop} {c : Cursor}
    (h : (mapError g p).Meets D c) : p.Meets (fun e => D (g e)) c := by
  intro front b rest e c' hbits hfail
  refine h front b rest (g e) c' hbits ?_
  rw [Reader.mapError, hfail]

theorem Gives.produces {p : Reader ε α} {a : α} (h : p.Gives D a) : p.Produces a := by
  obtain ⟨c, c', h, -⟩ := h
  exact ⟨c, c', h⟩

/-! ## Structures -/

/-- No condition on a value. -/
def Always (_ : α) : Prop := True

/-- The bits that are read are those of the code of the value, without the codes `done` at its front
that were read before. This holds for values that are valid, where the demands are met. -/
def ExactAfter (D : ε → Bool → Prop) (p : Reader ε α) (encode : α → Code) (valid : α → Prop)
    (done : List Code) : Prop :=
  ∀ c a c', p c = .ok a c' → p.Meets D c → valid a →
    ∃ taken, encode a = .concat done ++ .ok taken ∧ p.Takes c taken a c'

/-- All bits that are read are those of the code of the value. -/
abbrev Exact (D : ε → Bool → Prop) (p : Reader ε α) (encode : α → Code) : Prop :=
  p.ExactAfter D encode Always []

section Structures

variable {encode : β → Code} {valid : β → Prop} {done : List Code}

/-- The code that was read last is put behind those that were read before. -/
theorem concat_snoc {code : Code} {xs : BitString} (h : code = Code.concat [] ++ .ok xs) :
    Code.concat (done ++ [code]) = Code.concat done ++ .ok xs := by
  obtain rfl : code = .ok xs := h
  rw [Code.concat_append, Code.concat_single]

theorem exact_throw (e : ε) : (throw e : Reader ε β).ExactAfter D encode valid done :=
  fun _ _ _ h => nomatch h

theorem ExactAfter.pure {b : β} (h : valid b → encode b = .concat done) :
    (pure b : Reader ε β).ExactAfter D encode valid done := by
  rintro c _ _ ⟨⟩ - hvalid
  refine ⟨[], ?_, takes_pure b c⟩
  rw [h hvalid]
  exact (Code.append_empty _).symm

theorem ExactAfter.bind {p : Reader ε α} {f : α → Reader ε β} {encodePart : α → Code}
    (hp : p.Exact D encodePart)
    (hf : ∀ a, p.Gives D a → (f a).ExactAfter D encode valid (done ++ [encodePart a])) :
    (p >>= f).ExactAfter D encode valid done := by
  intro c b c' h hmeets hb
  obtain ⟨a, c₁, hread, hlater⟩ := step_bind_eq_ok.1 h
  obtain ⟨xs, hxs, hfirst⟩ := hp c a c₁ hread hmeets.first trivial
  obtain ⟨ys, hys, hsecond⟩ :=
    hf a ⟨c, c₁, hread, hmeets.first⟩ c₁ b c' hlater (hmeets.rest hfirst) hb
  rw [concat_snoc hxs, Code.append_assoc] at hys
  exact ⟨xs ++ ys, hys, hfirst.bind hsecond⟩

theorem ExactAfter.ensure_bind {f : Unit → Reader ε β} {condition : Bool} {e : ε}
    (hf : condition = true → (f ()).ExactAfter D encode valid done) :
    (ensure condition e >>= f).ExactAfter D encode valid done := by
  cases condition with
  | false => exact exact_throw e
  | true => exact hf rfl

theorem ExactAfter.require_bind {f : α → Reader ε β} {value : Option α} {e : ε}
    (hf : ∀ a, value = some a → (f a).ExactAfter D encode valid done) :
    (require value e >>= f).ExactAfter D encode valid done := by
  cases value with
  | none => exact exact_throw e
  | some a => exact hf a rfl

theorem ExactAfter.ofExcept_bind {f : α → Reader ε β} {value : Except ε α}
    (hf : ∀ a, value = .ok a → (f a).ExactAfter D encode valid done) :
    (ofExcept value >>= f).ExactAfter D encode valid done := by
  cases value with
  | error e => exact exact_throw e
  | ok a => exact hf a rfl

/-- Nothing is read for a part whose value is known. -/
theorem ExactAfter.pure_bind {f : α → Reader ε β} {a : α} (hf : (f a).ExactAfter D encode valid done) :
    (Pure.pure a >>= f : Reader ε β).ExactAfter D encode valid done :=
  hf

/-- The last part of a structure, which is all that is given. -/
theorem ExactAfter.last {p : Reader ε β} {encodePart : β → Code} (hp : p.Exact D encodePart)
    (h : ∀ b, p.Gives D b → valid b → encode b = .concat (done ++ [encodePart b])) :
    p.ExactAfter D encode valid done := by
  intro c b c' hread hmeets hb
  obtain ⟨taken, hcode, htaken⟩ := hp c b c' hread hmeets trivial
  exact ⟨taken, (h b ⟨c, c', hread, hmeets⟩ hb).trans (concat_snoc hcode), htaken⟩

theorem ExactAfter.map {p : Reader ε α} {f : α → β} {encodePart : α → Code} (hp : p.Exact D encodePart)
    (h : ∀ a, p.Gives D a → valid (f a) → encode (f a) = .concat (done ++ [encodePart a])) :
    (f <$> p).ExactAfter D encode valid done := by
  rw [map_eq_pure_bind]
  exact hp.bind fun a ha => .pure (h a ha)

theorem ExactAfter.mapError {p : Reader ε β} {g : ε → ε'} {D : ε' → Bool → Prop}
    (hp : p.ExactAfter (fun e => D (g e)) encode valid done) :
    (mapError g p).ExactAfter D encode valid done := by
  intro c b c' h hmeets hb
  obtain ⟨taken, hcode, htaken⟩ := hp c b c' (mapError_eq_ok.1 h) hmeets.mapError hb
  exact ⟨taken, hcode, htaken.mapError g⟩

/-- A check at the end of a structure. -/
theorem ExactAfter.ensure {encode : Unit → Code} {valid : Unit → Prop} {condition : Bool} {e : ε}
    (h : condition = true → valid () → encode () = .concat done) :
    (ensure condition e).ExactAfter D encode valid done := by
  cases condition with
  | false => exact exact_throw e
  | true => exact .pure (h rfl)

/-- A value at the end of a structure that there must be. -/
theorem ExactAfter.require {value : Option β} {e : ε}
    (h : ∀ b, value = some b → valid b → encode b = .concat done) :
    (require value e).ExactAfter D encode valid done := by
  cases value with
  | none => exact exact_throw e
  | some b => exact .pure (h b rfl)

/-- A part that is given if it passes a check. -/
theorem ExactAfter.checked {p : Reader ε β} {encode : β → Code} {check : β → Bool} {e : β → ε}
    (hp : p.ExactAfter D encode Always []) :
    (do let b ← p; Reader.ensure (check b) (e b); return b : Reader ε β).Exact D encode :=
  hp.bind fun _ _ => .ensure_bind fun _ => .pure fun _ => (Code.concat_single _).symm

theorem Gives.mapError {p : Reader ε β} {g : ε → ε'} {D : ε' → Bool → Prop} {b : β}
    (h : (Reader.mapError g p).Gives D b) : p.Gives (fun e => D (g e)) b := by
  obtain ⟨c, c', h, hmeets⟩ := h
  exact ⟨c, c', mapError_eq_ok.1 h, hmeets.mapError⟩

end Structures

/-! ## Parts that may be absent, and lists -/

variable {encode : α → Code}

theorem Exact.optional {present : Bool} {p : Reader ε α} (hp : present = true → p.Exact D encode) :
    (optional present p).Exact D (.option encode) := by
  cases present with
  | false => exact .pure fun _ => rfl
  | true => exact (hp rfl).map fun a _ _ => (Code.append_empty (encode a)).symm

/-- A part that is written after its announcement, whatever is written where it is absent. -/
theorem Exact.announced {present : Bool} {p : Reader ε α} (code : Option α → Code)
    (hp : present = true → p.Exact D fun a => code (some a)) :
    (Reader.optional present p).Exact D fun a => .onlyIf present (code a) := by
  cases present with
  | false => exact .pure fun _ => rfl
  | true => exact (hp rfl).map fun a _ _ => (Code.append_empty (code (some a))).symm

theorem Exact.optionalD {present : Bool} {p : Reader ε α} {inferred : α}
    (hp : present = true → p.Exact D encode) :
    (optionalD present p inferred).Exact D fun a => .onlyIf present (encode a) := by
  cases present with
  | false => exact .pure fun _ => rfl
  | true => exact hp rfl

theorem Exact.times {p : Reader ε α} (hp : p.Exact D encode) (n : Nat) :
    (times n p).Exact D (.each encode) := by
  induction n with
  | zero => exact .pure fun _ => rfl
  | succ n ih =>
    refine .bind hp fun a _ => ?_
    refine .bind ih fun as _ => .pure fun _ => ?_
    exact congrArg (encode a ++ ·) (Code.append_empty _).symm

theorem Exact.each {p : β → Reader ε α} (hp : ∀ b, (p b).Exact D encode) (bs : List β) :
    (each p bs).Exact D (.each encode) := by
  induction bs with
  | nil => exact .pure fun _ => rfl
  | cons b bs ih =>
    refine .bind (hp b) fun a _ => ?_
    refine .bind ih fun as _ => .pure fun _ => ?_
    exact congrArg (encode a ++ ·) (Code.append_empty _).symm

/-! ## Elements -/

/-- An element is read exactly if the bits that it takes are its code. -/
theorem exact_of_takes {p : Reader ε α}
    (h : ∀ c a c', p c = .ok a c' → ∃ taken, encode a = .ok taken ∧ p.Takes c taken a c') :
    p.Exact D encode := by
  intro c a c' hread _ _
  obtain ⟨taken, hcode, htaken⟩ := h c a c' hread
  exact ⟨taken, hcode, htaken⟩

section Elements

variable {D : ReadError → Bool → Prop}

theorem exact_flag (element : String) : (flag element).Exact D .flag := by
  refine exact_of_takes fun c b c' h => ⟨[b], rfl, ?_⟩
  obtain ⟨hbits, hpos⟩ := flag_eq_ok h
  exact ⟨hbits, hpos, fun rest => by rw [hpos]; rfl⟩

/-- What is demanded of a flag holds for its value. -/
theorem Gives.flag {element : String} {b : Bool} (h : (Reader.flag element).Gives D b) :
    D (.endOfData element) b := by
  obtain ⟨c, c', h, hmeets⟩ := h
  exact hmeets [] b c'.bits _ _ (flag_eq_ok h).1 rfl

theorem takes_bits {n : Nat} {element : String} {c c' : Cursor} {bs : BitString}
    (h : bits n element c = .ok bs c') : (bits n element).Takes c bs bs c' := by
  have hlength := bits_eq_ok h
  obtain ⟨rfl, rfl⟩ := cursor_of_bits h
  exact ⟨(List.take_append_drop n c.bits).symm, by rw [hlength], fun rest => bits_append hlength⟩

/-- A value made of some bits is read exactly if they are its code. -/
theorem exact_map_bits {n : Nat} {element : String} {f : BitString → α}
    (h : ∀ c bs c', bits n element c = .ok bs c' → (bits n element).Meets D c →
      encode (f bs) = .ok bs) : (f <$> bits n element).Exact D encode := by
  rw [map_eq_pure_bind]
  intro c a c' hread hmeets _
  obtain ⟨bs, c₁, hbits, hlast⟩ := step_bind_eq_ok.1 hread
  cases hlast
  have htaken : (bits n element >>= fun bs => pure (f bs)).Takes c (bs ++ []) (f bs) c' :=
    (takes_bits hbits).bind (takes_pure (f bs) c')
  rw [List.append_nil] at htaken
  exact ⟨bs, h c bs c' hbits hmeets.first, htaken⟩

theorem uint_toNat {n : Nat} {bs : BitString} (hlength : bs.length = n) (hn : n ≤ 32) :
    Code.uint n (Bits.toNat bs) = .ok bs := by
  subst hlength
  rw [Code.uint_eq_ok hn (Bits.toNat_lt bs), Bits.ofNat_toNat]

theorem exact_uint (n : Nat) (element : String) : (uint n element).Exact D (.uint n) := by
  unfold uint
  split
  · exact exact_throw _
  · next hn =>
    exact exact_map_bits fun c bs c' h _ => uint_toNat (bits_eq_ok h) (Nat.not_lt.1 hn)

theorem toNat_zeros (n : Nat) : Bits.toNat (List.replicate n false) = 0 := by
  induction n with
  | zero => rfl
  | succ n ih => rw [List.replicate_succ, Bits.toNat_cons, ih]; simp

/-- Bits are zero if that is demanded of their element. -/
theorem zeros_of_bits {n : Nat} {element : String} {c c' : Cursor} {bs : BitString}
    (h : bits n element c = .ok bs c') (hmeets : (bits n element).Meets D c)
    (hD : ∀ b, D (.endOfData element) b → b = false) : bs = List.replicate n false := by
  have hlength := bits_eq_ok h
  refine List.eq_replicate_iff.2 ⟨hlength, fun b hb => ?_⟩
  obtain ⟨front, rest, rfl⟩ := List.append_of_mem hb
  -- the data end within the element if they are cut in front of the bit
  have hlt : (front.take n).length < n := by
    rw [List.length_append, List.length_cons] at hlength
    rw [List.length_take]
    omega
  have hfail : bits n element ⟨front, c.position⟩ =
      .error (.endOfData element) ⟨front, c.position⟩ := by
    simp only [bits, hlt, if_true]
  have hbits := (takes_bits h).1
  rw [List.append_assoc, List.cons_append] at hbits
  exact hD b (hmeets front b _ _ _ hbits hfail)

theorem exact_skip {n : Nat} {element : String} (hn : n ≤ 32)
    (hD : ∀ b, D (.endOfData element) b → b = false) :
    (skip n element).Exact D fun _ => .uint n 0 := by
  refine exact_map_bits fun c bs c' h hmeets => ?_
  have hzero : Bits.toNat bs = 0 := by
    rw [zeros_of_bits h hmeets hD, toNat_zeros]
  rw [← hzero]
  exact uint_toNat (bits_eq_ok h) hn

/-- Bits that are passed over are zero if that is demanded of their element, however many they are. -/
theorem zeros_of_skip {n : Nat} {element : String} {c c' : Cursor} {u : Unit}
    (h : skip n element c = .ok u c') (hmeets : (skip n element).Meets D c)
    (hD : ∀ b, D (.endOfData element) b → b = false) :
    c.bits = List.replicate n false ++ c'.bits ∧ c'.position = c.position + n := by
  unfold skip at h hmeets
  rw [map_eq_pure_bind] at h hmeets
  obtain ⟨bs, c₁, hbits, hlast⟩ := step_bind_eq_ok.1 h
  cases hlast
  obtain ⟨hsplit, hpos, -⟩ := takes_bits hbits
  rw [bits_eq_ok hbits] at hpos
  rw [← zeros_of_bits hbits hmeets.first hD]
  exact ⟨hsplit, hpos⟩

/-- A run of `k` zero bits, a bit that is set and `k` more bits are the word of a number. -/
theorem word_of_bits {k : Nat} {bs : BitString} (hlength : bs.length = k) :
    ExpGolomb.word (2 ^ k - 1 + Bits.toNat bs) = List.replicate k false ++ true :: bs := by
  subst hlength
  have hlt := Bits.toNat_lt bs
  have hsucc : 2 ^ bs.length - 1 + Bits.toNat bs + 1 = 1 * 2 ^ bs.length + Bits.toNat bs := by
    have := Nat.two_pow_pos bs.length
    omega
  have hlog : Nat.log2 (1 * 2 ^ bs.length + Bits.toNat bs) = bs.length := by
    refine (Nat.log2_eq_iff (by omega)).2 ⟨by omega, ?_⟩
    rw [Nat.pow_succ]
    omega
  rw [ExpGolomb.word_eq, hsucc, hlog, Bits.ofNat_add_of_le (Nat.le_refl _) hlt, Bits.ofNat_toNat]

theorem exact_ue (element : String) : (ue element).Exact D .ue := by
  refine exact_of_takes fun c v c' h => ?_
  obtain ⟨taken, htaken⟩ := local_ue element c v c' h
  obtain ⟨k, c₁, hrun, h⟩ := step_bind_eq_ok.1 h
  obtain ⟨-, hzeros, -, hhead⟩ := zeroRun_eq_ok hrun
  obtain ⟨b, c₂, hflag, h⟩ := step_bind_eq_ok.1 h
  obtain ⟨hset, -⟩ := flag_eq_ok hflag
  obtain ⟨low, c₃, hlow, h⟩ := step_bind_eq_ok.1 h
  cases h
  obtain rfl : b = true := by
    rw [hset] at hhead
    cases b with
    | false => exact absurd rfl hhead
    | true => rfl
  unfold uint at hlow
  split at hlow
  · cases hlow
  · rw [map_eq_pure_bind] at hlow
    obtain ⟨bs, c₄, hbits, hlast⟩ := step_bind_eq_ok.1 hlow
    cases hlast
    have hword : taken = List.replicate k false ++ true :: bs := by
      refine List.append_cancel_right (htaken.1.symm.trans ?_)
      rw [hzeros, hset, (takes_bits hbits).1, List.append_assoc, List.cons_append]
    exact ⟨taken, by rw [Code.ue, word_of_bits (bits_eq_ok hbits), hword], htaken⟩

theorem exact_se (element : String) : (se element).Exact D .se := by
  refine (exact_ue element).map fun v _ _ => ?_
  rw [Code.se, ExpGolomb.signedWord, ExpGolomb.ofSigned_toSigned]
  exact (Code.append_empty _).symm

end Elements

end Reader

end TiledVideo
