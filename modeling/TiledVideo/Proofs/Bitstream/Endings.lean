import TiledVideo.Bitstream.Writer
import TiledVideo.Proofs.Bitstream.Elements

/-!
# Reading to the end of a payload

A code that begins a payload is closed by a stop bit and zero bits, which depend on its length. So a
reader that goes through to the end cannot be described by `Reads`, which allows anything behind the
code. An `Ending` says what comes behind a code of a given length and where a reader stops in it.

Results:

* `moreData_stopBits`: data are left as long as bits in front of the stop bit are.
* `ReadsPayload.decode`: a payload that is read to its end is decoded from its bytes.
* `ReadsPayload.decode_escaped`: it is decoded from its escaped bytes.
* `ReadsFront.decodeFront`: a payload that is read up to a byte is decoded in front of any data.
* `ofBytes_toBytes`: bits that fill bytes are those of their bytes.
-/

namespace TiledVideo

namespace Bits

/-! ## Bits that fill bytes -/

theorem ofBytes_append (a b : Bytes) : ofBytes (a ++ b) = ofBytes a ++ ofBytes b :=
  List.flatMap_append

theorem ofNat_add_of_le {n k b v : Nat} (h : n ≤ k) (hv : v < 2 ^ k) :
    ofNat n (b * 2 ^ k + v) = ofNat n v := by
  induction n with
  | zero => rfl
  | succ n ih =>
    rw [ofNat, ofNat, ih (by omega), Nat.mul_comm, Nat.testBit_two_pow_mul_add _ hv,
      if_pos (by omega)]

theorem ofNat_toNat (bits : BitString) : ofNat bits.length (toNat bits) = bits := by
  induction bits with
  | nil => rfl
  | cons b bits ih =>
    have hlt := toNat_lt bits
    rw [toNat_cons, List.length_cons, ofNat, ofNat_add_of_le (Nat.le_refl _) hlt, ih,
      Nat.mul_comm, Nat.testBit_two_pow_mul_add _ hlt, if_neg (by omega), Nat.sub_self]
    cases b <;> rfl

theorem ofByte_toNat {bits : BitString} (h : bits.length = 8) :
    ofByte (UInt8.ofNat (toNat bits)) = bits := by
  have hlt := toNat_lt bits
  rw [h] at hlt
  rw [ofByte, UInt8.toNat_ofNat_of_lt' hlt, ← h, ofNat_toNat]

theorem ofBytes_toBytes {bits : BitString} (h : bits.length % 8 = 0) :
    ofBytes (toBytes bits) = bits := by
  fun_induction toBytes bits with
  | case1 b₇ b₆ b₅ b₄ b₃ b₂ b₁ b₀ rest ih =>
    rw [ofBytes_cons, ofByte_toNat rfl, ih (by simp only [List.length_cons] at h; omega)]
    rfl
  | case2 bits hn =>
    match bits, hn, h with
    | [], _, _ => rfl
    | [_], _, h | [_, _], _, h | [_, _, _], _, h | [_, _, _, _], _, h | [_, _, _, _, _], _, h
    | [_, _, _, _, _, _], _, h | [_, _, _, _, _, _, _], _, h => simp at h
    | b₇ :: b₆ :: b₅ :: b₄ :: b₃ :: b₂ :: b₁ :: b₀ :: rest, hn, _ =>
      exact absurd rfl (hn b₇ b₆ b₅ b₄ b₃ b₂ b₁ b₀ rest)

theorem length_toBytes {bits : BitString} (h : bits.length % 8 = 0) :
    8 * (toBytes bits).length = bits.length := by
  rw [← length_ofBytes, ofBytes_toBytes h]

theorem leftover_eq_nil {bits : BitString} (h : bits.length % 8 = 0) : leftover bits = [] :=
  List.length_eq_zero_iff.1 (by rw [length_leftover, h])

end Bits

namespace Code

/-! ## Closed codes -/

theorem length_stopBits (n : Nat) : (stopBits n).length = 8 - n % 8 := by
  simp only [stopBits, List.length_cons, List.length_replicate]
  omega

theorem closed_ok (bits : BitString) :
    closed (.ok bits) = .ok (bits ++ stopBits bits.length) := rfl

theorem closed_eq_ok {code : Code} {closedBits : BitString} (h : code.closed = .ok closedBits) :
    ∃ bits, code = .ok bits ∧ closedBits = bits ++ stopBits bits.length := by
  cases code with
  | error e => cases h
  | ok bits =>
    cases h
    exact ⟨bits, rfl, rfl⟩

theorem length_closed {code : Code} {bits : BitString} (h : code.closed = .ok bits) :
    bits.length % 8 = 0 := by
  obtain ⟨bits, rfl, rfl⟩ := closed_eq_ok h
  rw [List.length_append, length_stopBits]
  omega

/-- The stop bit is in the last byte of a closed code. -/
theorem getLast?_closed {code : Code} {bits : BitString} (h : code.closed = .ok bits) :
    ∃ front b, Bits.toBytes bits = front ++ [b] ∧ b ≠ 0 := by
  have hlen := length_closed h
  obtain ⟨bits, rfl, rfl⟩ := closed_eq_ok h
  have hne : Bits.toBytes (bits ++ stopBits bits.length) ≠ [] := by
    intro h0
    have := Bits.length_toBytes hlen
    rw [h0, List.length_append, length_stopBits] at this
    simp only [List.length_nil] at this
    omega
  refine ⟨_, _, (List.dropLast_concat_getLast hne).symm, fun h0 => ?_⟩
  -- a last byte of zero would leave no room for the stop bit, which is among the last eight bits
  have hbits := Bits.ofBytes_toBytes hlen
  rw [← List.dropLast_concat_getLast hne, h0, Bits.ofBytes_append] at hbits
  have htail := congrArg (fun l => (l.reverse.take (8 - bits.length % 8)).getLast?) hbits
  have h8 : Bits.ofBytes [0] = List.replicate 8 false := by decide
  simp only [h8, List.reverse_append, List.reverse_replicate, stopBits, List.reverse_cons] at htail
  rw [List.take_append_of_le_length (by simp), List.take_append_of_le_length (by simp; omega),
    List.take_of_length_le (l := List.replicate _ false ++ [true]) (by simp; omega),
    List.take_replicate, List.getLast?_replicate] at htail
  simp at htail

theorem toEscapedBytes_eq_ok {code : Code} {bytes : Bytes} :
    code.toEscapedBytes = .ok bytes ↔
      ∃ bits, code = .ok bits ∧ bytes = Emulation.escape (Bits.toBytes bits) := by
  cases code with
  | error e => exact ⟨nofun, fun ⟨_, h, _⟩ => nomatch h⟩
  | ok bits =>
    constructor
    · intro h
      cases h
      exact ⟨bits, rfl, rfl⟩
    · rintro ⟨_, hc, rfl⟩
      cases hc
      rfl

end Code

/-! ## Endings -/

/-- What comes behind a code that ends after `n` bits, and where a reader stops. -/
structure Ending where
  tail : Nat → BitString
  after : Nat → Cursor

namespace Ending

/-- The payload ends behind the stop bit. -/
def stop : Ending where
  tail := Code.stopBits
  after n := ⟨List.replicate (7 - n % 8) false, n + 1⟩

/-- The code is filled up to whole bytes, and anything may follow. -/
def aligned (rest : BitString) : Ending where
  tail n := Code.stopBits n ++ rest
  after n := ⟨rest, n + (8 - n % 8)⟩

end Ending

namespace Reader

variable {ε ε' α β : Type} {e : Ending}

/-- The reader reads the code and what the ending puts behind it as the value. -/
def ReadsTo (e : Ending) (p : Reader ε α) (code : Code) (a : α) : Prop :=
  ∃ bits, code = .ok bits ∧
    ∀ pos, p ⟨bits ++ e.tail (pos + bits.length), pos⟩ = .ok a (e.after (pos + bits.length))

/-! ## Composition -/

theorem Reads.bind_readsTo {p : Reader ε α} {f : α → Reader ε β} {a : α} {b : β} {x y : Code}
    (h : p.Reads x a) (hs : (f a).ReadsTo e y b) : (p >>= f).ReadsTo e (x ++ y) b := by
  obtain ⟨xs, rfl, hx⟩ := h
  obtain ⟨ys, rfl, hy⟩ := hs
  refine ⟨xs ++ ys, rfl, fun pos => ?_⟩
  rw [List.append_assoc, bind_of_eq_ok (hx _ _), List.length_append, ← Nat.add_assoc, hy]

theorem Reads.cons_readsTo {p : Reader ε α} {f : α → Reader ε β} {a : α} {b : β} {code : Code}
    {codes : List Code} (h : p.Reads code a) (hs : (f a).ReadsTo e (.concat codes) b) :
    (p >>= f).ReadsTo e (.concat (code :: codes)) b :=
  h.bind_readsTo hs

/-- A part with two codes. -/
theorem Reads.cons_pair_readsTo {p : Reader ε α} {f : α → Reader ε β} {a : α} {b : β}
    {x y : Code} {codes : List Code} (h : p.Reads (x ++ y) a)
    (hs : (f a).ReadsTo e (.concat codes) b) :
    (p >>= f).ReadsTo e (.concat (x :: y :: codes)) b := by
  have := h.bind_readsTo hs
  rwa [Code.append_assoc] at this

/-- A part that is read without a code of its own. -/
theorem Reads.empty_bind_readsTo {p : Reader ε α} {f : α → Reader ε β} {a : α} {b : β}
    {code : Code} (h : p.Reads .empty a) (hs : (f a).ReadsTo e code b) :
    (p >>= f).ReadsTo e code b := by
  have := h.bind_readsTo hs
  rwa [Code.empty_append] at this

/-- Nothing of the code is left for what comes after a part. -/
theorem Reads.bind_empty_readsTo {p : Reader ε α} {f : α → Reader ε β} {a : α} {b : β}
    {code : Code} (h : p.Reads code a) (hs : (f a).ReadsTo e .empty b) :
    (p >>= f).ReadsTo e code b := by
  have := h.bind_readsTo hs
  rwa [Code.append_empty] at this

theorem ReadsTo.empty_cons {p : Reader ε α} {a : α} {codes : List Code}
    (h : p.ReadsTo e (.concat codes) a) : p.ReadsTo e (.concat (.empty :: codes)) a := by
  obtain ⟨bits, hc, hb⟩ := h
  exact ⟨bits, by rw [Code.concat, hc]; rfl, hb⟩

theorem ReadsTo.ensure_cons {p : Reader ε α} {a : α} {codes : List Code} {condition : Bool}
    {w : WriteError} (hc : condition = true) (h : p.ReadsTo e (.concat codes) a) :
    p.ReadsTo e (.concat (.ensure condition w :: codes)) a := by
  subst hc
  exact h.empty_cons

theorem ReadsTo.ensure_bind {f : Unit → Reader ε β} {b : β} {code : Code} {condition : Bool}
    {r : ε} (hc : condition = true) (h : (f ()).ReadsTo e code b) :
    (ensure condition r >>= f).ReadsTo e code b := by
  subst hc
  exact h

theorem ReadsTo.require_bind {f : α → Reader ε β} {a : α} {b : β} {code : Code} {value : Option α}
    {r : ε} (hv : value = some a) (h : (f a).ReadsTo e code b) :
    (require value r >>= f).ReadsTo e code b := by
  subst hv
  exact h

theorem ReadsTo.ofExcept_bind {f : α → Reader ε β} {a : α} {b : β} {code : Code}
    {value : Except ε α} (hv : value = .ok a) (h : (f a).ReadsTo e code b) :
    (ofExcept value >>= f).ReadsTo e code b := by
  subst hv
  exact h

/-- The end of a structure is reached with its last part. -/
theorem ReadsTo.bind_pure {p : Reader ε α} {a : α} {code : Code} (g : α → β)
    (h : p.ReadsTo e code a) :
    (p >>= fun x => (pure (g x) : Reader ε β)).ReadsTo e (.concat [code]) (g a) := by
  obtain ⟨bits, rfl, hb⟩ := h
  refine ⟨bits, congrArg Except.ok (List.append_nil bits), fun pos => ?_⟩
  rw [bind_of_eq_ok (hb pos)]
  rfl

theorem ReadsTo.bind_pure_empty {p : Reader ε α} {a : α} (g : α → β) (h : p.ReadsTo e .empty a) :
    (p >>= fun x => (pure (g x) : Reader ε β)).ReadsTo e .empty (g a) := by
  obtain ⟨bits, hc, hb⟩ := h
  refine ⟨bits, hc, fun pos => ?_⟩
  rw [bind_of_eq_ok (hb pos)]
  rfl

theorem ReadsTo.mapError {p : Reader ε α} {a : α} {code : Code} (f : ε → ε')
    (h : p.ReadsTo e code a) : (mapError f p).ReadsTo e code a := by
  obtain ⟨bits, rfl, hb⟩ := h
  refine ⟨bits, rfl, fun pos => ?_⟩
  simp only [Reader.mapError, hb]

/-! ## Ends -/

/-- The stop bit comes behind each bit of data, and only zero bits come behind it. -/
theorem moreData_stopBits (bits : BitString) (n pos : Nat) :
    (moreData : Reader ε Bool) ⟨bits ++ Code.stopBits n, pos⟩ =
      .ok (!bits.isEmpty) ⟨bits ++ Code.stopBits n, pos⟩ := by
  show EStateM.Result.ok _ _ = _
  cases bits with
  | nil => simp [Code.stopBits]
  | cons b bits => simp [Code.stopBits]

theorem readsTo_finish : finish.ReadsTo .stop .empty () := by
  refine ⟨[], rfl, fun pos => ?_⟩
  have hmore : (moreData : Reader ReadError Bool) _ = _ := moreData_stopBits [] pos pos
  simp only [Ending.stop, List.nil_append, List.length_nil, Nat.add_zero] at hmore ⊢
  show (moreData >>= _) _ = _
  rw [bind_of_eq_ok hmore]
  rfl

/-! ## Whole payloads -/

theorem produces_of_decode {p : Reader ε α} {payload : Bytes} {a : α}
    (h : p.decode payload = .ok a) : p.Produces a := by
  unfold decode at h
  split at h
  · next b c hp =>
    cases h
    exact ⟨_, c, hp⟩
  · cases h

theorem produces_of_decodeFront {p : Reader ε α} {payload : Bytes} {a : α} {n : Nat}
    (h : p.decodeFront payload = .ok (a, n)) : p.Produces a := by
  unfold decodeFront at h
  split at h
  · next b c hp =>
    cases h
    exact ⟨_, c, hp⟩
  · cases h

/-- The payload is a code that is closed, and the reader reads it to the end as the value. -/
def ReadsPayload (p : Reader ε α) (payload : Code) (a : α) : Prop :=
  ∃ code, payload = code.closed ∧ p.ReadsTo .stop code a

/-- The payload begins with a code that is closed, and the reader reads it up to the next byte as
the value, whatever follows. -/
def ReadsFront (p : Reader ε α) (payload : Code) (a : α) : Prop :=
  ∃ code, payload = code.closed ∧ ∀ rest, p.ReadsTo (.aligned rest) code a

theorem ReadsPayload.decode {p : Reader ε α} {payload : Code} {a : α}
    (h : p.ReadsPayload payload a) :
    ∃ bits, payload = .ok bits ∧ p.decode (Bits.toBytes bits) = .ok a := by
  obtain ⟨_, rfl, bits, rfl, hb⟩ := h
  refine ⟨_, Code.closed_ok bits, ?_⟩
  have := hb 0
  rw [Nat.zero_add] at this
  rw [Reader.decode, Cursor.ofBytes, Bits.ofBytes_toBytes (Code.length_closed (Code.closed_ok bits)),
    show bits ++ Code.stopBits bits.length = bits ++ Ending.stop.tail bits.length from rfl, this]

/-- A payload that is read to its end has bytes, and they are decoded once they are unescaped. -/
theorem ReadsPayload.decode_escaped {p : Reader ε α} {payload : Code} {a : α}
    (h : p.ReadsPayload payload a) :
    ∃ bytes, payload.toEscapedBytes = .ok bytes ∧ p.decode (Emulation.unescape bytes) = .ok a := by
  obtain ⟨bits, hbits, hdecode⟩ := h.decode
  refine ⟨_, Code.toEscapedBytes_eq_ok.2 ⟨bits, hbits, rfl⟩, ?_⟩
  rw [Emulation.unescape_escape]
  exact hdecode

theorem ReadsFront.decodeFront {p : Reader ε α} {payload : Code} {a : α}
    (h : p.ReadsFront payload a) :
    ∃ bits, payload = .ok bits ∧
      ∀ data, p.decodeFront (Bits.toBytes bits ++ data) = .ok (a, bits.length) := by
  obtain ⟨_, rfl, h⟩ := h
  obtain ⟨bits, rfl, -⟩ := h []
  refine ⟨_, Code.closed_ok bits, fun data => ?_⟩
  obtain ⟨_, hc, hb⟩ := h (Bits.ofBytes data)
  cases hc
  have := hb 0
  rw [Nat.zero_add] at this
  rw [Reader.decodeFront, Cursor.ofBytes, Bits.ofBytes_append,
    Bits.ofBytes_toBytes (Code.length_closed (Code.closed_ok bits)), List.append_assoc,
    show Code.stopBits bits.length ++ Bits.ofBytes data =
      (Ending.aligned (Bits.ofBytes data)).tail bits.length from rfl, this]
  simp only [Ending.aligned, List.length_append, Code.length_stopBits]

end Reader

end TiledVideo
