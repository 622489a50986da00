import TiledVideo.Proofs.Bitstream.Reads
import TiledVideo.Proofs.Bitstream.Endings

/-!
# Escaping

What a stream holds depends only on what was put into it, not on the pieces in which that was done,
and there is no start code in it.

Results:

* `Emulation.sound_escapeFrom`: what stands behind two zero bytes in escaped bytes.
* `BitStream.append_append`: bits that do not fill a byte wait for those that come next.
* `BitStream.foldlM_put`: a number of writes is one write of all their bits.
* `BitStream.escaped_of_writes`: what holds of a stream however a byte string is put into it.
-/

namespace TiledVideo

/-! ## Escaped bytes -/

namespace Emulation

/-- What may stand behind two zero bytes: a byte that is not small, or a byte `03` in front of a small
one. -/
def Guarded (b : UInt8) (rest : Bytes) : Prop :=
  3 < b ∨ b = 3 ∧ ∃ c behind, rest = c :: behind ∧ c ≤ 3

/-- Wherever two zero bytes stand, they are guarded. -/
def Sound (bytes : Bytes) : Prop :=
  ∀ front b rest, bytes = front ++ 0 :: 0 :: b :: rest → Guarded b rest

theorem sound_cons_iff {a : UInt8} {bytes : Bytes} :
    Sound (a :: bytes) ↔
      (∀ b rest, a = 0 → bytes = 0 :: b :: rest → Guarded b rest) ∧ Sound bytes := by
  constructor
  · intro h
    refine ⟨?_, ?_⟩
    · rintro b rest rfl rfl
      exact h [] b rest rfl
    · rintro front b rest rfl
      exact h (a :: front) b rest rfl
  · rintro ⟨hfirst, hlater⟩ front b rest h
    cases front with
    | nil =>
      cases h
      exact hfirst b rest rfl rfl
    | cons x front =>
      cases h
      exact hlater front b rest rfl

theorem sound_cons_of_ne {a : UInt8} (ha : a ≠ 0) {bytes : Bytes} :
    Sound (a :: bytes) ↔ Sound bytes := by
  rw [sound_cons_iff]
  exact and_iff_right fun _ _ h _ => absurd h ha

theorem sound_zero_cons_of_ne {b : UInt8} (hb : b ≠ 0) {bytes : Bytes} :
    Sound (0 :: b :: bytes) ↔ Sound bytes := by
  rw [sound_cons_iff, sound_cons_of_ne hb]
  refine and_iff_right ?_
  rintro _ _ - h
  cases h
  exact absurd rfl hb

theorem sound_zero_zero_cons {b : UInt8} (hb : b ≠ 0) {bytes : Bytes} :
    Sound (0 :: 0 :: b :: bytes) ↔ Guarded b bytes ∧ Sound bytes := by
  rw [sound_cons_iff, sound_zero_cons_of_ne hb]
  refine and_congr_left fun _ => ⟨fun h => h b bytes rfl rfl, ?_⟩
  rintro h _ _ - heq
  cases heq
  exact h

/-- Zero bytes that are already written are guarded by what is escaped behind them. -/
theorem sound_escapeFrom {zeros : Nat} (hz : zeros ≤ 2) (s : Bytes) :
    Sound (List.replicate zeros 0 ++ escapeFrom zeros s) := by
  induction s generalizing zeros with
  | nil =>
    intro front b rest h
    have hlength := congrArg List.length h
    simp only [escapeFrom, List.append_nil, List.length_replicate, List.length_append,
      List.length_cons] at hlength
    omega
  | cons b s ih =>
    have ih0 : Sound (escapeFrom 0 s) := ih (Nat.zero_le 2)
    have ih1 : Sound (0 :: escapeFrom 1 s) := ih (Nat.le_succ 1)
    have ih2 : Sound (0 :: 0 :: escapeFrom 2 s) := ih (Nat.le_refl 2)
    by_cases hb : b = 0
    · subst hb
      obtain rfl | rfl | rfl : zeros = 0 ∨ zeros = 1 ∨ zeros = 2 := by omega
      · exact ih1
      · exact ih2
      · exact (sound_zero_zero_cons (b := 3) (by decide)).2
          ⟨.inr ⟨rfl, 0, escapeFrom 1 s, rfl, by decide⟩, ih1⟩
    · obtain rfl | rfl | rfl : zeros = 0 ∨ zeros = 1 ∨ zeros = 2 := by omega
      · simpa [escapeFrom, hb, sound_cons_of_ne] using ih0
      · simpa [escapeFrom, hb, sound_zero_cons_of_ne] using ih0
      · by_cases h4 : b < 4
        · simp only [escapeFrom, h4, hb, and_self, if_true, if_false]
          exact (sound_zero_zero_cons (b := 3) (by decide)).2
            ⟨.inr ⟨rfl, b, escapeFrom 0 s, rfl, Nat.le_of_lt_succ h4⟩, (sound_cons_of_ne hb).2 ih0⟩
        · simp only [escapeFrom, h4, hb, and_false, if_false]
          exact (sound_zero_zero_cons hb).2 ⟨.inl (Nat.not_lt.1 h4), ih0⟩

theorem sound_escape (s : Bytes) : Sound (escape s) :=
  sound_escapeFrom (Nat.zero_le 2) s

/-- Two zero bytes are followed by none of the small bytes that a start code or an escape has. -/
theorem Sound.not_contains {bytes : Bytes} (h : Sound bytes) {b : UInt8} (hb : b < 3) :
    ¬ [0, 0, b] <:+: bytes := by
  rintro ⟨front, rest, rfl⟩
  obtain hlt | ⟨rfl, -⟩ := h front b rest (by simp)
  · exact UInt8.lt_asymm hlt hb
  · exact UInt8.lt_irrefl _ hb

/-- The byte `03` that an escape puts in is followed by a small byte. -/
theorem Sound.escaped {bytes front rest : Bytes} (h : Sound bytes)
    (hbytes : bytes = front ++ [0, 0, 3] ++ rest) : ∃ c behind, rest = c :: behind ∧ c ≤ 3 := by
  obtain hlt | ⟨-, hrest⟩ := h front 3 rest (by simp [hbytes])
  · exact absurd hlt (UInt8.lt_irrefl _)
  · exact hrest

end Emulation

/-! ## Bits in whole bytes -/

namespace Bits

/-- Bits are whole bytes and those left over. -/
theorem eq_ofBytes_append_leftover (bits : BitString) :
    ∃ bytes, bits = ofBytes bytes ++ leftover bits := by
  refine ⟨toBytes (bits.take (8 * (bits.length / 8))), ?_⟩
  rw [ofBytes_toBytes, leftover, List.take_append_drop]
  rw [List.length_take]
  omega

theorem toBytes_of_length_lt {bits : BitString} (h : bits.length < 8) : toBytes bits = [] := by
  fun_cases toBytes bits with
  | case1 =>
    simp only [List.length_cons] at h
    omega
  | case2 => rfl

theorem toBytes_ofBytes_append (bytes : Bytes) (rest : BitString) :
    toBytes (ofBytes bytes ++ rest) = bytes ++ toBytes rest := by
  induction bytes with
  | nil => rfl
  | cons b bytes ih =>
    rw [ofBytes_cons, List.append_assoc, toBytes_ofByte_append, ih, List.cons_append]

theorem leftover_ofBytes_append (bytes : Bytes) (rest : BitString) :
    leftover (ofBytes bytes ++ rest) = leftover rest := by
  have hlength : 8 * ((ofBytes bytes ++ rest).length / 8) =
      (ofBytes bytes).length + 8 * (rest.length / 8) := by
    rw [List.length_append, length_ofBytes]
    omega
  rw [leftover, hlength, List.drop_length_add_append, leftover]

end Bits

/-! ## Writing in pieces -/

/-- Byte strings that are written one after another are written as one. -/
theorem EscapedStream.foldl_write (pieces : List Bytes) (s : EscapedStream) :
    pieces.foldl write s = s.write pieces.flatten := by
  induction pieces generalizing s with
  | nil => exact (write_nil s).symm
  | cons piece pieces ih => rw [List.foldl_cons, ih, List.flatten_cons, write_append]

namespace BitStream

variable {s : BitStream}

theorem append_append (s : BitStream) (a b : BitString) :
    (s.append a).append b = s.append (a ++ b) := by
  obtain ⟨bytes, hbytes⟩ := Bits.eq_ofBytes_append_leftover (s.pending ++ a)
  have hshort : Bits.toBytes (Bits.leftover (s.pending ++ a)) = [] :=
    Bits.toBytes_of_length_lt (by rw [Bits.length_leftover]; omega)
  have hwhole : Bits.toBytes (s.pending ++ a) = bytes := by
    rw [hbytes, Bits.toBytes_ofBytes_append, hshort, List.append_nil]
  have hall : s.pending ++ (a ++ b) =
      Bits.ofBytes bytes ++ (Bits.leftover (s.pending ++ a) ++ b) := by
    rw [← List.append_assoc, ← List.append_assoc, ← hbytes]
  simp only [append]
  rw [hall, hwhole, Bits.toBytes_ofBytes_append, Bits.leftover_ofBytes_append,
    EscapedStream.write_append]

theorem append_nil (h : s.pending.length < 8) : s.append [] = s := by
  have hpending : Bits.leftover s.pending = s.pending := by
    rw [Bits.leftover, Nat.div_eq_of_lt h, Nat.mul_zero, List.drop_zero]
  simp only [append, List.append_nil]
  rw [hpending, Bits.toBytes_of_length_lt h, EscapedStream.write_nil]

/-- Between bytes, whole bytes are written like their bits. -/
theorem payload_of_aligned (h : s.aligned = true) (bytes : Bytes) :
    s.payload bytes = .ok (s.append (Bits.ofBytes bytes)) := by
  have hpending := (aligned_iff s).1 h
  have hlength : (Bits.ofBytes bytes).length % 8 = 0 := by
    rw [Bits.length_ofBytes]
    omega
  simp only [payload, wholeBytes, h, append, hpending, List.nil_append, Bits.toBytes_ofBytes,
    Bits.leftover_eq_nil hlength]
  rfl

/-! ## Writes -/

/-- What can be put into a stream at once. -/
inductive Piece where
  | bit (b : Bool)
  /-- An unsigned number in `n` bits. -/
  | bits (n v : Nat)
  | ue (v : Nat)
  | se (x : Int)
  | payload (bytes : Bytes)
  deriving DecidableEq, Repr

namespace Piece

/-- The bits of a piece, if it has a code. -/
def code : Piece → Code
  | bit b => .flag b
  | bits n v => .uint n v
  | ue v => .ue v
  | se x => .se x
  | payload bytes => .ok (Bits.ofBytes bytes)

/-- Puts a piece into a stream. -/
def put (s : BitStream) : Piece → Except WriteError BitStream
  | bit b => pure (s.append [b])
  | bits n v => s.appendCode (.uint n v)
  | ue v => s.appendCode (.ue v)
  | se x => s.appendCode (.se x)
  | payload bytes => s.payload bytes

/-- Whether a piece can be put in behind `n` bits: byte strings only between bytes. -/
def fitsAt (n : Nat) : Piece → Bool
  | payload _ => n % 8 == 0
  | _ => true

end Piece

/-- Pieces that can be put in one after the other, the first of them behind `n` bits. -/
def allFit : Nat → List Piece → Bool
  | _, [] => true
  | n, piece :: pieces =>
    piece.fitsAt n && match piece.code with
      | .ok bits => allFit (n + bits.length) pieces
      | .error _ => false

/-- A piece is put in as its bits. -/
theorem put_append {done bits : BitString} {piece : Piece} (hcode : piece.code = .ok bits)
    (hfits : piece.fitsAt done.length = true) :
    piece.put (empty.append done) = .ok (empty.append (done ++ bits)) := by
  rw [← append_append]
  cases piece with
  | bit b =>
    cases hcode
    rfl
  | bits n v =>
    show appendCode _ (.uint n v) = _
    rw [appendCode, show Code.uint n v = .ok bits from hcode]
    rfl
  | ue v =>
    cases hcode
    rfl
  | se x =>
    cases hcode
    rfl
  | payload bytes =>
    cases hcode
    refine payload_of_aligned ((aligned_append_iff _ _).2 ?_) bytes
    rw [show empty.pending = [] from rfl, List.length_nil, Nat.zero_add]
    exact eq_of_beq hfits

/-- Pieces that fit are put in as all their bits at once. -/
theorem foldlM_put {pieces : List Piece} {done bits : BitString}
    (hcode : Code.each Piece.code pieces = .ok bits) (hfit : allFit done.length pieces = true) :
    pieces.foldlM Piece.put (empty.append done) = .ok (empty.append (done ++ bits)) := by
  induction pieces generalizing done bits with
  | nil =>
    cases hcode
    rw [List.append_nil]
    rfl
  | cons piece pieces ih =>
    obtain ⟨first, hfirst, hrest⟩ := bind_eq_ok_iff.1 hcode
    obtain ⟨later, hlater, hbits⟩ := bind_eq_ok_iff.1 hrest
    cases hbits
    simp only [allFit, hfirst, Bool.and_eq_true] at hfit
    rw [← List.length_append] at hfit
    rw [List.foldlM_cons, put_append hfirst hfit.1, ← List.append_assoc]
    exact ih hlater hfit.2

/-- However a byte string is put into a stream that was empty, by bytes or by bits, the stream holds the
same bytes and has counted them. There are no start codes in them, and none that might become one if
zero bytes were left out, and the byte string is got back from them. -/
theorem escaped_of_writes (s : Bytes) :
    (∀ pieces : List Bytes, pieces.flatten = s →
      (pieces.foldl EscapedStream.write {}).bytes = Emulation.escape s ∧
        (pieces.foldl EscapedStream.write {}).count = (Emulation.escape s).length) ∧
    (∀ pieces : List Piece, Code.each Piece.code pieces = .ok (Bits.ofBytes s) →
      allFit 0 pieces = true →
        ∃ t, pieces.foldlM Piece.put empty = .ok t ∧ t.out.bytes = Emulation.escape s ∧
          t.byteCount = .ok (Emulation.escape s).length) ∧
    ¬ [0, 0, 0] <:+: Emulation.escape s ∧ ¬ [0, 0, 1] <:+: Emulation.escape s ∧
    ¬ [0, 0, 2] <:+: Emulation.escape s ∧
    (∀ front rest, Emulation.escape s = front ++ [0, 0, 3] ++ rest →
      ∃ b behind, rest = b :: behind ∧ b ≤ 3) ∧
    Emulation.unescape (Emulation.escape s) = s := by
  have hsound := Emulation.sound_escape s
  refine ⟨?_, ?_, hsound.not_contains (by decide), hsound.not_contains (by decide),
    hsound.not_contains (by decide), fun _ _ => hsound.escaped, Emulation.unescape_escape s⟩
  · rintro pieces rfl
    rw [EscapedStream.foldl_write]
    exact ⟨rfl, Nat.zero_add _⟩
  · intro pieces hcode hfit
    have hrun : pieces.foldlM Piece.put (empty.append []) =
        .ok (empty.append ([] ++ Bits.ofBytes s)) := foldlM_put hcode hfit
    have haligned : (empty.append (Bits.ofBytes s)).aligned = true := by
      rw [aligned_append_iff, show empty.pending = [] from rfl, Bits.length_ofBytes]
      simp
    have hbytes : (empty.append (Bits.ofBytes s)).out = EscapedStream.write {} s := by
      show EscapedStream.write {} (Bits.toBytes (Bits.ofBytes s)) = _
      rw [Bits.toBytes_ofBytes]
    rw [append_nil (by decide), List.nil_append] at hrun
    refine ⟨_, hrun, ?_, ?_⟩
    · rw [hbytes]
      rfl
    · simp only [byteCount, wholeBytes, haligned, if_true, hbytes]
      show Except.ok (0 + _) = _
      rw [Nat.zero_add]
      rfl

/-- Three zero bytes and a stop bit, put in as bytes, and as bits with a byte string among them. -/
theorem escaped_of_writes_sample :
    ([[0], [0, 0], [128]].foldl EscapedStream.write {}).bytes = [0, 0, 3, 0, 128] ∧
      (∃ t, [Piece.bits 7 0, .bit false, .payload [0], .bits 8 0, .ue 0, .bits 7 0].foldlM Piece.put
        empty = .ok t ∧ t.out.bytes = [0, 0, 3, 0, 128] ∧ t.byteCount = .ok 5) ∧
      ∃ b behind, [0, 128] = b :: behind ∧ b ≤ (3 : UInt8) := by
  obtain ⟨hbytes, hpieces, -, -, -, hescaped, -⟩ := escaped_of_writes [0, 0, 0, 128]
  exact ⟨(hbytes _ rfl).1, hpieces _ (by decide +kernel) (by decide +kernel), hescaped [] _ rfl⟩

end BitStream

end TiledVideo
