import TiledVideo.Proofs.Bitstream.CodeWords
import TiledVideo.Proofs.Bitstream.Escaping

/-!
# Scripts of syntax elements

A syntax structure is a list of elements, each a bit, a number of a fixed width or an Exp-Golomb code.
Whatever elements are written one after another and closed by a stop bit, a reader that takes the same
elements from the unescaped bytes gets their values back. It stands, after each of them, behind as many
bits as they have together, and it can tell the end: data are left exactly while a bit of a later element
is. The stop bit itself is never taken for data, although it is no different from any other bit.

Results:

* `Element.reads`, `Script.reads`: elements that fit are read back whatever comes behind them.
* `BitStream.cursor_close`: what a reader finds in a stream that is closed.
* `Script.script_read_back`: scripts are read back, with the position and the end of the data.
-/

namespace TiledVideo

/-! ## Elements -/

/-- A syntax element with its value. -/
inductive Element where
  | flag (b : Bool)
  /-- An unsigned number in `n` bits. -/
  | uint (n v : Nat)
  | ue (v : Nat)
  | se (x : Int)
  deriving DecidableEq, Repr

namespace Element

/-- The values that an element can carry so that they are read back. -/
def Fits : Element → Prop
  | flag _ => True
  | uint n v => n ≤ 32 ∧ v < 2 ^ n
  | ue v => v ≤ 2 ^ 32 - 2
  | se x => -(2 ^ 31 - 1) ≤ x ∧ x ≤ 2 ^ 31 - 1

instance : DecidablePred Fits
  | flag _ => inferInstanceAs (Decidable True)
  | uint n v => inferInstanceAs (Decidable (n ≤ 32 ∧ v < 2 ^ n))
  | ue v => inferInstanceAs (Decidable (v ≤ 2 ^ 32 - 2))
  | se x => inferInstanceAs (Decidable (-(2 ^ 31 - 1) ≤ x ∧ x ≤ 2 ^ 31 - 1))

/-- The number of bits of an element. -/
def width : Element → Nat
  | flag _ => 1
  | uint n _ => n
  | ue v => 2 * Nat.log2 (v + 1) + 1
  | se x => 2 * Nat.log2 (ExpGolomb.ofSigned x + 1) + 1

/-- The bits of an element. -/
def bits : Element → BitString
  | flag b => [b]
  | uint n v => Bits.ofNat n v
  | ue v => ExpGolomb.word v
  | se x => ExpGolomb.signedWord x

/-- What is put into a stream for an element. -/
def piece : Element → BitStream.Piece
  | flag b => .bit b
  | uint n v => .bits n v
  | ue v => .ue v
  | se x => .se x

/-- Reads an element of the same kind under a name. The value is that of the data. -/
def read (name : String) : Element → Reader ReadError Element
  | flag _ => flag <$> Reader.flag name
  | uint n _ => uint n <$> Reader.uint n name
  | ue _ => ue <$> Reader.ue name
  | se _ => se <$> Reader.se name

@[simp] theorem length_bits (e : Element) : e.bits.length = e.width := by
  cases e with
  | flag b => rfl
  | uint n v => exact Bits.length_ofNat n v
  | ue v => exact ExpGolomb.length_word v
  | se x => exact ExpGolomb.length_word _

theorem bits_eq_nil_iff (e : Element) : e.bits = [] ↔ e.width = 0 := by
  rw [← List.length_eq_zero_iff, length_bits]

variable {e : Element}

theorem code_piece (h : e.Fits) : e.piece.code = .ok e.bits := by
  cases e with
  | flag b => rfl
  | uint n v => exact Code.uint_eq_ok h.1 h.2
  | ue v => rfl
  | se x => rfl

theorem fitsAt_piece (e : Element) (n : Nat) : e.piece.fitsAt n = true := by
  cases e <;> rfl

theorem reads (name : String) (h : e.Fits) : (e.read name).Reads e.piece.code e := by
  cases e with
  | flag b => exact (Reader.reads_flag name b).map flag
  | uint n v => exact (Reader.reads_uint name h.1 h.2).map (uint n)
  | ue v => exact (Reader.reads_ue name (Nat.lt_of_le_of_lt h (by decide))).map ue
  | se x =>
    refine (Reader.reads_se name (ExpGolomb.ofSigned_lt_iff.2 ?_)).map se
    exact ⟨Int.lt_of_lt_of_le (by decide) h.1, Int.lt_of_le_of_lt h.2 (by decide)⟩

end Element

/-! ## Scripts -/

/-- Elements under the names that the errors of their readers carry. -/
abbrev Script := List (String × Element)

namespace Script

/-- The bits of all elements. -/
def bits (script : Script) : BitString :=
  script.flatMap (·.2.bits)

/-- The number of bits of all elements. -/
def width (script : Script) : Nat :=
  (script.map (·.2.width)).sum

/-- Writes all elements and closes them. -/
def write (script : Script) : Except WriteError BitStream :=
  BitStream.close <$> (script.map (·.2.piece)).foldlM BitStream.Piece.put .empty

/-- Reads elements of the same kinds. -/
def read (script : Script) : Reader ReadError (List Element) :=
  Reader.each (fun entry => entry.2.read entry.1) script

theorem length_bits (script : Script) : script.bits.length = script.width := by
  simp [bits, width, List.length_flatMap]

theorem bits_append (front later : Script) : (front ++ later).bits = front.bits ++ later.bits :=
  List.flatMap_append

variable {script : Script}

theorem each_code (h : ∀ entry ∈ script, entry.2.Fits) :
    Code.each BitStream.Piece.code (script.map (·.2.piece)) = .ok script.bits := by
  induction script with
  | nil => rfl
  | cons entry script ih =>
    obtain ⟨hfirst, hlater⟩ := List.forall_mem_cons.1 h
    show entry.2.piece.code ++ Code.each _ (script.map _) = _
    rw [Element.code_piece hfirst, ih hlater]
    rfl

theorem allFit_pieces (h : ∀ entry ∈ script, entry.2.Fits) (n : Nat) :
    BitStream.allFit n (script.map (·.2.piece)) = true := by
  induction script generalizing n with
  | nil => rfl
  | cons entry script ih =>
    obtain ⟨hfirst, hlater⟩ := List.forall_mem_cons.1 h
    rw [List.map_cons, BitStream.allFit, Element.fitsAt_piece, Element.code_piece hfirst]
    exact ih hlater _

/-- Elements are read back one after another, whatever comes behind them. -/
theorem reads (h : ∀ entry ∈ script, entry.2.Fits) :
    script.read.Reads (.ok script.bits) (script.map (·.2)) := by
  have heach : List.Forall₂ (fun entry e => (entry.2.read entry.1).Reads e.piece.code e) script
      (script.map (·.2)) := by
    rw [List.forall₂_map_right_iff, List.forall₂_same]
    exact fun entry hentry => Element.reads entry.1 (h entry hentry)
  have hcode : Code.each (fun e => e.piece.code) (script.map (·.2)) = .ok script.bits := by
    rw [← each_code h]
    simp only [Code.each, List.map_map, Function.comp_def]
  rw [← hcode]
  exact Reader.Reads.each heach

end Script

/-! ## Where a payload ends -/

namespace BitStream

/-- A stream that is closed holds all bits put into it and the stop bit behind them. -/
theorem close_append (bits : BitString) : (empty.append bits).close =
    empty.append (bits ++ Code.stopBits bits.length) := by
  have hpending : (empty.append bits).pending.length = bits.length % 8 := Bits.length_leftover bits
  rw [close, append_append, hpending, Code.stopBits, Code.stopBits, Nat.mod_mod]

/-- What a reader finds in a stream that is closed. -/
theorem cursor_close (bits : BitString) :
    Cursor.ofBytes (Emulation.unescape (empty.append bits).close.out.bytes) =
      ⟨bits ++ Code.stopBits bits.length, 0⟩ := by
  have hlength := Code.length_closed (Code.closed_ok bits)
  have hbytes : (empty.append bits).close.out.bytes =
      Emulation.escape (Bits.toBytes (bits ++ Code.stopBits bits.length)) := by
    rw [close_append]
    rfl
  rw [hbytes, Emulation.unescape_escape, Cursor.ofBytes, Bits.ofBytes_toBytes hlength]

end BitStream

namespace Reader

theorem finish_of_moreData {c : Cursor}
    (h : (moreData : Reader ReadError Bool) c = .ok true c) :
    finish c = .error .remainingData c := by
  rw [finish, bind_of_eq_ok h]
  rfl

end Reader

namespace Script

theorem write_eq {script : Script} (h : ∀ entry ∈ script, entry.2.Fits) :
    script.write = .ok (BitStream.empty.append script.bits).close := by
  have hrun : (script.map (·.2.piece)).foldlM BitStream.Piece.put (BitStream.empty.append []) =
      .ok (BitStream.empty.append ([] ++ script.bits)) :=
    BitStream.foldlM_put (each_code h) (allFit_pieces h 0)
  rw [BitStream.append_nil (by decide), List.nil_append] at hrun
  rw [write, hrun]
  rfl

theorem bits_eq_nil_iff {script : Script} :
    script.bits = [] ↔ ∀ entry ∈ script, entry.2.width = 0 := by
  simp only [bits, List.flatMap_eq_nil_iff, Element.bits_eq_nil_iff]

/-- Elements that fit can be written and closed, and are read back from the bytes. Between any two of
them the reader stands behind the bits of those that it has read. Data are left there, and the payload is
not accepted as read, exactly if a later element has a bit. -/
theorem script_read_back {script : Script} (h : ∀ entry ∈ script, entry.2.Fits) :
    ∃ s, script.write = .ok s ∧ s.aligned = true ∧ ∀ front later, script = front ++ later →
      ∃ c, front.read (.ofBytes (Emulation.unescape s.out.bytes)) = .ok (front.map (·.2)) c ∧
        c.position = front.width ∧
        ((∃ entry ∈ later, entry.2.width ≠ 0) →
          (Reader.moreData : Reader ReadError Bool) c = .ok true c ∧
          Reader.finish c = .error .remainingData c) ∧
        ((∀ entry ∈ later, entry.2.width = 0) →
          (Reader.moreData : Reader ReadError Bool) c = .ok false c ∧
          ∃ c', Reader.finish c = .ok () c') := by
  refine ⟨_, write_eq h, ?_, ?_⟩
  · rw [BitStream.close_append, BitStream.aligned_append_iff,
      show BitStream.empty.pending.length = 0 from rfl, Nat.zero_add]
    exact Code.length_closed (Code.closed_ok script.bits)
  · rintro front later rfl
    obtain ⟨_, hcode, hread⟩ := reads fun entry hentry => h entry (List.mem_append_left later hentry)
    cases hcode
    rw [BitStream.cursor_close]
    generalize hn : (bits (front ++ later)).length = n
    have hc := hread (later.bits ++ Code.stopBits n) 0
    rw [← List.append_assoc, ← bits_append, length_bits, Nat.zero_add] at hc
    have hmore : (Reader.moreData : Reader ReadError Bool) _ = _ :=
      Reader.moreData_stopBits later.bits n front.width
    refine ⟨_, hc, rfl, ?_, ?_⟩
    · intro hsome
      have hne : later.bits ≠ [] := by
        rw [Ne, bits_eq_nil_iff]
        simpa using hsome
      rw [List.isEmpty_eq_false_iff.2 hne] at hmore
      exact ⟨hmore, Reader.finish_of_moreData hmore⟩
    · intro hnone
      have hnil := bits_eq_nil_iff.2 hnone
      rw [hnil] at hmore ⊢
      -- no bit is left, so the stop bit is where it was put
      have hend : front.width = n := by
        rw [← hn, bits_append, hnil, List.append_nil, length_bits]
      obtain ⟨_, hempty, hfinish⟩ := Reader.readsTo_finish
      cases hempty
      rw [← hend]
      rw [← hend] at hmore
      exact ⟨hmore, _, hfinish front.width⟩

/-- Elements across the ends of bytes, zero bytes that are escaped within them, the largest Exp-Golomb
codes, and elements without bits. -/
def sample : Script := [
  ("a", .uint 7 0), ("b", .uint 0 0), ("c", .uint 32 1), ("d", .ue (2 ^ 32 - 2)), ("e", .flag false),
  ("f", .se (-(2 ^ 31 - 1))), ("g", .se (2 ^ 31 - 1)), ("h", .uint 0 0)]

theorem script_read_back_sample : (∀ entry ∈ sample, entry.2.Fits) ∧ ∃ s, sample.write = .ok s ∧
    (∃ c, read (sample.take 4) (.ofBytes (Emulation.unescape s.out.bytes)) =
        .ok ((sample.take 4).map (·.2)) c ∧ c.position = 102 ∧
      Reader.finish c = .error .remainingData c) ∧
    ∃ c c', sample.read (.ofBytes (Emulation.unescape s.out.bytes)) = .ok (sample.map (·.2)) c ∧
      c.position = 229 ∧ Reader.finish c = .ok () c' := by
  have hfits : ∀ entry ∈ sample, entry.2.Fits := by decide
  obtain ⟨s, hwrite, -, hread⟩ := script_read_back hfits
  obtain ⟨c, hfront, hposition, hmore, -⟩ := hread (sample.take 4) (sample.drop 4) rfl
  obtain ⟨d, hall, hend, -, hnone⟩ := hread sample [] (List.append_nil sample).symm
  obtain ⟨-, d', hfinish⟩ := hnone (by simp)
  exact ⟨hfits, s, hwrite, ⟨c, hfront, hposition.trans (by decide), (hmore (by decide)).2⟩,
    d, d', hall, hend.trans (by decide), hfinish⟩

end Script

end TiledVideo
