import TiledVideo.Proofs.Bitstream.Endings

/-!
# Readers and what is behind them

A reader that looks no further than it reads gives the same value whatever comes behind. All elements
are read so, Exp-Golomb codes too: the run of zero bits in front of one is looked for further on, but it
ends at the bit set that comes next. Structures that are read element by element are then read so as
well.

Results:

* `Local.bind`, `Local.map`, `Local.times`: what is read so is put together of what is read so.
* `local_uint`, `local_ue`, `local_skipToByte`: elements.
* `Local.decodeFront`: the front of a payload is read in the same way with any other bytes behind it.
* `ClosesByte.front`: the front ends in a byte that is not zero if its last bit that is set was read.
-/

namespace TiledVideo.Reader

variable {ε ε' α β : Type}

/-- The reader takes some bits off a cursor to give a value, and would so whatever came behind them. -/
def Takes (p : Reader ε α) (c : Cursor) (taken : BitString) (a : α) (c' : Cursor) : Prop :=
  c.bits = taken ++ c'.bits ∧ c'.position = c.position + taken.length ∧
    ∀ rest, p ⟨taken ++ rest, c.position⟩ = .ok a ⟨rest, c'.position⟩

theorem takes_pure (a : α) (c : Cursor) : (pure a : Reader ε α).Takes c [] a c :=
  ⟨rfl, rfl, fun _ => rfl⟩

theorem Takes.bind {p : Reader ε α} {f : α → Reader ε β} {a : α} {b : β} {c c₁ c' : Cursor}
    {first second : BitString} (ha : p.Takes c first a c₁) (hb : (f a).Takes c₁ second b c') :
    (p >>= f).Takes c (first ++ second) b c' := by
  obtain ⟨hbits₁, hpos₁, hread₁⟩ := ha
  obtain ⟨hbits₂, hpos₂, hread₂⟩ := hb
  refine ⟨?_, ?_, fun rest => ?_⟩
  · rw [hbits₁, hbits₂, List.append_assoc]
  · rw [hpos₂, hpos₁, List.length_append, Nat.add_assoc]
  · rw [List.append_assoc, bind_of_eq_ok (hread₁ (second ++ rest)), hread₂ rest]

/-- What the reader reads depends on nothing that comes behind it. -/
def Local (p : Reader ε α) : Prop :=
  ∀ c a c', p c = .ok a c' → ∃ taken, c.bits = taken ++ c'.bits ∧
    c'.position = c.position + taken.length ∧
    ∀ rest, p ⟨taken ++ rest, c.position⟩ = .ok a ⟨rest, c'.position⟩

/-! ## Structures -/

theorem local_pure (a : α) : (pure a : Reader ε α).Local := by
  rintro c _ _ ⟨⟩
  exact ⟨[], takes_pure a c⟩

theorem local_throw (e : ε) : (throw e : Reader ε α).Local :=
  fun _ _ _ => nofun

theorem Local.bind {p : Reader ε α} {f : α → Reader ε β} (hp : p.Local) (hf : ∀ a, (f a).Local) :
    (p >>= f).Local := by
  intro c b c' h
  obtain ⟨a, c₁, ha, hb⟩ := step_bind_eq_ok.1 h
  obtain ⟨first, hfirst⟩ := hp c a c₁ ha
  obtain ⟨second, hsecond⟩ := hf a c₁ b c' hb
  exact ⟨first ++ second, Takes.bind hfirst hsecond⟩

theorem Local.map {p : Reader ε α} (hp : p.Local) (f : α → β) : (f <$> p).Local := by
  rw [map_eq_pure_bind]
  exact hp.bind fun a => local_pure (f a)

theorem mapError_eq_ok {p : Reader ε α} {f : ε → ε'} {c c' : Cursor} {a : α} :
    p.mapError f c = .ok a c' ↔ p c = .ok a c' := by
  unfold Reader.mapError
  constructor
  · intro h
    split at h
    · next b c₁ hb =>
      cases h
      exact hb
    · cases h
  · intro h
    rw [h]

theorem Takes.mapError {p : Reader ε α} {c c' : Cursor} {a : α} {taken : BitString}
    (h : p.Takes c taken a c') (f : ε → ε') : (p.mapError f).Takes c taken a c' :=
  ⟨h.1, h.2.1, fun rest => mapError_eq_ok.2 (h.2.2 rest)⟩

theorem Local.mapError {p : Reader ε α} (hp : p.Local) (f : ε → ε') : (p.mapError f).Local := by
  intro c a c' h
  obtain ⟨taken, htaken⟩ := hp c a c' (mapError_eq_ok.1 h)
  exact ⟨taken, Takes.mapError htaken f⟩

theorem local_ensure (condition : Bool) (e : ε) : (ensure condition e).Local := by
  unfold ensure
  split
  · exact local_pure ()
  · exact local_throw e

theorem local_require (value : Option α) (e : ε) : (require value e).Local := by
  cases value with
  | none => exact local_throw e
  | some a => exact local_pure a

theorem local_ofExcept (value : Except ε α) : (ofExcept value).Local := by
  cases value with
  | error e => exact local_throw e
  | ok a => exact local_pure a

theorem Local.optional {p : Reader ε α} (hp : p.Local) (present : Bool) :
    (optional present p).Local := by
  cases present with
  | false => exact local_pure none
  | true => exact hp.map some

theorem Local.optionalD {p : Reader ε α} (hp : p.Local) (present : Bool) (inferred : α) :
    (optionalD present p inferred).Local := by
  cases present with
  | false => exact local_pure inferred
  | true => exact hp

theorem Local.times {p : Reader ε α} (hp : p.Local) (n : Nat) : (times n p).Local := by
  induction n with
  | zero => exact local_pure []
  | succ n ih => exact hp.bind fun _ => ih.bind fun _ => local_pure _

theorem local_each {p : α → Reader ε β} (hp : ∀ a, (p a).Local) (as : List α) :
    (each p as).Local := by
  induction as with
  | nil => exact local_pure []
  | cons a as ih => exact (hp a).bind fun _ => ih.bind fun _ => local_pure _

/-! ## Elements -/

theorem flag_eq_ok {element : String} {b : Bool} {c c' : Cursor} (h : flag element c = .ok b c') :
    c.bits = b :: c'.bits ∧ c'.position = c.position + 1 := by
  obtain ⟨bits, pos⟩ := c
  cases bits with
  | nil => cases h
  | cons b' rest =>
    cases h
    exact ⟨rfl, rfl⟩

theorem local_flag (element : String) : (flag element).Local := by
  intro c b c' h
  obtain ⟨hbits, hpos⟩ := flag_eq_ok h
  exact ⟨[b], hbits, hpos, fun rest => by rw [hpos]; rfl⟩

theorem cursor_of_bits {n : Nat} {element : String} {bs : BitString} {c c' : Cursor}
    (h : bits n element c = .ok bs c') :
    bs = c.bits.take n ∧ c' = ⟨c.bits.drop n, c.position + n⟩ := by
  unfold bits at h
  dsimp only at h
  split at h
  · cases h
  · cases h
    exact ⟨rfl, rfl⟩

theorem local_bits (n : Nat) (element : String) : (bits n element).Local := by
  intro c bs c' h
  have hlength := bits_eq_ok h
  obtain ⟨rfl, rfl⟩ := cursor_of_bits h
  exact ⟨_, (List.take_append_drop n c.bits).symm, by rw [hlength],
    fun rest => bits_append hlength⟩

theorem local_uint (n : Nat) (element : String) : (uint n element).Local := by
  unfold uint
  split
  · exact local_throw _
  · exact (local_bits n element).map _

theorem local_skip (n : Nat) (element : String) : (skip n element).Local :=
  (local_bits n element).map _

/-- A run of fewer than `n` zero bits ends at a bit that is set, or there is no bit behind it. -/
theorem drop_zeros {n k : Nat} {bits : BitString} (hk : ((bits.take n).takeWhile (!·)).length = k)
    (hlt : k < n) : bits = List.replicate k false ++ bits.drop k ∧
      (bits.drop k).head? ≠ some false := by
  induction n generalizing bits k with
  | zero => exact absurd hlt (Nat.not_lt_zero k)
  | succ n ih =>
    cases bits with
    | nil =>
      cases hk
      exact ⟨rfl, nofun⟩
    | cons b bits =>
      cases b with
      | true =>
        cases hk
        exact ⟨rfl, nofun⟩
      | false =>
        obtain rfl : ((bits.take n).takeWhile (!·)).length + 1 = k := hk
        obtain ⟨hbits, hhead⟩ := ih rfl (Nat.lt_of_succ_lt_succ hlt)
        exact ⟨congrArg (false :: ·) hbits, hhead⟩

theorem zeroRun_eq_ok {element : String} {k : Nat} {c c' : Cursor}
    (h : zeroRun element c = .ok k c') : k < 32 ∧ c.bits = List.replicate k false ++ c'.bits ∧
      c'.position = c.position + k ∧ c'.bits.head? ≠ some false := by
  have hle : ((c.bits.take 32).takeWhile (!·)).length ≤ 32 :=
    Nat.le_trans (List.takeWhile_prefix _).length_le (List.length_take_le 32 c.bits)
  unfold zeroRun at h
  dsimp only at h
  split at h
  · cases h
  · next hne =>
    cases h
    have hlt := Nat.lt_of_le_of_ne hle hne
    obtain ⟨hbits, hhead⟩ := drop_zeros rfl hlt
    exact ⟨hlt, hbits, rfl, hhead⟩

theorem local_ue (element : String) : (ue element).Local := by
  intro c v c' h
  obtain ⟨k, c₁, hrun, h⟩ := step_bind_eq_ok.1 h
  obtain ⟨hk, hbits, hpos, hhead⟩ := zeroRun_eq_ok hrun
  have hlater : Local (flag element >>= fun _ => uint k element >>= fun low =>
      pure (2 ^ k - 1 + low)) :=
    (local_flag element).bind fun _ => (local_uint k element).bind fun _ => local_pure _
  obtain ⟨taken, htaken, hpos', hread⟩ := hlater c₁ v c' h
  -- a bit was read behind the run, and it is set
  obtain ⟨later, rfl⟩ : ∃ later, taken = true :: later := by
    cases taken with
    | nil => cases hread []
    | cons b later =>
      rw [htaken] at hhead
      cases b with
      | false => exact absurd rfl hhead
      | true => exact ⟨later, rfl⟩
  refine ⟨List.replicate k false ++ true :: later, ?_, ?_, fun rest => ?_⟩
  · rw [hbits, htaken, List.append_assoc]
  · rw [hpos', hpos, List.length_append, List.length_replicate, Nat.add_assoc]
  · rw [List.append_assoc, List.cons_append, ue,
      bind_of_eq_ok (zeroRun_append element hk _ c.position), ← hpos, ← List.cons_append]
    exact hread rest

theorem local_se (element : String) : (se element).Local :=
  (local_ue element).map _

theorem local_position : (position : Reader ε Nat).Local := by
  rintro c _ _ ⟨⟩
  exact ⟨[], rfl, rfl, fun _ => rfl⟩

theorem local_skipToByte (element : String) : (skipToByte element).Local :=
  local_position.bind fun _ => local_skip _ element

/-! ## Ends of bytes -/

/-- The reader ends between two bytes, and has read a bit that is set in the byte in front. -/
structure ClosesByte (p : Reader ε α) : Prop where
  isLocal : p.Local
  last : ∀ c a c', p c = .ok a c' → c'.position % 8 = 0 ∧
    ∃ taken later, c.bits = taken ++ true :: later ++ c'.bits ∧ later.length < 8

theorem ClosesByte.bind {p : Reader ε α} {f : α → Reader ε β} (hp : p.Local)
    (hf : ∀ a, (f a).ClosesByte) : (p >>= f).ClosesByte := by
  refine ⟨hp.bind fun a => (hf a).isLocal, fun c b c' h => ?_⟩
  obtain ⟨a, c₁, ha, hb⟩ := step_bind_eq_ok.1 h
  obtain ⟨first, hfirst, -⟩ := hp c a c₁ ha
  obtain ⟨hend, taken, later, hbits, hlater⟩ := (hf a).last c₁ b c' hb
  exact ⟨hend, first ++ taken, later, by rw [hfirst, hbits]; simp, hlater⟩

/-- What reads nothing does not move the end. -/
theorem ClosesByte.bind_pure {p : Reader ε α} (hp : p.ClosesByte) (f : α → β) :
    (p >>= fun a => pure (f a)).ClosesByte := by
  refine ⟨hp.isLocal.bind fun _ => local_pure _, fun c b c' h => ?_⟩
  obtain ⟨a, c₁, ha, hb⟩ := step_bind_eq_ok.1 h
  cases hb
  exact hp.last c a c' ha

theorem skipToByte_eq_ok {element : String} {c c' : Cursor} {u : Unit}
    (h : skipToByte element c = .ok u c') : c'.position % 8 = 0 ∧
      ∃ skipped, c.bits = skipped ++ c'.bits ∧ skipped.length < 8 := by
  obtain ⟨n, c₁, hposition, h⟩ := step_bind_eq_ok.1 h
  cases hposition
  have hskip : (skip ((8 - c.position % 8) % 8) element) =
      bits ((8 - c.position % 8) % 8) element >>= fun _ => pure () := map_eq_pure_bind _ _
  rw [hskip] at h
  obtain ⟨bs, c₂, hbits, hlast⟩ := step_bind_eq_ok.1 h
  cases hlast
  have hlength := bits_eq_ok hbits
  obtain ⟨rfl, rfl⟩ := cursor_of_bits hbits
  refine ⟨?_, _, (List.take_append_drop _ c.bits).symm, ?_⟩
  · dsimp only
    omega
  · omega

/-! ## Fronts of payloads -/

theorem decodeFront_eq_ok_iff {p : Reader ε α} {payload : Bytes} {a : α} {n : Nat} :
    p.decodeFront payload = .ok (a, n) ↔ ∃ rest, p (.ofBytes payload) = .ok a ⟨rest, n⟩ := by
  unfold Reader.decodeFront
  constructor
  · intro h
    split at h
    · next b c hread =>
      cases h
      exact ⟨c.bits, hread⟩
    · cases h
  · rintro ⟨rest, h⟩
    rw [h]

/-- The front of a payload is read in the same way whatever comes behind it. -/
theorem Local.decodeFront {p : Reader ε α} (hp : p.Local) {front data : Bytes} {a : α}
    (h : p.decodeFront (front ++ data) = .ok (a, 8 * front.length)) (data' : Bytes) :
    p.decodeFront (front ++ data') = .ok (a, 8 * front.length) := by
  obtain ⟨rest, hread⟩ := decodeFront_eq_ok_iff.1 h
  obtain ⟨taken, hbits, hpos, hrest⟩ := hp _ a _ hread
  have hlength : (Bits.ofBytes front).length = taken.length := by
    rw [Bits.length_ofBytes]
    exact hpos.trans (Nat.zero_add _)
  obtain ⟨rfl, -⟩ := List.append_inj ((Bits.ofBytes_append front data).symm.trans hbits) hlength
  refine decodeFront_eq_ok_iff.2 ⟨Bits.ofBytes data', ?_⟩
  rw [Cursor.ofBytes, Bits.ofBytes_append]
  exact hrest (Bits.ofBytes data')

/-- The last byte is not zero if it has one of the bits. -/
theorem getLast?_of_set {front : Bytes} {taken later : BitString}
    (h : Bits.ofBytes front = taken ++ true :: later) (hlater : later.length < 8) :
    front.getLast? ≠ some 0 := by
  intro hlast
  obtain ⟨initial, rfl⟩ := List.getLast?_eq_some_iff.1 hlast
  have hzeros : Bits.ofBytes [0] = List.replicate 8 false := by decide
  rw [Bits.ofBytes_append, hzeros] at h
  have hsuffix : true :: later <:+ List.replicate 8 false :=
    List.suffix_of_suffix_length_le ⟨taken, h.symm⟩ ⟨_, rfl⟩ hlater
  have hmem : true ∈ List.replicate 8 false := hsuffix.subset List.mem_cons_self
  simp at hmem

/-- A reader that ends between two bytes has read a front of the payload. -/
theorem ClosesByte.front {p : Reader ε α} (hp : p.ClosesByte) {payload : Bytes} {a : α} {n : Nat}
    (h : p.decodeFront payload = .ok (a, n)) :
    n = 8 * (payload.take (n / 8)).length ∧ (payload.take (n / 8)).getLast? ≠ some 0 := by
  obtain ⟨rest, hread⟩ := decodeFront_eq_ok_iff.1 h
  obtain ⟨taken, hbits, hpos, -⟩ := hp.isLocal _ a _ hread
  obtain ⟨height, before, later, hset, hlater⟩ := hp.last _ a _ hread
  obtain rfl : taken = before ++ true :: later := List.append_cancel_right (hbits.symm.trans hset)
  have htotal : (Cursor.ofBytes payload).bits.length = 8 * payload.length :=
    Bits.length_ofBytes payload
  have hn : n = (before ++ true :: later).length := hpos.trans (Nat.zero_add _)
  have hlength : n = 8 * (payload.take (n / 8)).length := by
    have hall := congrArg List.length hbits
    dsimp only at height
    rw [List.length_append] at hall
    rw [List.length_take]
    omega
  have hsplit : Bits.ofBytes (payload.take (n / 8)) ++ Bits.ofBytes (payload.drop (n / 8)) =
      before ++ true :: later ++ rest := by
    rw [← Bits.ofBytes_append, List.take_append_drop]
    exact hbits
  have hfront : (Bits.ofBytes (payload.take (n / 8))).length = (before ++ true :: later).length := by
    rw [Bits.length_ofBytes, ← hlength, hn]
  exact ⟨hlength, getLast?_of_set (List.append_inj hsplit hfront).1 hlater⟩

end TiledVideo.Reader
