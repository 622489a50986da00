import TiledVideo.Proofs.Nal.TrailingZeros

/-!
# The parts of a byte stream

A byte string that begins with a start code, which zero bytes may precede, falls into parts in exactly
one way: zero bytes, and then segments, each a start code with a body behind it and zero bytes behind the
body. A body does not end in a zero byte, and no start code begins in a body or in its zero bytes. The
units found in a byte stream are the bodies that have bytes, each with its start code and the zero byte
in front of that, if there is one.

Results:

* `pieces_flatMap`: a byte stream is cut into what is behind its start codes.
* `bytes_ofBytes`, `ofBytes_bytes`: byte streams and their parts determine each other.
* `units_bytes`: the units found are those of the parts.
* `units_decomposed`: the units found in any byte string.
-/

namespace TiledVideo.ByteStream

/-! ## Parts -/

/-- What is behind a start code: a unit, which may have no bytes, and zero bytes. -/
structure Segment where
  body : Bytes
  zeros : Nat
  deriving DecidableEq, Repr

namespace Segment

/-- The bytes up to the next start code. -/
def piece (p : Segment) : Bytes :=
  p.body ++ List.replicate p.zeros 0

/-- The bytes with the start code. -/
def bytes (p : Segment) : Bytes :=
  startCode ++ p.piece

/-- No zero byte at the end counts to the body, and no start code is passed over. -/
structure Valid (p : Segment) : Prop where
  last : p.body.getLast? ≠ some 0
  noStartCode : ¬ startCode <:+: p.piece

/-- The segment with the bytes `piece` behind its start code. -/
def ofPiece (piece : Bytes) : Segment where
  body := trimZeros piece
  zeros := endZeros piece

theorem piece_ofPiece (bytes : Bytes) : (ofPiece bytes).piece = bytes :=
  trimZeros_append_endZeros bytes

theorem ofPiece_piece {p : Segment} (h : p.body.getLast? ≠ some 0) : ofPiece p.piece = p := by
  have hbody : trimZeros p.piece = p.body := trimZeros_append_zeros h p.zeros
  have hlength := congrArg List.length (trimZeros_append_endZeros p.piece)
  rw [hbody, List.length_append, piece, List.length_append, List.length_replicate,
    List.length_replicate] at hlength
  have hzeros : endZeros p.piece = p.zeros := Nat.add_left_cancel hlength
  rw [ofPiece, hbody, hzeros]

theorem valid_ofPiece {bytes : Bytes} (h : ¬ startCode <:+: bytes) : (ofPiece bytes).Valid :=
  ⟨getLast?_trimZeros bytes, by rwa [piece_ofPiece]⟩

/-- The unit of a segment that follows `before`, unless the body has no bytes. A zero byte in front of
the start code belongs to it. -/
def units (before : Bytes) (p : Segment) : List FramedUnit :=
  if p.body = [] then []
  else
    let zeroByte : Bytes := if before.getLast? = some 0 then [0] else []
    [⟨zeroByte ++ startCode ++ p.body, p.body⟩]

end Segment

/-- A byte stream in parts. -/
structure Parts where
  /-- The number of zero bytes in front of the first start code. -/
  lead : Nat
  segments : List Segment
  deriving DecidableEq, Repr

namespace Parts

/-- The bytes of all parts. -/
def bytes (d : Parts) : Bytes :=
  List.replicate d.lead 0 ++ d.segments.flatMap Segment.bytes

/-- There is a start code, and what is behind each goes up to the next one. -/
structure Valid (d : Parts) : Prop where
  nonempty : d.segments ≠ []
  segments : ∀ p ∈ d.segments, p.Valid

/-- The units of segments that follow `before`. -/
def unitsBehind (before : Bytes) : List Segment → List FramedUnit
  | [] => []
  | p :: later => p.units before ++ unitsBehind (before ++ p.bytes) later

/-- The units of all parts. -/
def units (d : Parts) : List FramedUnit :=
  unitsBehind (List.replicate d.lead 0) d.segments

/-- The parts of a byte string. -/
def ofBytes (bytes : Bytes) : Parts where
  lead := (pieces bytes).1.length
  segments := (pieces bytes).2.map Segment.ofPiece

end Parts

/-! ## Cutting and joining -/

theorem pieces_flatMap {front : Bytes} (hfront : ¬ startCode <:+: front) {ps : List Segment}
    (h : ∀ p ∈ ps, p.Valid) :
    pieces (front ++ ps.flatMap Segment.bytes) = (front, ps.map Segment.piece) := by
  -- each segment is in turn what is in front of the next start code
  induction ps generalizing front with
  | nil =>
    rw [List.flatMap_nil, List.append_nil]
    exact pieces_of_noStartCode hfront
  | cons p ps ih =>
    obtain ⟨hp, hlater⟩ := List.forall_mem_cons.1 h
    rw [List.flatMap_cons, Segment.bytes, List.append_assoc, ← List.append_assoc front,
      pieces_append_startCode, pieces_of_noStartCode hfront, ih hp.noStartCode hlater]
    rfl

/-- Nothing is lost where a byte string is cut. -/
theorem append_flatMap_pieces (bytes : Bytes) :
    (pieces bytes).1 ++ (pieces bytes).2.flatMap (startCode ++ ·) = bytes := by
  induction bytes using pieces.induct with
  | case1 rest piece later hrest ih =>
    have hcut : pieces (0 :: 0 :: 1 :: rest) = ([], (pieces rest).1 :: (pieces rest).2) := rfl
    rw [hcut, List.flatMap_cons, List.nil_append, List.append_assoc, ih]
    rfl
  | case2 b rest hstart piece later hrest ih =>
    have hcut : pieces (b :: rest) = (b :: (pieces rest).1, (pieces rest).2) := by
      rw [pieces]
      exact hstart
    rw [hcut, List.cons_append, ih]
  | case3 => rfl

theorem noStartCode_zeros (n : Nat) : ¬ startCode <:+: List.replicate n 0 := by
  have hnil : ¬ startCode <:+: [] := by decide
  exact startCode_not_infix_append_zeros hnil n

theorem pieces_of_hasStartCode {bytes : Bytes} (h : hasStartCode bytes = true) :
    (∃ n, (pieces bytes).1 = List.replicate n 0) ∧ (pieces bytes).2 ≠ [] := by
  obtain ⟨n, rest, rfl⟩ := hasStartCode_iff.1 h
  rw [pieces_append_startCode, pieces_of_noStartCode (noStartCode_zeros n)]
  exact ⟨⟨n, rfl⟩, by simp⟩

namespace Parts

theorem bytes_ofBytes {bytes : Bytes} (h : hasStartCode bytes = true) :
    (ofBytes bytes).bytes = bytes := by
  obtain ⟨⟨n, hlead⟩, -⟩ := pieces_of_hasStartCode h
  have hbytes : ∀ piece, (Segment.ofPiece piece).bytes = startCode ++ piece := fun piece => by
    rw [Segment.bytes, Segment.piece_ofPiece]
  have hall := append_flatMap_pieces bytes
  rw [hlead] at hall
  simpa only [Parts.bytes, ofBytes, hlead, List.length_replicate, List.flatMap_map, hbytes]
    using hall

theorem valid_ofBytes {bytes : Bytes} (h : hasStartCode bytes = true) : (ofBytes bytes).Valid := by
  refine ⟨by simpa [ofBytes] using (pieces_of_hasStartCode h).2, fun p hp => ?_⟩
  obtain ⟨piece, hpiece, rfl⟩ := List.mem_map.1 hp
  exact Segment.valid_ofPiece (noStartCode_of_mem_pieces hpiece)

variable {d : Parts}

theorem pieces_bytes (h : ∀ p ∈ d.segments, p.Valid) :
    pieces d.bytes = (List.replicate d.lead 0, d.segments.map Segment.piece) :=
  pieces_flatMap (noStartCode_zeros d.lead) h

theorem ofBytes_bytes (h : ∀ p ∈ d.segments, p.Valid) : ofBytes d.bytes = d := by
  have hsegments : (d.segments.map Segment.piece).map Segment.ofPiece = d.segments := by
    rw [List.map_map]
    have hback : ∀ p ∈ d.segments, (Segment.ofPiece ∘ Segment.piece) p = id p :=
      fun p hp => Segment.ofPiece_piece (h p hp).last
    rw [List.map_congr_left hback, List.map_id]
  rw [ofBytes, pieces_bytes h, hsegments, List.length_replicate]

/-! ## Units -/

/-- The byte in front of the next start code is the last one behind this start code, if there is any. -/
theorem getLast?_append_bytes (before : Bytes) (p : Segment) :
    (before ++ p.bytes).getLast? = some 0 ↔ p.piece.getLast? = some 0 := by
  rw [Segment.bytes, ← List.append_assoc, List.getLast?_append]
  cases p.piece.getLast? with
  | none => simp [startCode]
  | some b => rfl

theorem unitsAfter_map_piece {ps : List Segment} (h : ∀ p ∈ ps, p.Valid) {before piece : Bytes}
    (hlast : piece.getLast? = some 0 ↔ before.getLast? = some 0) :
    unitsAfter piece (ps.map Segment.piece) = unitsBehind before ps := by
  -- of all bytes in front of a start code the reader has only those of the last piece
  induction ps generalizing before piece with
  | nil => rfl
  | cons p ps ih =>
    obtain ⟨hp, hlater⟩ := List.forall_mem_cons.1 h
    have hbody : trimZeros p.piece = p.body := trimZeros_append_zeros hp.last p.zeros
    have hnext := ih hlater (getLast?_append_bytes before p).symm
    rw [List.map_cons, unitsAfter, hbody, hnext, unitsBehind, Segment.units]
    by_cases hempty : p.body = []
    · simp [hempty]
    · simp [hempty, hlast]

theorem hasStartCode_bytes (h : d.segments ≠ []) : hasStartCode d.bytes = true := by
  obtain ⟨p, ps, hsegments⟩ := List.exists_cons_of_ne_nil h
  refine hasStartCode_iff.2 ⟨d.lead, p.piece ++ ps.flatMap Segment.bytes, ?_⟩
  rw [Parts.bytes, hsegments, List.flatMap_cons, Segment.bytes]
  simp only [List.append_assoc]

/-- The units found in a byte stream are those of its parts. -/
theorem units_bytes (h : d.Valid) : ByteStream.units d.bytes = .ok d.units := by
  rw [units_eq_ok_iff, found, pieces_bytes h.segments]
  exact ⟨hasStartCode_bytes h.nonempty, unitsAfter_map_piece h.segments Iff.rfl⟩

end Parts

/-! ## Any byte string -/

theorem units_isOk_iff {bytes : Bytes} :
    (∃ us, units bytes = .ok us) ↔ hasStartCode bytes = true := by
  constructor
  · rintro ⟨us, h⟩
    exact (units_eq_ok_iff.1 h).1
  · intro h
    exact ⟨_, units_eq_ok_iff.2 ⟨h, rfl⟩⟩

/-- The units found in a byte string, which are given exactly if it begins with two or more zero bytes
and `01`, are those of its parts, and there is one way to take it apart. Units that can be told from what
is around them are found as they were put in, if there are any. -/
theorem units_decomposed :
    (∀ bytes, (∃ us, units bytes = .ok us) ↔
      ∃ n rest, 2 ≤ n ∧ bytes = List.replicate n 0 ++ 1 :: rest) ∧
    (∀ bytes us, units bytes = .ok us → ∃ d : Parts, d.Valid ∧ d.bytes = bytes ∧ d.units = us ∧
      ∀ d' : Parts, d'.Valid → d'.bytes = bytes → d' = d) ∧
    ∀ us : List (Nat × Bytes), us ≠ [] → (∀ u ∈ us, Solid u.2) →
      units (spaced us) = .ok (us.map behindZeros) := by
  refine ⟨fun bytes => ?_, fun bytes us h => ?_, fun us => units_spaced⟩
  · rw [units_isOk_iff, hasStartCode_iff]
    constructor
    · rintro ⟨n, rest, rfl⟩
      exact ⟨n + 2, rest, Nat.le_add_left 2 n, replicate_append_startCode n rest⟩
    · rintro ⟨n, rest, hn, rfl⟩
      refine ⟨n - 2, rest, ?_⟩
      rw [replicate_append_startCode, Nat.sub_add_cancel hn]
  · have hstart := units_isOk_iff.1 ⟨us, h⟩
    have hvalid := Parts.valid_ofBytes hstart
    have hbytes := Parts.bytes_ofBytes hstart
    refine ⟨Parts.ofBytes bytes, hvalid, hbytes, ?_, ?_⟩
    · have hunits := Parts.units_bytes hvalid
      rw [hbytes, h] at hunits
      exact (Except.ok.inj hunits).symm
    · rintro d hd rfl
      exact (Parts.ofBytes_bytes hd.segments).symm

/-- Start codes next to each other, zero bytes at the front and between units, and a start code at the
end with only a zero byte behind it. -/
theorem units_decomposed_sample :
    (∃ d : Parts, d.Valid ∧ d.bytes = [0, 0, 0, 0, 1, 0, 0, 1, 7, 0, 0, 0, 1, 9, 0, 0, 1, 0] ∧
      d.units = [⟨[0, 0, 1, 7], [7]⟩, ⟨[0, 0, 0, 1, 9], [9]⟩]) ∧
    units (spaced [(3, [7]), (0, [0, 0, 3, 9])]) =
      .ok [⟨[0, 0, 0, 1, 7], [7]⟩, ⟨[0, 0, 1, 0, 0, 3, 9], [0, 0, 3, 9]⟩] := by
  obtain ⟨-, hparts, hspaced⟩ := units_decomposed
  obtain ⟨d, hvalid, hbytes, hunits, -⟩ :=
    hparts [0, 0, 0, 0, 1, 0, 0, 1, 7, 0, 0, 0, 1, 9, 0, 0, 1, 0] _ rfl
  refine ⟨⟨d, hvalid, hbytes, hunits⟩, hspaced _ (by decide) ?_⟩
  simp only [List.forall_mem_cons]
  exact ⟨⟨by decide, by decide, by decide⟩, ⟨by decide, by decide, by decide⟩, by simp⟩

/-- No units are found where none were put in: a byte stream without a start code is refused. -/
theorem not_forall_spaced : ¬ ∀ us : List (Nat × Bytes), (∀ u ∈ us, Solid u.2) →
    ∃ found, units (spaced us) = .ok found ∧ found.map (·.nal) = us.map Prod.snd := by
  intro h
  obtain ⟨found, hfound, -⟩ := h [] (by simp)
  cases hfound

end TiledVideo.ByteStream
