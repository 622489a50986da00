import TiledVideo.Proofs.Engine.Requests
import TiledVideo.Proofs.Engine.SliceData

/-!
# Access units that cannot be read

An access unit that cannot be read is given back as it came, and its parameter sets are forgotten, also
those that were read before the unit that cannot be read. So such access units can be put in anywhere:
whatever else the engines are asked for is answered as without them.

Results:

* `unreadable_iff`: where reading an access unit can fail.
* `unreadable_no_trace`: what the engines do with access units that cannot be read.
-/

namespace TiledVideo

/-! ## Where reading fails -/

/-- An access unit cannot be read with some parameter sets in force before it. -/
def Unreadable (ctx : Context) (bytes : Bytes) : Prop :=
  ∃ e, AccessUnit.decode ctx bytes = .error e

instance (ctx : Context) (bytes : Bytes) : Decidable (Unreadable ctx bytes) :=
  match h : AccessUnit.decode ctx bytes with
  | .error e => .isTrue ⟨e, h⟩
  | .ok _ => .isFalse fun ⟨_, he⟩ => nomatch h.symm.trans he

/-- Units cannot be read if one of them cannot be read in the state that those before it lead to. -/
theorem DecoderState.decodeNals_error_iff {s : DecoderState} {nals : List Bytes} :
    (∃ e, s.decodeNals nals = .error e) ↔
      ∃ front nal back units last e, nals = front ++ nal :: back ∧
        s.decodeNals front = .ok (units, last) ∧ last.decodeNal nal = .error e := by
  constructor
  · rintro ⟨e, h⟩
    induction nals generalizing s with
    | nil => cases h
    | cons nal back ih =>
      obtain hnal | ⟨unit, hunit, h⟩ := bind_eq_error_iff.1 h
      · exact ⟨[], nal, back, [], s, e, rfl, rfl, hnal⟩
      · obtain hback | ⟨_, -, h⟩ := bind_eq_error_iff.1 h
        · obtain ⟨front, bad, rest, units, last, e', rfl, hfront, hbad⟩ := ih hback
          have hread : s.decodeNals (nal :: front) = .ok (unit :: units, last) :=
            bind_eq_ok_iff.2 ⟨unit, hunit, bind_eq_ok_iff.2 ⟨_, hfront, rfl⟩⟩
          exact ⟨nal :: front, bad, rest, unit :: units, last, e', rfl, hread, hbad⟩
        · cases h
  · rintro ⟨front, nal, back, units, last, e, rfl, hfront, hnal⟩
    refine ⟨e, ?_⟩
    rw [decodeNals_append]
    have hrest : last.decodeNals (nal :: back) = .error e := bind_eq_error_iff.2 (.inl hnal)
    exact bind_eq_error_iff.2 (.inr ⟨_, hfront, bind_eq_error_iff.2 (.inl hrest)⟩)

/-- An access unit cannot be read if it is no byte stream or if one of its units cannot be read. The
parameter sets in front of that unit may have been read. -/
theorem unreadable_iff {ctx : Context} {bytes : Bytes} :
    Unreadable ctx bytes ↔ (∃ e, ByteStream.units bytes = .error e) ∨
      ∃ found front nal back units last e, ByteStream.units bytes = .ok found ∧
        found.map (·.nal) = front ++ nal :: back ∧
        (DecoderState.start ctx).decodeNals front = .ok (units, last) ∧
        last.decodeNal nal = .error e := by
  constructor
  · rintro ⟨e, h⟩
    obtain h | ⟨found, hfound, h⟩ := bind_eq_error_iff.1 h
    · cases hunits : ByteStream.units bytes with
      | error e' => exact .inl ⟨e', rfl⟩
      | ok found =>
        rw [hunits] at h
        cases h
    · obtain hnals | ⟨_, -, h⟩ := bind_eq_error_iff.1 h
      · obtain ⟨front, nal, back, units, last, e', hsplit, hfront, hnal⟩ :=
          DecoderState.decodeNals_error_iff.1 ⟨e, hnals⟩
        exact .inr ⟨found, front, nal, back, units, last, e', mapError_eq_ok_iff.1 hfound, hsplit,
          hfront, hnal⟩
      · cases h
  · rintro (⟨e, h⟩ | ⟨found, front, nal, back, units, last, e, hfound, hrest⟩)
    · refine ⟨.byteStream e, bind_eq_error_iff.2 (.inl ?_)⟩
      rw [h]
      rfl
    · obtain ⟨e', hnals⟩ :=
        DecoderState.decodeNals_error_iff.2 ⟨front, nal, back, units, last, e, hrest⟩
      exact ⟨e', bind_eq_error_iff.2
        (.inr ⟨found, mapError_eq_ok_iff.2 hfound, bind_eq_error_iff.2 (.inl hnals)⟩)⟩

/-! ## Splitters -/

namespace Splitter

variable {s : Splitter} {packet : Packet}

theorem send_unreadable (hidle : s.phase = .idle) (h : Unreadable s.ctx packet.data) :
    s.send packet = (.ok (), { s with phase := .passThrough packet }) := by
  obtain ⟨e, h⟩ := h
  simp only [send, hidle, h]

/-- The request is for an access unit that cannot be read. -/
def Request.Passing (ctx : Context) : Request → Prop
  | .send packet => Unreadable ctx packet.data
  | .receive => True
  | .flush => False

instance (ctx : Context) : DecidablePred (Request.Passing ctx)
  | .send packet => inferInstanceAs (Decidable (Unreadable ctx packet.data))
  | .receive => .isTrue trivial
  | .flush => .isFalse id

/-- The requests are for access units that cannot be read. If they come while the splitter waits for an
access unit, what is sent is received as well. If not, what is sent is refused. -/
def Passing (s : Splitter) (requests : List Request) : Prop :=
  (∀ request ∈ requests, request.Passing s.ctx) ∧
    ((s.phase = .idle ∧ (serveAll serve s requests).2.phase = .idle) ∨
      (s.phase ≠ .idle ∧ .receive ∉ requests))

instance (s : Splitter) (requests : List Request) : Decidable (s.Passing requests) :=
  inferInstanceAs (Decidable (_ ∧ (_ ∨ _)))

/-- Such requests change what the splitter is at, but only to give back what cannot be read. -/
theorem serve_passing {request : Request} {s₁ : Splitter} (hrequest : request.Passing s.ctx)
    (hidle : s.phase = .idle) (h : s₁ = s ∨ ∃ packet, s₁ = { s with phase := .passThrough packet }) :
    (s₁.serve request).2 = s ∨
      ∃ packet, (s₁.serve request).2 = { s with phase := .passThrough packet } := by
  obtain ⟨ctx, tiles, phase⟩ := s
  obtain rfl : phase = .idle := hidle
  cases request with
  | send packet =>
    obtain rfl | ⟨waiting, rfl⟩ := h
    · refine .inr ⟨packet, ?_⟩
      simp only [serve, send_unreadable rfl hrequest]
    · exact .inr ⟨waiting, rfl⟩
  | receive =>
    obtain rfl | ⟨waiting, rfl⟩ := h
    · exact .inl rfl
    · exact .inl rfl
  | flush => exact hrequest.elim

theorem serve_refused {request : Request} {s : Splitter} {ctx : Context}
    (hrequest : request.Passing ctx) (hbusy : s.phase ≠ .idle) (hne : request ≠ .receive) :
    (s.serve request).2 = s := by
  obtain ⟨_, tiles, phase⟩ := s
  cases request with
  | send packet =>
    cases phase with
    | idle => exact absurd rfl hbusy
    | passThrough waiting => rfl
    | distributing input next later => rfl
  | receive => exact absurd rfl hne
  | flush => exact hrequest.elim

/-- Access units that cannot be read leave no trace. -/
theorem Passing.state {requests : List Request} (h : s.Passing requests) :
    (serveAll serve s requests).2 = s := by
  obtain ⟨hall, ⟨hidle, hlast⟩ | ⟨hbusy, hreceive⟩⟩ := h
  · have hstate : (serveAll serve s requests).2 = s ∨
        ∃ packet, (serveAll serve s requests).2 = { s with phase := .passThrough packet } :=
      serveAll_keeps
        (P := fun s₁ : Splitter => s₁ = s ∨ ∃ packet, s₁ = { s with phase := .passThrough packet })
        (fun request hrequest _ => serve_passing (hall request hrequest) hidle) (.inl rfl)
    obtain hstate | ⟨packet, hstate⟩ := hstate
    · exact hstate
    · rw [hstate] at hlast
      cases hlast
  · refine serveAll_keeps (P := fun s₁ : Splitter => s₁ = s) (fun request hrequest s₁ hs₁ => ?_) rfl
    have hne : request ≠ .receive := by
      rintro rfl
      exact hreceive hrequest
    rw [hs₁]
    exact serve_refused (hall request hrequest) hbusy hne

end Splitter

/-! ## Placers -/

namespace Placer

variable {s : Placer} {packet : Packet}

theorem filter_unreadable (h : Unreadable s.ctx packet.data) :
    s.filter packet = (.ok (some packet), s) := by
  obtain ⟨e, h⟩ := h
  simp only [filter, h]

/-- The request is for an access unit that cannot be read. -/
def Request.Passing (ctx : Context) : Request → Prop
  | .filter packet => Unreadable ctx packet.data
  | .flush => False

instance (ctx : Context) : DecidablePred (Request.Passing ctx)
  | .filter packet => inferInstanceAs (Decidable (Unreadable ctx packet.data))
  | .flush => .isFalse id

/-- The requests are for access units that cannot be read. -/
def Passing (s : Placer) (requests : List Request) : Prop :=
  ∀ request ∈ requests, request.Passing s.ctx

instance (s : Placer) (requests : List Request) : Decidable (s.Passing requests) :=
  inferInstanceAs (Decidable (∀ request ∈ requests, request.Passing s.ctx))

/-- Access units that cannot be read leave no trace. -/
theorem Passing.state {requests : List Request} (h : s.Passing requests) :
    (serveAll serve s requests).2 = s := by
  refine serveAll_keeps (P := fun s₁ : Placer => s₁ = s) (fun request hrequest s₁ hs₁ => ?_) rfl
  have hpassing := h request hrequest
  rw [hs₁]
  cases request with
  | filter packet => rw [serve, filter_unreadable hpassing]
  | flush => exact hpassing.elim

end Placer

/-! ## Runs -/

/-- A splitter that waits takes an access unit that cannot be read, refuses all others until it has
given it back as it came, and is then at what it was before. A placer gives such an access unit back at
once. Wherever such access units come among other requests, these are all answered as without them. -/
theorem unreadable_no_trace :
    (∀ (s : Splitter) (packet : Packet), s.phase = .idle → Unreadable s.ctx packet.data →
      ∃ s₁, s.send packet = (.ok (), s₁) ∧
        (∀ other, s₁.send other = (.error .pendingOutput, s₁)) ∧
        s₁.receive = (.ok (some packet), s)) ∧
    (∀ (s : Placer) (packet : Packet), Unreadable s.ctx packet.data →
      s.filter packet = (.ok (some packet), s)) ∧
    (∀ (s : Splitter) (parts : List (RunPart Splitter.Request)),
      AllFit Splitter.serve Splitter.Passing s parts →
      serveParts Splitter.serve s parts = serveAll Splitter.serve s (ownRequests parts)) ∧
    ∀ (s : Placer) (parts : List (RunPart Placer.Request)),
      AllFit Placer.serve Placer.Passing s parts →
      serveParts Placer.serve s parts = serveAll Placer.serve s (ownRequests parts) := by
  refine ⟨fun s packet hidle h => ?_, fun s packet h => Placer.filter_unreadable h,
    fun s parts h => serveParts_eq (fun _ _ => Splitter.Passing.state) h,
    fun s parts h => serveParts_eq (fun _ _ => Placer.Passing.state) h⟩
  refine ⟨_, Splitter.send_unreadable hidle h, fun other => rfl, ?_⟩
  obtain ⟨ctx, tiles, phase⟩ := s
  obtain rfl : phase = .idle := hidle
  rfl

namespace Sample

/-- The picture up to a byte of the header of its last slice. -/
def cutPicture : Bytes := picture.take 98

/-- The picture is sent and received, and the cut one is put in before, in between and behind. -/
def splitterParts : List (RunPart Splitter.Request) :=
  [.inserted [.send { data := cutPicture }, .receive], .own (.send { data := picture }),
    .inserted [.send { data := cutPicture }], .own .receive, .own .receive,
    .inserted [.send { data := cutPicture }, .send { data := cutPicture }, .receive], .own .receive]

/-- The picture is placed twice, and the cut one is put in. -/
def placerParts : List (RunPart Placer.Request) :=
  [.inserted [.filter { data := cutPicture }], .own (.filter { data := picture }),
    .inserted [.filter { data := cutPicture }, .filter { data := cutPicture }],
    .own (.filter { data := picture })]

end Sample

open Sample in
theorem unreadable_no_trace_sample :
    (Splitter.empty.phase = .idle ∧ Unreadable Splitter.empty.ctx cutPicture ∧
      ∃ s₁, Splitter.empty.send { data := cutPicture } = (.ok (), s₁) ∧
        (∀ other, s₁.send other = (.error .pendingOutput, s₁)) ∧
        s₁.receive = (.ok (some { data := cutPicture }), Splitter.empty)) ∧
    (Unreadable placer.ctx cutPicture ∧
      placer.filter { data := cutPicture } = (.ok (some { data := cutPicture }), placer)) ∧
    (AllFit Splitter.serve Splitter.Passing .empty splitterParts ∧
      serveParts Splitter.serve .empty splitterParts =
        serveAll Splitter.serve .empty (ownRequests splitterParts)) ∧
    AllFit Placer.serve Placer.Passing placer placerParts ∧
      serveParts Placer.serve placer placerParts =
        serveAll Placer.serve placer (ownRequests placerParts) := by
  obtain ⟨hsplitter, hplacer, hsplitterRun, hplacerRun⟩ := unreadable_no_trace
  have hcut : Unreadable .empty cutPicture := by decide +kernel
  have hsplitterFit : AllFit Splitter.serve Splitter.Passing .empty splitterParts := by
    decide +kernel
  have hplacerFit : AllFit Placer.serve Placer.Passing placer placerParts := by decide +kernel
  exact ⟨⟨rfl, hcut, hsplitter .empty { data := cutPicture } rfl hcut⟩,
    ⟨hcut, hplacer placer { data := cutPicture } hcut⟩,
    ⟨hsplitterFit, hsplitterRun .empty splitterParts hsplitterFit⟩,
    hplacerFit, hplacerRun placer placerParts hplacerFit⟩

end TiledVideo
