import TiledVideo.Proofs.Engine.PassingThrough
import TiledVideo.Proofs.Nal.Sequences

/-!
# Parameter sets that are sent ahead

An access unit without slices only brings parameter sets, which wait in the streams. If another access
unit comes behind it, a splitter does with the two of them what it does with both in one: it reads the
same units with the same sets in force, distributes the same parameter sets in the same order, and gives
out the same packets.

This is not so if the second one cannot be read, since then both in one cannot be read either.

Results:

* `TileStreams.distributeAll_append`: parameter sets that are distributed in two parts.
* `Splitter.serve_alike`: splitters that differ in the packet at hand, but not in its timing.
* `Splitter.sent_ahead`: what a splitter gives out for two access units, in one packet or in two.
-/

namespace TiledVideo

/-! ## Parameter sets -/

namespace TileStreams

variable {memory : Memory} {t t₁ : TileStreams} {front back : List DecodedUnit}

/-- Whether a picture parameter set follows is seen in the units that were distributed. -/
theorem distribute_append (h : distribute front t = .ok () t₁) (back : List DecodedUnit) :
    distribute (front ++ back) t = distribute back t₁ := by
  induction front generalizing t with
  | nil =>
    cases h
    rfl
  | cons unit front ih =>
    have hnext : ∀ {write : Step Unit}, (write >>= fun _ => distribute front) t = .ok () t₁ →
        (write >>= fun _ => distribute (front ++ back)) t = distribute back t₁ := by
      intro write h
      obtain ⟨_, t', hwrite, h⟩ := step_bind_eq_ok.1 h
      show EStateM.bind write _ t = _
      rw [EStateM.bind, hwrite]
      exact ih h
    cases unit with
    | vps set => exact hnext h
    | sps sps =>
      obtain ⟨pps, hafter, h⟩ := distribute_sps_eq_ok h
      obtain ⟨later, rfl, -⟩ := ppsAfter_eq_some hafter
      have hbehind : ppsAfter sps (.pps pps :: later ++ back) = some pps := hafter
      rw [List.cons_append, distribute_sps hbehind]
      exact hnext h
    | pps pps => exact hnext h
    | slice segment => exact ih h
    | other header => exact ih h

/-- What comes behind some units has a part in what is done with them only if the last of them is a
sequence parameter set. -/
theorem distribute_append_congr {back' : List DecodedUnit} (hback : distribute back = distribute back')
    (hafter : ∀ set, front.getLast? = some (.sps set) → ppsAfter set back = ppsAfter set back') :
    distribute (front ++ back) = distribute (front ++ back') := by
  induction front with
  | nil => exact hback
  | cons unit front ih =>
    have hrest := ih fun set hset => hafter set (by rw [List.getLast?_cons, hset]; rfl)
    cases unit with
    | sps set =>
      have hnext : ppsAfter set (front ++ back) = ppsAfter set (front ++ back') := by
        cases front with
        | nil => exact hafter set rfl
        | cons next front => cases next <;> rfl
      simp only [List.cons_append, distribute, hrest, hnext]
    | _ => simp only [List.cons_append, distribute, hrest]

/-- Units that are no parameter sets are passed over. -/
theorem distribute_noSets (h : ∀ unit ∈ front, ¬ unit.IsSet) (t : TileStreams) :
    distribute front t = .ok () t := by
  induction front with
  | nil => rfl
  | cons unit front ih =>
    have hunit := h unit List.mem_cons_self
    have hlater := ih fun u hu => h u (List.mem_cons_of_mem unit hu)
    cases unit with
    | slice segment => exact hlater
    | other header => exact hlater
    | _ => exact absurd trivial hunit

/-- No parameter set can be written as long as there are no streams. -/
theorem noSets_of_noStreams (hnone : t.streams = [])
    (hpps : front.findSome? DecodedUnit.pps? = none) (h : distribute front t = .ok () t₁) :
    ∀ unit ∈ front, ¬ unit.IsSet := by
  induction front with
  | nil => simp
  | cons unit front ih =>
    rw [List.forall_mem_cons]
    rw [List.findSome?_cons] at hpps
    cases unit with
    | vps set =>
      obtain ⟨_, t', hwrite, -⟩ := step_bind_eq_ok.1 h
      obtain ⟨_, _, hget, hwrite⟩ := step_bind_eq_ok.1 hwrite
      obtain ⟨rfl, rfl⟩ := get_eq_ok.1 hget
      rw [if_pos (by simp [hnone])] at hwrite
      obtain ⟨_, _, hthrow, -⟩ := step_bind_eq_ok.1 hwrite
      cases hthrow
    | sps sps =>
      obtain ⟨pps, hafter, -⟩ := distribute_sps_eq_ok h
      obtain ⟨later, rfl, -⟩ := ppsAfter_eq_some hafter
      cases hpps
    | pps pps => cases hpps
    | slice segment => exact ⟨id, ih hpps h⟩
    | other header => exact ⟨id, ih hpps h⟩

theorem prepare_of_streams (h : t.streams ≠ []) (au : AccessUnit) :
    prepare memory au t = .ok () t := by
  obtain ⟨layouts, streams⟩ := t
  cases streams with
  | nil => exact absurd rfl h
  | cons s rest => rfl

theorem prepare_congr {au au' : AccessUnit} (h : au.firstPps = au'.firstPps) :
    prepare memory au = prepare memory au' := by
  simp only [prepare, h]

/-- Streams are made for the first picture parameter set, whatever comes behind it. If none are made,
there is no such set. -/
theorem prepare_append (h : prepare memory ⟨front⟩ t = .ok () t₁) (back : List DecodedUnit) :
    (t₁.streams ≠ [] ∧ prepare memory ⟨front ++ back⟩ t = .ok () t₁) ∨
      (t.streams = [] ∧ t₁ = t ∧ front.findSome? DecodedUnit.pps? = none ∧
        prepare memory ⟨front ++ back⟩ = prepare memory ⟨back⟩) := by
  by_cases hnone : t.streams = []
  · have hfirst : AccessUnit.firstPps ⟨front ++ back⟩ =
        (AccessUnit.firstPps ⟨front⟩).or (AccessUnit.firstPps ⟨back⟩) := List.findSome?_append
    obtain ⟨_, _, hget, hprepare⟩ := step_bind_eq_ok.1 h
    obtain ⟨rfl, rfl⟩ := get_eq_ok.1 hget
    cases hpps : AccessUnit.firstPps ⟨front⟩ with
    | none =>
      simp only [hnone, hpps] at hprepare
      cases hprepare
      exact .inr ⟨hnone, rfl, hpps, prepare_congr (by rw [hfirst, hpps, Option.none_or])⟩
    | some pps =>
      have hprepare' : prepare memory ⟨front ++ back⟩ = prepare memory ⟨front⟩ :=
        prepare_congr (by rw [hfirst, hpps, Option.some_or])
      refine .inl ⟨?_, hprepare'.symm ▸ h⟩
      simp only [hnone, hpps] at hprepare
      split at hprepare
      · obtain ⟨streams, _, hnew, hprepare⟩ := step_bind_eq_ok.1 hprepare
        obtain ⟨hnew', rfl⟩ := lift_eq_ok.1 hnew
        obtain ⟨-, rfl⟩ := newStreams_eq_ok_iff.1 hnew'
        obtain rfl := set_eq_ok.1 hprepare
        simp [fresh, pps.partition.tileCount_pos.ne']
      · cases hprepare
  · rw [prepare_of_streams hnone] at h
    cases h
    exact .inl ⟨hnone, prepare_of_streams hnone _⟩

/-- Parameter sets that are distributed in two parts are distributed as a whole. -/
theorem distributeAll_append (h : distributeAll memory ⟨front⟩ t = .ok () t₁) (back : List DecodedUnit) :
    distributeAll memory ⟨front ++ back⟩ t = distributeAll memory ⟨back⟩ t₁ := by
  obtain ⟨_, t₀, hprepare, hfront⟩ := step_bind_eq_ok.1 h
  obtain ⟨hne, hprepare'⟩ | ⟨hnone, rfl, hpps, hprepare'⟩ := prepare_append hprepare back
  · have hcount : t₁.streams.length = t₀.streams.length :=
      (keeps_distribute (stable_count (mt List.length_eq_zero_iff.1 hne)) front).of_ok rfl hfront
    have hkept : t₁.streams ≠ [] := by
      rw [← List.length_pos_iff, hcount]
      exact List.length_pos_iff.2 hne
    have hback : distributeAll memory ⟨back⟩ t₁ = distribute back t₁ :=
      step_bind_of_ok (prepare_of_streams hkept ⟨back⟩)
    calc distributeAll memory ⟨front ++ back⟩ t
        = distribute (front ++ back) t₀ := step_bind_of_ok hprepare'
      _ = distribute back t₁ := distribute_append hfront back
      _ = distributeAll memory ⟨back⟩ t₁ := hback.symm
  · -- without streams nothing was written
    have hsets := noSets_of_noStreams hnone hpps hfront
    obtain rfl : t₀ = t₁ := by
      rw [distribute_noSets hsets] at hfront
      cases hfront
      rfl
    show EStateM.bind (prepare memory ⟨front ++ back⟩) _ t₀ =
      EStateM.bind (prepare memory ⟨back⟩) _ t₀
    rw [EStateM.bind, EStateM.bind, hprepare']
    cases prepare memory ⟨back⟩ t₀ with
    | error e t' => rfl
    | ok _ t' => exact distribute_append (distribute_noSets hsets t') back

end TileStreams

/-! ## Packets -/

namespace Splitter

theorem pendingCount_ofSlices (ctx : Context) (tiles : TileStreams) (input : Packet)
    (slices : List SliceUnit) :
    pendingCount ⟨ctx, tiles, .ofSlices input slices⟩ = slices.length := by
  cases slices <;> rfl

theorem receive_ofSlices (ctx : Context) (tiles : TileStreams) (input : Packet) (next : SliceUnit)
    (later : List SliceUnit) :
    receive ⟨ctx, tiles, .ofSlices input (next :: later)⟩ =
      match TileStreams.writeSlice .ample ctx next tiles with
      | .error e tiles' => (.error e, ⟨ctx, tiles'.reset, .idle⟩)
      | .ok (tile, data) tiles' =>
        (.ok (some { input.derive data with tile := some tile }),
          ⟨ctx, tiles', .ofSlices input later⟩) :=
  rfl

/-- Of the packet at hand only its timing and its flags go into what is given out. -/
theorem derive_congr {p q : Packet} (h : p.sameTiming q = true) (data : Bytes) :
    p.derive data = q.derive data := by
  simp only [Packet.sameTiming, Bool.and_eq_true, beq_iff_eq] at h
  obtain ⟨⟨hpts, hdts⟩, hflags⟩ := h
  simp only [Packet.derive, hpts, hdts, hflags]

/-- At the same, but the packet at hand may be another one with the same timing and flags. -/
inductive Phase.Alike : Phase → Phase → Prop where
  | refl (phase : Phase) : Alike phase phase
  | distributing {p q : Packet} (timing : p.sameTiming q = true) (next : SliceUnit)
    (later : List SliceUnit) : Alike (.distributing p next later) (.distributing q next later)

/-- Splitters that differ in the packet at hand, but not in its timing and flags. -/
structure Alike (s t : Splitter) : Prop where
  ctx : t.ctx = s.ctx
  tiles : t.tiles = s.tiles
  phase : s.phase.Alike t.phase

theorem Alike.refl (s : Splitter) : s.Alike s := ⟨rfl, rfl, .refl s.phase⟩

theorem alike_ofSlices {p q : Packet} (h : p.sameTiming q = true) (ctx : Context)
    (tiles : TileStreams) (slices : List SliceUnit) :
    Alike ⟨ctx, tiles, .ofSlices p slices⟩ ⟨ctx, tiles, .ofSlices q slices⟩ := by
  cases slices with
  | nil => exact .refl _
  | cons next later => exact ⟨rfl, rfl, .distributing h next later⟩

/-- The data of the packet at hand have no part in an answer. -/
theorem serve_alike {s t : Splitter} (h : s.Alike t) (request : Request) :
    (t.serve request).1 = (s.serve request).1 ∧ (s.serve request).2.Alike (t.serve request).2 := by
  obtain ⟨ctx, tiles, phase⟩ := s
  obtain ⟨ctx', tiles', phase'⟩ := t
  obtain ⟨hctx, htiles, hphase⟩ := h
  obtain rfl : ctx' = ctx := hctx
  obtain rfl : tiles' = tiles := htiles
  cases hphase with
  | refl => exact ⟨rfl, .refl _⟩
  | distributing timing next later =>
    cases request with
    | send packet => exact ⟨rfl, rfl, rfl, .distributing timing next later⟩
    | flush => exact ⟨rfl, .refl _⟩
    | receive =>
      simp only [serve, receive, derive_congr timing]
      cases TileStreams.writeSlice .ample ctx' next tiles' with
      | error e tiles => exact ⟨rfl, .refl _⟩
      | ok written tiles => exact ⟨rfl, alike_ofSlices timing ctx' tiles later⟩

theorem drain_sameTiming {p q : Packet} (h : p.sameTiming q = true) (ctx : Context)
    (tiles : TileStreams) (slices : List SliceUnit) :
    drain ⟨ctx, tiles, .ofSlices p slices⟩ = drain ⟨ctx, tiles, .ofSlices q slices⟩ := by
  rw [drain, drain, pendingCount_ofSlices, pendingCount_ofSlices]
  induction slices generalizing tiles with
  | nil => rfl
  | cons next later ih =>
    simp only [List.length_cons, receiveUpTo, receive_ofSlices, derive_congr h]
    cases TileStreams.writeSlice .ample ctx next tiles with
    | error e tiles' => rfl
    | ok written tiles' =>
      dsimp only
      rw [ih tiles']

theorem send_of_decode {s : Splitter} {packet : Packet} {au : AccessUnit} {ctx : Context}
    (hidle : s.phase = .idle) (hdecode : AccessUnit.decode s.ctx packet.data = .ok (au, ctx))
    (hsend : (s.send packet).1 = .ok ()) :
    ∃ tiles, TileStreams.distributeAll .ample au s.tiles = .ok () tiles ∧
      s.send packet = (.ok (), ⟨ctx, tiles, .ofSlices packet au.slices⟩) := by
  have hsends := s.sends packet
  generalize s.send packet = result at hsend hsends
  cases hsends with
  | busy busy => exact absurd hidle busy
  | unread _ h => cases hdecode.symm.trans h
  | refused => cases hsend
  | @taken _ au' ctx' tiles decode distribute =>
    cases hdecode.symm.trans decode
    exact ⟨tiles, distribute, rfl⟩

/-- Parameter sets that are sent ahead of an access unit do what they do in front of it in one packet:
the splitter takes that packet as well, then gives out the same packets for the same tiles, and is at
the same in the end. -/
theorem sent_ahead {s : Splitter} {a b both : Packet} {au au' : AccessUnit} {ctx ctx' : Context}
    (hidle : s.phase = .idle) (hdata : both.data = a.data ++ b.data)
    (htiming : both.sameTiming b = true) (hdecode : AccessUnit.decode s.ctx a.data = .ok (au, ctx))
    (hnone : au.slices = []) (hdecode' : AccessUnit.decode ctx b.data = .ok (au', ctx'))
    (hsend : (s.send a).1 = .ok ()) (hsend' : ((s.send a).2.send b).1 = .ok ()) :
    (s.send both).1 = .ok () ∧ (s.send both).2.drain = ((s.send a).2.send b).2.drain := by
  obtain ⟨tiles, hdistribute, hfirst⟩ := send_of_decode hidle hdecode hsend
  rw [hfirst, hnone] at hsend' ⊢
  obtain ⟨tiles', hdistribute', hsecond⟩ := send_of_decode rfl hdecode' hsend'
  have hboth : AccessUnit.decode s.ctx both.data = .ok (⟨au.units ++ au'.units⟩, ctx') := by
    rw [hdata]
    exact AccessUnit.decode_append hdecode hdecode'
  have hslices : AccessUnit.slices ⟨au.units ++ au'.units⟩ = au'.slices := by
    rw [AccessUnit.slices, List.filterMap_append]
    exact congrArg (· ++ au'.slices) hnone
  have htaken : s.send both = (.ok (), ⟨ctx', tiles', .ofSlices both au'.slices⟩) := by
    rw [← hslices]
    simp only [send, hidle, hboth, TileStreams.distributeAll_append hdistribute au'.units,
      hdistribute']
  rw [htaken, hsecond]
  exact ⟨rfl, drain_sameTiming htiming ctx' tiles' au'.slices⟩

end Splitter

namespace Sample

/-- The parameter sets of the picture. -/
def setsAlone : Packet := { data := picture.take 75, flags := 1 }

/-- The slices of the picture. -/
def slicesAlone : Packet := { data := picture.drop 75, flags := 1 }

/-- The last slice of the picture up to a byte of its header. -/
def cutSlice : Packet := { data := cutPicture.drop 90 }

end Sample

namespace Splitter

open Sample in
theorem sent_ahead_sample :
    Splitter.empty.phase = .idle ∧ picture = setsAlone.data ++ slicesAlone.data ∧
      (AccessUnit.decode .empty setsAlone.data = .ok (⟨accessUnit.units.take 3⟩, Sample.ctx) ∧
        AccessUnit.slices ⟨accessUnit.units.take 3⟩ = []) ∧
      AccessUnit.decode Sample.ctx slicesAlone.data =
        .ok (⟨accessUnit.units.drop 3⟩, Sample.ctx) ∧
      (Splitter.empty.send setsAlone).1 = .ok () ∧
      ((Splitter.empty.send setsAlone).2.send slicesAlone).1 = .ok () ∧
      (Splitter.empty.send { data := picture, flags := 1 }).1 = .ok () ∧
      (Splitter.empty.send { data := picture, flags := 1 }).2.drain =
        ((Splitter.empty.send setsAlone).2.send slicesAlone).2.drain := by
  have hdecode : AccessUnit.decode Splitter.empty.ctx setsAlone.data =
      .ok (⟨accessUnit.units.take 3⟩, Sample.ctx) := by decide +kernel
  have hnone : AccessUnit.slices ⟨accessUnit.units.take 3⟩ = [] := by decide +kernel
  have hdecode' : AccessUnit.decode Sample.ctx slicesAlone.data =
      .ok (⟨accessUnit.units.drop 3⟩, Sample.ctx) := by decide +kernel
  have hsend : (Splitter.empty.send setsAlone).1 = .ok () := by decide +kernel
  have hsend' : ((Splitter.empty.send setsAlone).2.send slicesAlone).1 = .ok () := by
    decide +kernel
  have hdata : picture = setsAlone.data ++ slicesAlone.data := by decide
  exact ⟨rfl, hdata, ⟨hdecode, hnone⟩, hdecode', hsend, hsend',
    sent_ahead rfl hdata (by decide) hdecode hnone
      hdecode' hsend hsend'⟩

open Sample in
/-- If the second access unit cannot be read, it is given back alone, and the parameter sets that were
sent ahead stay in force. In one packet with them it takes them along. -/
theorem sets_ahead_of_unreadable :
    (Splitter.empty.Reachable ∧ Splitter.empty.phase = .idle) ∧
      (Splitter.empty.send { data := setsAlone.data }).1 = .ok () ∧
      ((Splitter.empty.send { data := setsAlone.data }).2.send cutSlice).1 = .ok () ∧
      ((Splitter.empty.send { data := setsAlone.data }).2.send cutSlice).2.drain.1 =
        [.ok cutSlice] ∧
      ((Splitter.empty.send { data := setsAlone.data }).2.send cutSlice).2.drain.2.tileCount = 2 ∧
      AccessUnit.slices ⟨accessUnit.units.take 3⟩ = [] ∧
      AccessUnit.decode .empty setsAlone.data = .ok (⟨accessUnit.units.take 3⟩, Sample.ctx) ∧
      (Splitter.empty.send { data := setsAlone.data ++ cutSlice.data }).2.drain.1 =
        [.ok { data := setsAlone.data ++ cutSlice.data }] ∧
      (Splitter.empty.send { data := setsAlone.data ++ cutSlice.data }).2.drain.2.tileCount = 0 := by
  exact ⟨⟨.empty, rfl⟩, by decide +kernel⟩

end Splitter

end TiledVideo
