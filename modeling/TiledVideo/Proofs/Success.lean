import Mathlib.Data.List.Forall2

/-!
# Computations that succeed

A computation in several steps succeeds exactly if each of its steps does. If one fails, so does the
whole.

Results:

* `bind_eq_ok_iff`, `map_eq_ok_iff`, `mapError_eq_ok_iff`, `elim_eq_ok_iff`: computations that give a
  value or an error.
* `bind_eq_error_iff`, `map_eq_error_iff`, `mapError_eq_error_iff`, `elim_eq_error_iff`: which of two
  steps fails, and how.
* `mapM_eq_ok_iff`, `exists_mapM_eq_ok`, `exists_of_mapM_eq_error`: one computation for each entry of
  a list.
* `foldlM_keeps`, `exists_of_foldlM_eq_error`: one step for each entry of a list.
* `step_bind_eq_ok`, `step_bind_of_ok`, `step_map_of_ok`: computations with a state.
-/

namespace TiledVideo

variable {ε ε' σ α β : Type}

/-! ## Values and errors -/

theorem bind_eq_ok_iff {x : Except ε α} {f : α → Except ε β} {b : β} :
    (x >>= f) = .ok b ↔ ∃ a, x = .ok a ∧ f a = .ok b := by
  cases x with
  | error e => exact ⟨nofun, fun ⟨_, h, _⟩ => nomatch h⟩
  | ok a =>
    constructor
    · exact fun h => ⟨a, rfl, h⟩
    · rintro ⟨_, ⟨⟩, h⟩
      exact h

/-- Two steps fail if the first does, or else the second. -/
theorem bind_eq_error_iff {x : Except ε α} {f : α → Except ε β} {e : ε} :
    (x >>= f) = .error e ↔ x = .error e ∨ ∃ a, x = .ok a ∧ f a = .error e := by
  cases x with
  | error e' =>
    constructor
    · intro h
      cases h
      exact .inl rfl
    · rintro (h | ⟨_, h, -⟩)
      · cases h
        rfl
      · cases h
  | ok a =>
    constructor
    · exact fun h => .inr ⟨a, rfl, h⟩
    · rintro (h | ⟨_, h, hf⟩)
      · cases h
      · cases h
        exact hf

theorem map_eq_ok_iff {x : Except ε α} {f : α → β} {b : β} :
    (f <$> x) = .ok b ↔ ∃ a, x = .ok a ∧ f a = b := by
  cases x with
  | error e => exact ⟨nofun, fun ⟨_, h, _⟩ => nomatch h⟩
  | ok a =>
    constructor
    · rintro ⟨⟩
      exact ⟨a, rfl, rfl⟩
    · rintro ⟨_, ⟨⟩, rfl⟩
      rfl

theorem map_eq_error_iff {x : Except ε α} {f : α → β} {e : ε} :
    (f <$> x) = .error e ↔ x = .error e := by
  cases x with
  | error e' => exact ⟨fun h => by cases h; rfl, fun h => by cases h; rfl⟩
  | ok a => exact ⟨nofun, nofun⟩

theorem mapError_eq_ok_iff {x : Except ε α} {f : ε → ε'} {a : α} :
    x.mapError f = .ok a ↔ x = .ok a := by
  cases x with
  | error e => exact ⟨nofun, nofun⟩
  | ok b => exact ⟨fun h => by cases h; rfl, fun h => by cases h; rfl⟩

theorem mapError_eq_error_iff {x : Except ε α} {f : ε → ε'} {e' : ε'} :
    x.mapError f = .error e' ↔ ∃ e, x = .error e ∧ f e = e' := by
  cases x with
  | error e =>
    constructor
    · intro h
      cases h
      exact ⟨e, rfl, rfl⟩
    · rintro ⟨_, h, rfl⟩
      cases h
      rfl
  | ok a => exact ⟨nofun, fun ⟨_, h, _⟩ => nomatch h⟩

theorem elim_eq_ok_iff {x : Option α} {e : ε} {a : α} :
    x.elim (.error e) .ok = Except.ok a ↔ x = some a := by
  cases x with
  | none => exact ⟨nofun, nofun⟩
  | some b => exact ⟨fun h => by cases h; rfl, fun h => by cases h; rfl⟩

theorem elim_eq_error_iff {x : Option α} {e e' : ε} :
    x.elim (.error e) .ok = Except.error e' ↔ x = none ∧ e = e' := by
  cases x with
  | none => exact ⟨fun h => by cases h; exact ⟨rfl, rfl⟩, fun h => by rw [h.2]; rfl⟩
  | some a => exact ⟨nofun, fun h => nomatch h.1⟩

/-! ## Lists -/

theorem mapM_eq_ok_iff {f : α → Except ε β} {as : List α} {bs : List β} :
    as.mapM f = .ok bs ↔ List.Forall₂ (fun a b => f a = .ok b) as bs := by
  induction as generalizing bs with
  | nil =>
    rw [List.mapM_nil, List.forall₂_nil_left_iff]
    exact ⟨fun h => by cases h; rfl, fun h => by rw [h]; rfl⟩
  | cons a as ih =>
    rw [List.mapM_cons, bind_eq_ok_iff, List.forall₂_cons_left_iff]
    constructor
    · rintro ⟨b, hb, h⟩
      obtain ⟨bs', hbs, h⟩ := bind_eq_ok_iff.1 h
      cases h
      exact ⟨b, bs', hb, ih.1 hbs, rfl⟩
    · rintro ⟨b, bs', hb, hbs, rfl⟩
      exact ⟨b, hb, bind_eq_ok_iff.2 ⟨bs', ih.2 hbs, rfl⟩⟩

/-- The computations for a list succeed if each of them does. -/
theorem exists_mapM_eq_ok {f : α → Except ε β} {as : List α} (h : ∀ a ∈ as, ∃ b, f a = .ok b) :
    ∃ bs, as.mapM f = .ok bs := by
  induction as with
  | nil => exact ⟨[], rfl⟩
  | cons a as ih =>
    obtain ⟨b, hb⟩ := h a List.mem_cons_self
    obtain ⟨bs, hbs⟩ := ih fun x hx => h x (List.mem_cons_of_mem a hx)
    rw [List.mapM_cons, hb]
    exact ⟨b :: bs, bind_eq_ok_iff.2 ⟨b, rfl, bind_eq_ok_iff.2 ⟨bs, hbs, rfl⟩⟩⟩

/-- The computations for a list fail if one of them does, in the same way. -/
theorem exists_of_mapM_eq_error {f : α → Except ε β} {as : List α} {e : ε}
    (h : as.mapM f = .error e) : ∃ a ∈ as, f a = .error e := by
  induction as with
  | nil => cases h
  | cons a as ih =>
    rw [List.mapM_cons] at h
    obtain ha | ⟨b, -, h⟩ := bind_eq_error_iff.1 h
    · exact ⟨a, List.mem_cons_self, ha⟩
    · obtain has | ⟨bs, -, h⟩ := bind_eq_error_iff.1 h
      · obtain ⟨x, hx, hfx⟩ := ih has
        exact ⟨x, List.mem_cons_of_mem a hx, hfx⟩
      · cases h

/-- What each step keeps is kept by all of them. -/
theorem foldlM_keeps {P : σ → Prop} {f : σ → α → Except ε σ} {as : List α} {s s' : σ}
    (hf : ∀ a s s', f s a = .ok s' → P s → P s') (h : as.foldlM f s = .ok s') (hs : P s) : P s' := by
  induction as generalizing s with
  | nil =>
    cases h
    exact hs
  | cons a as ih =>
    obtain ⟨s₁, hfirst, h⟩ := bind_eq_ok_iff.1 h
    exact ih h (hf a s s₁ hfirst hs)

/-- Steps fail if one of them does, from where those before it led. -/
theorem exists_of_foldlM_eq_error {P : σ → Prop} {f : σ → α → Except ε σ} {as : List α} {s : σ}
    {e : ε} (hf : ∀ a s s', f s a = .ok s' → P s → P s') (h : as.foldlM f s = .error e)
    (hs : P s) : ∃ a ∈ as, ∃ s₁, P s₁ ∧ f s₁ a = .error e := by
  induction as generalizing s with
  | nil => cases h
  | cons a as ih =>
    obtain hfirst | ⟨s₁, hfirst, h⟩ := bind_eq_error_iff.1 h
    · exact ⟨a, List.mem_cons_self, s, hs, hfirst⟩
    · obtain ⟨x, hx, hlater⟩ := ih h (hf a s s₁ hfirst hs)
      exact ⟨x, List.mem_cons_of_mem a hx, hlater⟩

/-! ## State -/

theorem step_bind_eq_ok {p : EStateM ε σ α} {f : α → EStateM ε σ β} {s s' : σ} {b : β} :
    (p >>= f) s = .ok b s' ↔ ∃ a s₁, p s = .ok a s₁ ∧ f a s₁ = .ok b s' := by
  change EStateM.bind p f s = .ok b s' ↔ _
  cases hp : p s with
  | error e s₁ =>
    simp only [EStateM.bind, hp]
    exact ⟨nofun, fun ⟨_, _, h, _⟩ => nomatch h⟩
  | ok a s₁ =>
    simp only [EStateM.bind, hp]
    constructor
    · exact fun h => ⟨a, s₁, rfl, h⟩
    · rintro ⟨_, _, ⟨⟩, h⟩
      exact h

/-- What comes after a step that succeeds goes on from where it ended. -/
theorem step_bind_of_ok {p : EStateM ε σ α} {f : α → EStateM ε σ β} {s s₁ : σ} {a : α}
    (h : p s = .ok a s₁) : (p >>= f) s = f a s₁ := by
  show EStateM.bind p f s = f a s₁
  rw [EStateM.bind, h]

theorem step_bind_of_error {p : EStateM ε σ α} {f : α → EStateM ε σ β} {s s₁ : σ} {e : ε}
    (h : p s = .error e s₁) : (p >>= f) s = .error e s₁ := by
  show EStateM.bind p f s = _
  rw [EStateM.bind, h]

/-- What a step gives is changed, but not where it ends. -/
theorem step_map_of_ok {p : EStateM ε σ α} {f : α → β} {s s₁ : σ} {a : α} (h : p s = .ok a s₁) :
    (f <$> p) s = .ok (f a) s₁ := by
  show EStateM.map f p s = _
  rw [EStateM.map, h]

end TiledVideo
