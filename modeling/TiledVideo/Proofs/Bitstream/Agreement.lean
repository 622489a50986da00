import TiledVideo.Proofs.Bitstream.Reads

/-!
# Readers that agree

Readers may differ in their checks alone. Where both succeed, they give the same value then and stop
at the same place.

Results:

* `Agrees.bind_refl`, `Agrees.ensure_bind`, `Agrees.require_bind`: agreement from step to step.
* `Agrees.eq_of_decode`: payloads that both decode are decoded alike.
-/

namespace TiledVideo.Reader

variable {ε α β γ : Type}

/-- Where both readers succeed, they give the same value and stop at the same place. -/
def Agrees (p q : Reader ε α) : Prop :=
  ∀ ⦃c c₁ c₂ a b⦄, p c = .ok a c₁ → q c = .ok b c₂ → a = b ∧ c₁ = c₂

theorem Agrees.refl (p : Reader ε α) : p.Agrees p := by
  intro c c₁ c₂ a b ha hb
  rw [ha] at hb
  cases hb
  exact ⟨rfl, rfl⟩

theorem Agrees.bind {p q : Reader ε α} {f g : α → Reader ε β} (h : p.Agrees q)
    (hs : ∀ a, (f a).Agrees (g a)) : (p >>= f).Agrees (q >>= g) := by
  intro c c₁ c₂ x y hx hy
  obtain ⟨a, d₁, ha, hx⟩ := step_bind_eq_ok.1 hx
  obtain ⟨b, d₂, hb, hy⟩ := step_bind_eq_ok.1 hy
  obtain ⟨rfl, rfl⟩ := h ha hb
  exact hs a hx hy

theorem Agrees.bind_refl {p : Reader ε α} {f g : α → Reader ε β} (hs : ∀ a, (f a).Agrees (g a)) :
    (p >>= f).Agrees (p >>= g) :=
  (Agrees.refl p).bind hs

theorem Agrees.ensure_bind {x y : Bool} {e e' : ε} {f g : Unit → Reader ε β}
    (h : (f ()).Agrees (g ())) : (ensure x e >>= f).Agrees (ensure y e' >>= g) := by
  intro c c₁ c₂ a b ha hb
  cases x with
  | false => cases ha
  | true =>
    cases y with
    | false => cases hb
    | true => exact h ha hb

theorem Agrees.require_bind {x : Option α} {y : Option β} {e e' : ε} {f : α → Reader ε γ}
    {g : β → Reader ε γ} (h : ∀ a b, (f a).Agrees (g b)) :
    (require x e >>= f).Agrees (require y e' >>= g) := by
  intro c c₁ c₂ a b ha hb
  cases x with
  | none => cases ha
  | some x =>
    cases y with
    | none => cases hb
    | some y => exact h x y ha hb

theorem Agrees.map {p q : Reader ε α} (h : p.Agrees q) (f : α → β) :
    (f <$> p).Agrees (f <$> q) := by
  rw [map_eq_pure_bind, map_eq_pure_bind]
  exact h.bind fun _ => Agrees.refl _

theorem Agrees.optional {p q : Reader ε α} (h : p.Agrees q) (present : Bool) :
    (Reader.optional present p).Agrees (Reader.optional present q) := by
  cases present with
  | false => exact Agrees.refl _
  | true => exact h.map some

theorem Agrees.eq_of_decode {p q : Reader ε α} (h : p.Agrees q) {payload : Bytes} {a b : α}
    (ha : p.decode payload = .ok a) (hb : q.decode payload = .ok b) : a = b := by
  unfold decode at ha hb
  split at ha
  · next hp =>
    split at hb
    · next hq =>
      cases ha
      cases hb
      exact (h hp hq).1
    · cases hb
  · cases ha

end TiledVideo.Reader
