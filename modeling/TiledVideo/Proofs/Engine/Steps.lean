import TiledVideo.Engine.Splitter
import TiledVideo.Proofs.Success

/-!
# Where steps lead

A step gives a value or fails, and may have changed the streams either way. What is to be true in both
cases is shown from one step to the next.

Results:

* `Leads.bind`: two steps, one after the other.
* `Leads.of_ok`, `Leads.of_error`, `Leads.of_parts`: what is known of a step that succeeds or fails.
-/

namespace TiledVideo.TileStreams

variable {α β ε : Type} {t t' : TileStreams} {p : Step α} {f : α → Step β}

/-- If a step is made at `t` and gives a value, then `done` is true of it and of what the step leads to.
If the step fails, then `failed` is true of the error and of what is left. -/
def Leads (t : TileStreams) (p : Step α) (done : α → TileStreams → Prop)
    (failed : EngineError → TileStreams → Prop) : Prop :=
  match p t with
  | .ok a t' => done a t'
  | .error e t' => failed e t'

variable {done done' : α → TileStreams → Prop} {done₂ : β → TileStreams → Prop}
  {failed failed' : EngineError → TileStreams → Prop}

theorem Leads.of_ok (h : Leads t p done failed) {a : α} (hok : p t = .ok a t') : done a t' := by
  rwa [Leads, hok] at h

theorem Leads.of_error (h : Leads t p done failed) {e : EngineError} (herror : p t = .error e t') :
    failed e t' := by
  rwa [Leads, herror] at h

theorem Leads.mono (h : Leads t p done failed) (hdone : ∀ a t', done a t' → done' a t')
    (hfailed : ∀ e t', failed e t' → failed' e t') : Leads t p done' failed' := by
  unfold Leads at h ⊢
  cases hp : p t with
  | ok a t' =>
    rw [hp] at h
    exact hdone a t' h
  | error e t' =>
    rw [hp] at h
    exact hfailed e t' h

/-- What is known of a step that succeeds and of one that fails is known of the step. -/
theorem Leads.of_parts (hok : ∀ a t', p t = .ok a t' → done a t')
    (herror : ∀ e t', p t = .error e t' → failed e t') : Leads t p done failed := by
  unfold Leads
  cases hp : p t with
  | ok a t' => exact hok a t' hp
  | error e t' => exact herror e t' hp

/-- What a step leads to is where the next one begins. -/
theorem Leads.bind (h : Leads t p done failed)
    (hf : ∀ a t', done a t' → Leads t' (f a) done₂ failed) :
    Leads t (p >>= f) done₂ failed := by
  unfold Leads at h
  show match EStateM.bind p f t with
    | .ok b t' => done₂ b t'
    | .error e t' => failed e t'
  unfold EStateM.bind
  cases hp : p t with
  | ok a t' =>
    rw [hp] at h
    exact hf a t' h
  | error e t' =>
    rw [hp] at h
    exact h

theorem Leads.throw_bind {e : EngineError} (h : failed e t) (f : α → Step β) :
    Leads t (throw e >>= f) done₂ failed :=
  h

theorem Leads.get_bind {f : TileStreams → Step β} (h : Leads t (f t) done₂ failed) :
    Leads t (get >>= f) done₂ failed :=
  h

theorem Leads.set_bind {f : PUnit → Step β} (h : Leads t' (f ⟨⟩) done₂ failed) :
    Leads t (set t' >>= f) done₂ failed :=
  h

theorem Leads.lift_bind {g : ε → EngineError} {x : Except ε α}
    (herror : ∀ e, x = .error e → failed (g e) t)
    (hok : ∀ a, x = .ok a → Leads t (f a) done₂ failed) :
    Leads t (lift g x >>= f) done₂ failed := by
  cases x with
  | error e => exact herror e rfl
  | ok a => exact hok a rfl

theorem Leads.elim_bind {e : EngineError} {x : Option α} (hnone : x = none → failed e t)
    (hsome : ∀ a, x = some a → Leads t (f a) done₂ failed) :
    Leads t (lift id (x.elim (.error e) .ok) >>= f) done₂ failed := by
  cases x with
  | none => exact hnone rfl
  | some a => exact hsome a rfl

end TiledVideo.TileStreams
