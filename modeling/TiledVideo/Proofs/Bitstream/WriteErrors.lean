import TiledVideo.Bitstream.Code

/-!
# Why codes do not exist

A syntax structure has no code if it uses a feature that is not written, or if a value does not fit its
element. That a whole number of bytes is asked for in the middle of a byte is no reason, as codes are
put together bit by bit.

Results:

* `WriteError.IsContent`: the errors that are about what is to be written.
* `Code.FailsByContent`: a code that can only fail with such an error. The lemmas on how codes are put
  together bring it from the elements to the structures made of them.
-/

namespace TiledVideo

namespace WriteError

/-- The elements that a value may not fit. -/
def elements : List String :=
  ["bits", "inter_ref_pic_set_prediction_flag", "num_tile_columns_minus1",
    "chroma_qp_offset_list_len_minus1", "scaling_list_data entries", "list_entry",
    "short_term_ref_pic_set_idx", "slice_segment_address"]

/-- The error is about what is to be written. -/
def IsContent : WriteError → Prop
  | .unsupported _ => True
  | .invalidValue element _ => element ∈ elements
  | .notByteAligned => False

end WriteError

namespace Code

variable {α : Type} {a b code : Code} {f : α → Code}

/-- If there is no code, then because of what is to be written. -/
def FailsByContent (code : Code) : Prop :=
  ∀ e, code = .error e → e.IsContent

/-! ## Composition -/

@[simp] theorem failsByContent_empty : FailsByContent empty :=
  nofun

@[simp] theorem failsByContent_error {e : WriteError} : FailsByContent (.error e) ↔ e.IsContent :=
  ⟨fun h => h e rfl, fun h _ he => Except.error.inj he ▸ h⟩

theorem FailsByContent.append (ha : a.FailsByContent) (hb : b.FailsByContent) :
    (a ++ b).FailsByContent := by
  intro e he
  change (a >>= fun x => b >>= fun y => pure (x ++ y)) = .error e at he
  cases a with
  | error e' =>
    cases he
    exact ha _ rfl
  | ok x =>
    cases b with
    | error e' =>
      cases he
      exact hb _ rfl
    | ok y => cases he

theorem failsByContent_concat {cs : List Code} (h : ∀ c ∈ cs, c.FailsByContent) :
    (concat cs).FailsByContent := by
  induction cs with
  | nil => exact failsByContent_empty
  | cons c cs ih =>
    rw [List.forall_mem_cons] at h
    exact h.1.append (ih h.2)

theorem failsByContent_each (h : ∀ x, (f x).FailsByContent) (as : List α) :
    (each f as).FailsByContent := by
  refine failsByContent_concat fun c hc => ?_
  obtain ⟨x, -, rfl⟩ := List.mem_map.1 hc
  exact h x

@[simp] theorem failsByContent_option {o : Option α} :
    (option f o).FailsByContent ↔ ∀ x ∈ o, (f x).FailsByContent := by
  cases o with
  | none => simp [option]
  | some x => simp [option]

@[simp] theorem failsByContent_onlyIf {present : Bool} :
    (onlyIf present code).FailsByContent ↔ (present = true → code.FailsByContent) := by
  cases present with
  | false => simp [onlyIf]
  | true => simp [onlyIf]

@[simp] theorem failsByContent_ensure {condition : Bool} {e : WriteError} :
    (ensure condition e).FailsByContent ↔ (condition = false → e.IsContent) := by
  cases condition with
  | false => simp [ensure]
  | true => simp [ensure]

theorem FailsByContent.closed (h : code.FailsByContent) : code.closed.FailsByContent := by
  intro e he
  cases code with
  | error e' =>
    cases he
    exact h _ rfl
  | ok bits => cases he

/-! ## Elements -/

@[simp] theorem failsByContent_flag (b : Bool) : (flag b).FailsByContent :=
  nofun

@[simp] theorem failsByContent_ue (v : Nat) : (ue v).FailsByContent :=
  nofun

@[simp] theorem failsByContent_se (x : Int) : (se x).FailsByContent :=
  nofun

@[simp] theorem failsByContent_uint (n v : Nat) : (uint n v).FailsByContent := by
  have hbits : WriteError.IsContent (.invalidValue "bits" v) := List.mem_cons_self
  unfold uint
  split
  · exact failsByContent_empty
  · split
    · exact failsByContent_error.2 hbits
    · split
      · exact nofun
      · exact failsByContent_error.2 hbits

end Code

end TiledVideo
