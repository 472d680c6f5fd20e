/-
  What a tree of errors tells.

  An error stands for itself, or it stands for others: a context for the error it was added to, and
  several errors for each of them. A revert stands for itself, whatever the two errors in it are.

  * `Error.Reaches`: from an error to those it stands for, at any depth;
  * `Error.isFatal_iff_parts`: the verdict on an error from the verdicts on its parts, and
    `Error.isFatal_iff`: so it is fatal if it reaches one that is fatal by itself;
  * `Error.under`: an error below contexts, which is what every error is (`Error.under_contexts`);
  * `Error.classification`: what the class, the root and the text of an error are.
-/
import Mathlib.Logic.Relation
import Mathlib.Order.WellFounded
import Reimage.Error

namespace Reimage.Error

/-! ## Fatal errors -/

/-- The errors an error stands for. -/
def parts : Error → List Error
  | context _ source => [source]
  | multiple errors => errors
  | _ => []

/-- An error that one stands for, at any depth. -/
def Reaches : Error → Error → Prop := Relation.ReflTransGen fun e f => f ∈ e.parts

/-- The error is fatal by itself. -/
def EndsRun : Error → Prop
  | config _ | rebootTimeout _ | invalidPartition _ | revert _ _ => True
  | _ => False

theorem isFatal_context (text : String) (e : Error) : (context text e).isFatal = e.isFatal := rfl

/-- Several errors are fatal together if one of them is. -/
theorem isFatal_multiple (errors : List Error) :
    (multiple errors).isFatal = errors.any Error.isFatal := by
  have hany : ∀ errors, anyFatal errors = errors.any Error.isFatal := by
    intro errors
    induction errors with
    | nil => rfl
    | cons e errors ih => rw [anyFatal, ih]; rfl
  rw [isFatal, kind, hany]
  cases errors.any Error.isFatal <;> rfl

/-- The verdict on an error from the verdicts on its parts. -/
theorem isFatal_iff_parts (e : Error) :
    e.isFatal = true ↔ e.EndsRun ∨ ∃ f ∈ e.parts, f.isFatal = true := by
  cases e with
  | context text source => simp [EndsRun, parts, isFatal_context]
  | multiple errors => simp [EndsRun, parts, isFatal_multiple]
  | _ => simp [EndsRun, parts, isFatal, kind]

theorem sizeOf_lt_of_mem_parts {e f : Error} (h : f ∈ e.parts) : sizeOf f < sizeOf e := by
  cases e with
  | context text source =>
    obtain rfl := List.mem_singleton.1 h
    simp only [context.sizeOf_spec]
    omega
  | multiple errors =>
    have hlt : sizeOf f < sizeOf errors := List.sizeOf_lt_of_mem h
    simp only [multiple.sizeOf_spec]
    omega
  | _ => exact nomatch h

/-- What holds of an error as soon as it holds of its parts holds of every error. -/
theorem parts_induct {P : Error → Prop} (h : ∀ e, (∀ f ∈ e.parts, P f) → P e) (e : Error) : P e :=
  (measure (sizeOf (α := Error))).wf.induction e fun e ih =>
    h e fun f hf => ih f (sizeOf_lt_of_mem_parts hf)

/-- **An error is fatal if and only if it reaches one that is fatal by itself.** -/
theorem isFatal_iff (e : Error) : e.isFatal = true ↔ ∃ f, e.Reaches f ∧ f.EndsRun := by
  induction e using parts_induct with
  | h e ih =>
    rw [isFatal_iff_parts]
    constructor
    · rintro (hends | ⟨f, hf, hfatal⟩)
      · exact ⟨e, .refl, hends⟩
      · obtain ⟨g, hg, hends⟩ := (ih f hf).1 hfatal
        exact ⟨g, .head hf hg, hends⟩
    · rintro ⟨g, hg, hends⟩
      obtain rfl | ⟨f, hf, hg⟩ := Relation.ReflTransGen.cases_head hg
      · exact Or.inl hends
      · exact Or.inr ⟨f, hf, (ih f hf).2 ⟨g, hg, hends⟩⟩

/-! ## Contexts -/

/-- The error with contexts added to it, of which the first is the outermost. -/
def under (texts : List String) (e : Error) : Error := texts.foldr context e

/-- The contexts of an error, the outermost first. -/
def contexts : Error → List String
  | context text source => text :: contexts source
  | _ => []

theorem message_context (text : String) (e : Error) :
    (context text e).message = text ++ ", " ++ e.message := rfl

section
variable (texts : List String) (e : Error)

theorem under_nil : under [] e = e := rfl

theorem under_cons (text : String) : under (text :: texts) e = context text (under texts e) := rfl

@[simp] theorem kind_under : (under texts e).kind = e.kind := by
  induction texts with
  | nil => rfl
  | cons text texts ih => rw [under_cons, kind, ih]

@[simp] theorem root_under : (under texts e).root = e.root := by
  induction texts with
  | nil => rfl
  | cons text texts ih => rw [under_cons, root, ih]

@[simp] theorem contexts_under : (under texts e).contexts = texts ++ e.contexts := by
  induction texts with
  | nil => rfl
  | cons text texts ih => rw [under_cons, contexts, ih, List.cons_append]

/-- The text of an error is shown after its contexts. -/
theorem message_under : (under texts e).message = ", ".intercalate (texts ++ [e.message]) := by
  induction texts with
  | nil => rw [under_nil, List.nil_append, String.intercalate_singleton]
  | cons text texts ih =>
    rw [under_cons, message_context, ih, List.cons_append,
      String.intercalate_cons_of_ne_nil (by simp)]

/-- Every error is its root below its contexts. -/
theorem under_contexts : under e.contexts e.root = e := by
  fun_induction contexts e with
  | case1 text source ih => exact congrArg (context text) ih
  | case2 e hne =>
    cases e with
    | context text source => exact (hne text source rfl).elim
    | _ => rfl

/-- The root has no context. -/
theorem contexts_root : e.root.contexts = [] := by
  fun_induction root e with
  | case1 text source ih => exact ih
  | case2 e hne =>
    cases e with
    | context text source => exact (hne text source rfl).elim
    | _ => rfl

theorem root_ne_context (text : String) (source : Error) : e.root ≠ context text source := by
  intro h
  have hnil := e.contexts_root
  rw [h] at hnil
  cases hnil

theorem root_root : e.root.root = e.root := by
  rw [← root_under e.contexts e.root, under_contexts]

theorem kind_root : e.root.kind = e.kind := by
  rw [← kind_under e.contexts e.root, under_contexts]

/-- The text of an error from its contexts and its root. -/
theorem message_eq : e.message = ", ".intercalate (e.contexts ++ [e.root.message]) := by
  rw [← message_under, under_contexts]

end

/-- **What a tree of errors tells.** An error is fatal if and only if it reaches, through contexts
    and through several errors but not into a revert, one that is fatal by itself. Contexts, however
    many, change neither its class nor its root. The root is no context, is its own root, and has
    the class of the whole. The text shown is that of each context, the outermost first, and that of
    the root, with a comma and a space between them. -/
theorem classification (e : Error) :
    (e.isFatal = true ↔ ∃ f, e.Reaches f ∧ f.EndsRun) ∧
    (∀ texts, (under texts e).kind = e.kind ∧ (under texts e).root = e.root ∧
      (under texts e).message = ", ".intercalate (texts ++ e.contexts ++ [e.root.message])) ∧
    under e.contexts e.root = e ∧
    (∀ text source, e.root ≠ context text source) ∧
    e.root.root = e.root ∧ e.root.kind = e.kind := by
  refine ⟨e.isFatal_iff, fun texts => ⟨kind_under texts e, root_under texts e, ?_⟩,
    e.under_contexts, e.root_ne_context, e.root_root, e.kind_root⟩
  rw [message_eq, contexts_under, root_under]

end Reimage.Error
