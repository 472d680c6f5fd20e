/-
  What programs give.

  `Program.Yields R F` says that the result of a program satisfies `F`, in every run that comes to
  its end and whose events satisfy `R`. It is proved along the program, with one rule for each way
  in which programs are put together.

  Results that may be errors are judged by `Result.ErrorIn`: what matters is which errors a step
  gives, if it gives one.
-/
import Reimage.Proofs.Runs

namespace Reimage

variable {α β : Type} {R : Event → Prop}

/-- If the step failed, its error satisfies `E`. -/
def Result.ErrorIn (E : Error → Prop) : Result α → Prop
  | .ok _ => True
  | .error e => E e

namespace Result.ErrorIn

variable {E : Error → Prop} {r : Result α}

theorem map {f : α → β} (h : ErrorIn E r) : ErrorIn E (r.map f) := by
  cases r <;> exact h

theorem within {text : String} (h : ErrorIn E r) (hE : ∀ e, E e → E (.context text e)) :
    ErrorIn E (r.within text) := by
  cases r with
  | ok => trivial
  | error e => exact hE e h

theorem bind {f : α → Result β} (h : ErrorIn E r) (hf : ∀ a, ErrorIn E (f a)) :
    ErrorIn E (r.bind f) := by
  cases r with
  | ok a => exact hf a
  | error e => exact h

end Result.ErrorIn

namespace Program

variable {Q : Type} {A : Q → Type} [Questions Q A] {F : α → Prop} {G : β → Prop}
  {p : Program Q A α}

/-- In a run whose events satisfy `R`, the result satisfies `F`. -/
def Yields (R : Event → Prop) (F : α → Prop) (p : Program Q A α) : Prop :=
  ∀ tr a, p.Run tr (some a) → (∀ e ∈ tr, R e) → F a

namespace Yields

theorem pure {a : α} (h : F a) : (pure a : Program Q A α).Yields R F := by
  intro tr b hb _
  obtain ⟨-, rfl⟩ := run_pure_some.1 hb
  exact h

/-- What holds of every value holds of the result. -/
theorem of_forall (h : ∀ a, F a) : p.Yields R F := fun _ a _ _ => h a

theorem bind {f : α → Program Q A β} (hp : p.Yields R F)
    (hf : ∀ a, F a → (f a).Yields R G) : (p >>= f).Yields R G := by
  intro tr b hb hR
  obtain ⟨t, a, u, rfl, ha, hb⟩ := run_bind_some.1 hb
  rw [List.forall_mem_append] at hR
  exact hf a (hp t a ha hR.1) u b hb hR.2

theorem map {f : α → β} (hp : p.Yields R F) (hf : ∀ a, F a → G (f a)) :
    Program.Yields R G (p >>= fun a => Pure.pure (f a)) :=
  hp.bind fun a ha => pure (hf a ha)

/-- Whatever the first program gives, the second gives what it should. -/
theorem after {f : α → Program Q A β} (hf : ∀ a, (f a).Yields R G) : (p >>= f).Yields R G :=
  bind (F := fun _ => True) (of_forall fun _ => trivial) fun a _ => hf a

end Yields

end Program

section

variable {E : Error → Prop}

theorem Task.yields_ask {q : Ask} {F : q.Answer → Prop}
    (h : ∀ a, (∀ e ∈ q.record a, R e) → F a) : (Task.ask q).Yields R F := by
  intro tr a ha hR
  obtain rfl := Task.run_ask_some.1 ha
  exact h a hR

theorem Task.yields_procedure {F : α → Prop} {t : Task α} (h : t.Yields R F) :
    t.procedure.Yields R F :=
  fun tr a ha => h tr a (Procedure.run_procedure.1 ha)

/-- Each of two tasks that run side by side gives what it gives by itself. -/
theorem Procedure.yields_both {F : Result Unit → Prop} {left right : Task (Result Unit)}
    (hl : left.Yields R F) (hr : right.Yields R F) :
    (Program.query (Call.both left right) : Procedure (Result Unit × Result Unit)).Yields R
      fun r => F r.1 ∧ F r.2 := by
  intro tr a ha hR
  obtain ⟨u, v, l, r, hu, hv, hi, ho⟩ := Program.run_query_some.1 ha
  obtain ⟨x, rfl, hx⟩ := Option.bind_eq_some_iff.1 ho.symm
  obtain ⟨y, rfl, rfl⟩ := Option.map_eq_some_iff.1 hx
  exact ⟨hl u x hu fun e he => hR e (hi.mem_iff.2 (.inl he)),
    hr v y hv fun e he => hR e (hi.mem_iff.2 (.inr he))⟩

/-- After success another step is taken, after an error nothing. -/
theorem Task.yields_andThen {t : Task (Result α)} {f : α → Task (Result β)}
    (ht : t.Yields R (Result.ErrorIn E)) (hf : ∀ a, (f a).Yields R (Result.ErrorIn E)) :
    (t.andThen f).Yields R (Result.ErrorIn E) :=
  ht.bind fun
    | .ok a, _ => hf a
    | .error _, h => .pure h

theorem Procedure.yields_andThen {t : Procedure (Result α)} {f : α → Procedure (Result β)}
    (ht : t.Yields R (Result.ErrorIn E)) (hf : ∀ a, (f a).Yields R (Result.ErrorIn E)) :
    (t.andThen f).Yields R (Result.ErrorIn E) :=
  ht.bind fun
    | .ok a, _ => hf a
    | .error _, h => .pure h

end

end Reimage
