/-
  What programs ask.

  `Program.Asks` says what a program asks as long as the answers it gets are as they should be. It
  follows the program and knows nothing of runs; that it tells of all runs is `Task.asked` and
  `Procedure.asked`.

  For a device the questions that matter are command lines and the layout of the disk:

  * `Task.Utters K S`: command lines are in `S`, and the layout is left alone, as long as the
    layouts that are told are in `K`.
-/
import Reimage.Proofs.Runs

namespace Reimage

variable {α β : Type}

/-- Whatever a program asks satisfies `P`, as long as every answer satisfies `R`. -/
inductive Program.Asks {Q : Type} {A : Q → Type} (R : (q : Q) → A q → Prop) (P : Q → Prop) :
    Program Q A α → Prop
  | done (a : α) : Asks R P (.done a)
  | ask {q : Q} {f : A q → Program Q A α} : P q → (∀ a, R q a → Asks R P (f a)) →
    Asks R P (.ask q f)

namespace Program

variable {Q : Type} {A : Q → Type} {R : (q : Q) → A q → Prop} {P : Q → Prop}

theorem Asks.query {q : Q} (h : P q) : (query q : Program Q A (A q)).Asks R P :=
  .ask h fun a _ => .done a

theorem Asks.bind {p : Program Q A α} {f : α → Program Q A β} (hp : p.Asks R P)
    (hf : ∀ a, (f a).Asks R P) : (p >>= f).Asks R P := by
  induction hp with
  | done a => exact hf a
  | ask h _ ih => exact .ask h ih

end Program

/-- An answer to the question for the layout is one of those in `K`. -/
def Ask.Told (K : Layout → Prop) : (q : Ask) → q.Answer → Prop
  | .layout, some l => K l
  | _, _ => True

/-- A command line is one of those in `S`; the layout is left as it is, and no command is read from
    while it runs. -/
def Ask.Utters (S : String → Prop) : Ask → Prop
  | .run _ line _ _ => S line
  | .setLayout _ | .start _ _ => False
  | _ => True

/-- A task hands in command lines of `S` only, as long as the layouts it is told are in `K`. -/
abbrev Task.Utters (K : Layout → Prop) (S : String → Prop) (t : Task α) : Prop :=
  t.Asks (Ask.Told K) (Ask.Utters S)

def Call.Told (K : Layout → Prop) : (c : Call) → c.Answer → Prop
  | .one q, a => q.Told K a
  | .both _ _, _ => True

def Call.Utters (K : Layout → Prop) (S : String → Prop) : Call → Prop
  | .one q => q.Utters S
  | .both left right => left.Utters K S ∧ right.Utters K S

@[simp] theorem Ask.told_layout {K : Layout → Prop} {l : Layout} :
    Ask.Told K .layout (some l) ↔ K l := Iff.rfl

@[simp] theorem Call.told_layout {K : Layout → Prop} {l : Layout} :
    Call.Told K (.one .layout) (some l) ↔ K l := Iff.rfl

/-- A procedure hands in command lines of `S` only, as long as the layouts it is told are in `K`. -/
abbrev Procedure.Utters (K : Layout → Prop) (S : String → Prop) (p : Procedure α) : Prop :=
  p.Asks (Call.Told K) (Call.Utters K S)

section

variable {K : Layout → Prop} {S : String → Prop}

theorem Task.utters_ask {q : Ask} (h : q.Utters S) : (Task.ask q).Utters K S :=
  .query h

theorem Task.utters_map {t : Task α} {f : α → β} (h : t.Utters K S) :
    Task.Utters K S (t >>= fun a => pure (f a)) :=
  .bind h fun _ => .done _

theorem Task.utters_andThen {t : Task (Result α)} {f : α → Task (Result β)} (ht : t.Utters K S)
    (hf : ∀ a, (f a).Utters K S) : (t.andThen f).Utters K S :=
  .bind ht fun
    | .ok a => hf a
    | .error _ => .done _

theorem Task.utters_procedure {t : Task α} (h : t.Utters K S) : t.procedure.Utters K S := by
  induction h with
  | done a => exact .done a
  | ask h _ ih => exact .ask h ih

end

/-! ## What is asked in a run -/

/-- The layouts that a trace tells of are in `K`. -/
def Knows (K : Layout → Prop) (tr : List Event) : Prop :=
  ∀ e ∈ tr, e.question.Told K e.answer

/-- All that a trace asks is allowed by `S`. -/
def Uttered (S : String → Prop) (tr : List Event) : Prop :=
  ∀ e ∈ tr, e.question.Utters S

section

variable {K : Layout → Prop} {S : String → Prop}

@[simp] theorem knows_append {t u : List Event} : Knows K (t ++ u) ↔ Knows K t ∧ Knows K u :=
  List.forall_mem_append

@[simp] theorem uttered_nil : Uttered S [] := fun _ h => nomatch h

@[simp] theorem uttered_append {t u : List Event} :
    Uttered S (t ++ u) ↔ Uttered S t ∧ Uttered S u :=
  List.forall_mem_append

theorem Uttered.mono {S' : String → Prop} {tr : List Event} (h : Uttered S tr)
    (hS : ∀ line, S line → S' line) : Uttered S' tr := by
  rintro ⟨q, a⟩ he
  have := h _ he
  cases q <;> first | exact hS _ this | exact this

/-- The command lines of a trace are in `S`. -/
def Spoken (S : String → Prop) (tr : List Event) : Prop :=
  ∀ e ∈ tr, match e.question with
    | .run _ line _ _ => S line
    | .start _ _ => False
    | _ => True

@[simp] theorem spoken_append {t u : List Event} :
    Spoken S (t ++ u) ↔ Spoken S t ∧ Spoken S u :=
  List.forall_mem_append

theorem Spoken.mono {S' : String → Prop} {tr : List Event} (h : Spoken S tr)
    (hS : ∀ line, S line → S' line) : Spoken S' tr := by
  rintro ⟨q, a⟩ he
  have := h _ he
  cases q <;> first | exact hS _ this | exact this

theorem Uttered.spoken {tr : List Event} (h : Uttered S tr) : Spoken S tr := by
  rintro ⟨q, a⟩ he
  have := h _ he
  cases q <;> first | exact this | trivial

/-- The layout is left alone. -/
theorem Uttered.ne_setLayout {tr : List Event} (h : Uttered S tr) :
    ∀ e ∈ tr, ∀ l, e.question ≠ .setLayout l := by
  intro e he l hl
  have := h e he
  rw [hl] at this
  exact this

theorem Ask.asked_of_does {q : Ask} {t : List Event} {a : q.Answer}
    (h : Questions.does q t (some a))
    (hk : Knows K t) (hq : q.Utters S) : q.Told K a ∧ Uttered S t := by
  obtain ⟨a', rfl, ha⟩ := h
  cases ha
  cases q
  case log => exact ⟨trivial, uttered_nil⟩
  all_goals
    simp only [Ask.record, Knows, Uttered, List.mem_singleton, forall_eq] at hk ⊢
    exact ⟨hk, hq⟩

/-- **What a task asks in a run.** -/
theorem Task.asked {t : Task α} {tr : List Event} {o : Option α} (h : t.Run tr o)
    (ht : t.Utters K S) (hk : Knows K tr) : Uttered S tr := by
  induction h with
  | cut | done => exact uttered_nil
  | stop h => obtain ⟨a, -, h⟩ := h; cases h
  | ask h _ ih =>
    cases ht with
    | ask hq ht =>
      obtain ⟨hk, hk'⟩ := knows_append.1 hk
      obtain ⟨ha, hu⟩ := Ask.asked_of_does h hk hq
      exact uttered_append.2 ⟨hu, ih (ht _ ha) hk'⟩

theorem Call.asked_of_does {c : Call} {t : List Event} {o : Option c.Answer}
    (h : Questions.does c t o)
    (hk : Knows K t) (hc : c.Utters K S) : (∀ a, o = some a → c.Told K a) ∧ Uttered S t := by
  cases c with
  | one q =>
    obtain ⟨a, rfl, rfl⟩ := h
    obtain ⟨ha, hu⟩ := Ask.asked_of_does ⟨a, rfl, rfl⟩ hk hc
    exact ⟨fun _ h => Option.some.inj h ▸ ha, hu⟩
  | both left right =>
    obtain ⟨u, v, l, r, hl, hr, hi, -⟩ := h
    refine ⟨fun _ _ => trivial, fun e he => ?_⟩
    rcases hi.mem_iff.1 he with he | he
    · exact Task.asked hl hc.1 (fun e he => hk e (hi.mem_iff.2 (Or.inl he))) e he
    · exact Task.asked hr hc.2 (fun e he => hk e (hi.mem_iff.2 (Or.inr he))) e he

/-- **What a procedure asks in a run.** -/
theorem Procedure.asked {p : Procedure α} {tr : List Event} {o : Option α}
    (h : p.Run tr o) (hp : p.Utters K S) (hk : Knows K tr) : Uttered S tr := by
  induction h with
  | cut | done => exact uttered_nil
  | stop h =>
    cases hp with
    | ask hq _ => exact (Call.asked_of_does h hk hq).2
  | ask h _ ih =>
    cases hp with
    | ask hq hp =>
      obtain ⟨hk, hk'⟩ := knows_append.1 hk
      obtain ⟨ha, hu⟩ := Call.asked_of_does h hk hq
      exact uttered_append.2 ⟨hu, ih (hp _ (ha _ rfl)) hk'⟩

end

/-! ## Whatever is answered -/

/-- All that a task asks satisfies `P`, whatever is answered. -/
abbrev Task.Only (P : Ask → Prop) (t : Task α) : Prop := t.Asks (fun _ _ => True) P

/-- What a task asks in a run, whatever is answered. -/
theorem Task.Only.of_run {P : Ask → Prop} {t : Task α} {tr : List Event} {o : Option α}
    (ht : t.Only P) (h : t.Run tr o) : ∀ e ∈ tr, P e.question := by
  induction h with
  | cut | done => exact nofun
  | stop h => obtain ⟨a, -, h⟩ := h; cases h
  | @ask q f u v a o h _ ih =>
    obtain ⟨a', rfl, -⟩ := h
    cases ht with
    | ask hq ht =>
      refine List.forall_mem_append.2 ⟨fun e he => ?_, ih (ht _ trivial)⟩
      rw [Ask.eq_of_mem_record he]
      exact hq

end Reimage
