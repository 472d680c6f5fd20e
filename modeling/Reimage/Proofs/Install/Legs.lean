/-
  A run, stage by stage.

  `Passed` tells of stages that were completed or skipped. A run stands in a stage while nobody
  looks further, and it stops in one that fails.

  * `Legs`: the stages that a run has reached, each with its own events and its result;
  * `exists_legs`: every run is made of such legs;
  * `Legs.split`: what was passed before one of them.
-/
import Reimage.Proofs.Install.Stages

namespace Reimage

variable {p : Plan}

/-- A stage that a run has reached: the events it has left, and how it ended, if it has. -/
structure Leg where
  stage : Stage
  events : List Event
  result : Option (Result StageOutcome)

/-- A run goes through stages and leaves the events `tr`: it has passed all of `legs` but the last,
    which is where it stands. -/
inductive Legs (p : Plan) : (ss : List Stage) → (tr : List Event) → (legs : List Leg) → Prop
  | nil (ss : List Stage) : Legs p ss [] []
  | last {s : Stage} {ss : List Stage} {t : List Event} {r : Option (Result StageOutcome)} :
    (s.execute p).Run t r → Legs p (s :: ss) t [⟨s, t, r⟩]
  | next {s : Stage} {ss : List Stage} {t u : List Event} {outcome : StageOutcome}
    {legs : List Leg} : (s.execute p).Run t (some (.ok outcome)) → Legs p ss u legs →
    Legs p (s :: ss) (t ++ u) (⟨s, t, some (.ok outcome)⟩ :: legs)

/-- Every run of stages goes through them so. If it came to its end, all of them did. -/
theorem exists_legs {ss : List Stage} {tr : List Event} {o : Option (Except RunFailure Unit)}
    (h : (runStages p ss).Run tr o) :
    ∃ legs, Legs p ss tr legs ∧ (o.isSome → ∀ leg ∈ legs, leg.result.isSome) := by
  induction ss generalizing tr with
  | nil =>
    obtain ⟨rfl, -⟩ := Program.run_pure.1 h
    exact ⟨[], .nil [], by simp⟩
  | cons s ss ih =>
    rw [runStages, Procedure.run_log_bind, Program.run_bind] at h
    obtain ⟨rfl, h⟩ | ⟨t, e | outcome, u, rfl, h, h'⟩ := h
    · exact ⟨_, .last h, by simp⟩
    · obtain ⟨rfl, -⟩ := Program.run_pure.1 (Procedure.run_log_bind.1 h')
      rw [List.append_nil]
      exact ⟨_, .last h, by simp⟩
    · obtain ⟨legs, hlegs, hended⟩ := ih (Procedure.run_log_bind.1 h')
      exact ⟨_, .next h hlegs, fun ho => List.forall_mem_cons.2 ⟨rfl, hended ho⟩⟩

namespace Legs

variable {ss : List Stage} {tr : List Event} {legs : List Leg}

/-- A stage comes after those before it were passed. -/
theorem split {before after : List Leg} {leg : Leg} (h : Legs p ss tr (before ++ leg :: after)) :
    ∃ ss₁ ss₂ u, ss = ss₁ ++ leg.stage :: ss₂ ∧
      tr = before.flatMap Leg.events ++ (leg.events ++ u) ∧
      Passed p ss₁ (before.flatMap Leg.events) ∧
      (leg.stage.execute p).Run leg.events leg.result := by
  induction before generalizing ss tr with
  | nil =>
    cases h with
    | @last s ss _ _ h => exact ⟨[], ss, [], rfl, by simp, .nil, h⟩
    | @next s ss _ u _ _ h _ => exact ⟨[], ss, u, rfl, rfl, .nil, h⟩
  | cons first before ih =>
    generalize hl : first :: before ++ leg :: after = ls at h
    cases h with
    | nil => cases hl
    | last => simp at hl
    | @next s ss _ _ _ _ h hrest =>
      obtain ⟨rfl, rfl⟩ := List.cons.inj hl
      obtain ⟨ss₁, ss₂, u, rfl, rfl, hpassed, hrun⟩ := ih hrest
      exact ⟨s :: ss₁, ss₂, u, rfl, by simp, .cons h hpassed, hrun⟩

end Legs

end Reimage
