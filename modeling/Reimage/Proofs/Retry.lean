/-
  How often an operation is tried.

  The calls of an operation come out in some way, one after the other, and that is all that is known
  of it. What is done around them is written down.

  * `Program.tried`: what a program does and gives, where each call comes out as it should;
  * `RetryPolicy.steps`: a first call, and some retries, each after a warning and a wait;
  * `LastRetry`: which retry is the last; by `LastRetry.eq_min` and `LastRetry.eq_max` it depends on
    the call that succeeds first, or on there being none;
  * `tried_retryAfter_succ`: one retry, and `tried_retryAfter`: all from some number on;
  * `retry_law`: how often an operation is called, how long it waits in between, and what it gives.
-/
import Mathlib.Data.List.Basic
import Reimage.Retry

namespace Reimage

variable {β : Type} {p : RetryPolicy} {name : String} {outcomes : Nat → Result β}

/-! ## Steps -/

/-- Surroundings that write every step down. The call after `n` others comes out as
    `outcomes n`. -/
def RetryStep.answered (outcomes : Nat → Result β) :
    (q : RetryStep) → StateM (List RetryStep) (RetryStep.Answer β q)
  | .call => fun steps => (outcomes (steps.count .call), steps ++ [.call])
  | .warn text => fun steps => ((), steps ++ [.warn text])
  | .wait d => fun steps => ((), steps ++ [.wait d])

namespace Program

variable {α : Type}

/-- All that a program has done, where `before` was done before it, and its result. -/
def tried (program : Program RetryStep (RetryStep.Answer β) α) (outcomes : Nat → Result β)
    (before : List RetryStep) : α × List RetryStep :=
  (program.interpret (RetryStep.answered outcomes)).run before

variable {before : List RetryStep}

theorem tried_done (a : α) : (done a).tried outcomes before = (a, before) := rfl

theorem tried_call (next : Result β → Program RetryStep (RetryStep.Answer β) α) :
    (ask .call next).tried outcomes before =
      (next (outcomes (before.count .call))).tried outcomes (before ++ [.call]) := rfl

theorem tried_warn (text : String) (next : Unit → Program RetryStep (RetryStep.Answer β) α) :
    (ask (.warn text) next).tried outcomes before =
      (next ()).tried outcomes (before ++ [.warn text]) := rfl

theorem tried_wait (d : Duration) (next : Unit → Program RetryStep (RetryStep.Answer β) α) :
    (ask (.wait d) next).tried outcomes before =
      (next ()).tried outcomes (before ++ [.wait d]) := rfl

end Program

/-- How long a step waits, if it does. -/
def RetryStep.wait? : RetryStep → Option Duration
  | .wait d => some d
  | _ => none

namespace RetryPolicy

/-- What retry number `index` does, counted from 0. -/
def again (p : RetryPolicy) (name : String) (index : Nat) : List RetryStep :=
  [.warn ("Retrying " ++ name ++ " (attempt " ++ toString (index + 1) ++ "/"
      ++ toString p.maxRetries.toNat ++ ") after " ++ (p.delay index).text),
    .wait (p.delay index), .call]

/-- What a first call and `retries` further ones do. -/
def steps (p : RetryPolicy) (name : String) (retries : Nat) : List RetryStep :=
  .call :: (List.range retries).flatMap (p.again name)

theorem steps_succ (retries : Nat) :
    p.steps name (retries + 1) = p.steps name retries ++ p.again name retries := by
  simp [steps, List.range_succ]

theorem count_call_again (index : Nat) : (p.again name index).count .call = 1 := by
  simp [again]

/-- There is one call more than there are retries. -/
theorem count_call_steps (retries : Nat) : (p.steps name retries).count .call = retries + 1 := by
  induction retries with
  | zero => simp [steps]
  | succ retries ih => rw [steps_succ, List.count_append, ih, count_call_again]

/-- There is one wait before each retry, and no other. -/
theorem waits_steps (retries : Nat) :
    (p.steps name retries).filterMap RetryStep.wait? = (List.range retries).map p.delay := by
  induction retries with
  | zero => rfl
  | succ retries ih =>
    rw [steps_succ, List.filterMap_append, ih, List.range_succ, List.map_append]
    rfl

/-- The last step is a call. -/
theorem getLast?_steps (retries : Nat) : (p.steps name retries).getLast? = some .call := by
  cases retries with
  | zero => rfl
  | succ retries => rw [steps_succ, List.getLast?_append]; rfl

end RetryPolicy

/-! ## The last retry -/

/-- After `k` retries there is no other: all calls before the last have failed, and the last has
    succeeded or no retry is left. -/
structure LastRetry (p : RetryPolicy) (outcomes : Nat → Result β) (k : Nat) : Prop where
  le : k ≤ p.maxRetries.toNat
  failed : ∀ j < k, (outcomes j).isOk = false
  ended : (outcomes k).isOk = true ∨ k = p.maxRetries.toNat

namespace LastRetry

variable {k first : Nat}

/-- If a call succeeds, retries end at the first that does or when they are used up. -/
theorem eq_min (h : LastRetry p outcomes k) (hfirst : (outcomes first).isOk = true)
    (hbefore : ∀ j < first, (outcomes j).isOk = false) :
    k = min p.maxRetries.toNat first := by
  have hle : k ≤ first := by
    by_contra hlt
    exact Bool.false_ne_true ((h.failed first (Nat.not_le.1 hlt)).symm.trans hfirst)
  rcases h.ended with hok | hmax
  · have hge : first ≤ k := by
      by_contra hlt
      exact Bool.false_ne_true ((hbefore k (Nat.not_le.1 hlt)).symm.trans hok)
    have := h.le
    omega
  · omega

/-- If no call that may be made succeeds, all are made. -/
theorem eq_max (h : LastRetry p outcomes k)
    (hnever : ∀ j ≤ p.maxRetries.toNat, (outcomes j).isOk = false) : k = p.maxRetries.toNat := by
  rcases h.ended with hok | hmax
  · exact absurd ((hnever k h.le).symm.trans hok) Bool.false_ne_true
  · exact hmax

end LastRetry

/-! ## What is done -/

/-- One retry: it is announced, waited for and made, and others come only after its failure. -/
theorem tried_retryAfter_succ {left k : Nat} (hk : k + (left + 1) = p.maxRetries.toNat)
    (last : Error) :
    (retryAfter p name (left + 1) last).tried outcomes (p.steps name k) =
      match outcomes (k + 1) with
      | .ok b => (.ok b, p.steps name (k + 1))
      | .error e => (retryAfter p name left e).tried outcomes (p.steps name (k + 1)) := by
  have hindex : p.maxRetries.toNat - (left + 1) = k := by omega
  have hcount (text : String) (d : Duration) :
      (p.steps name k ++ [RetryStep.warn text] ++ [RetryStep.wait d]).count RetryStep.call
        = k + 1 := by
    simp [RetryPolicy.count_call_steps]
  rw [retryAfter, Program.tried_warn, Program.tried_wait, Program.tried_call, hcount, hindex,
    RetryPolicy.steps_succ, RetryPolicy.again]
  simp only [List.append_assoc, List.cons_append, List.nil_append]
  cases outcomes (k + 1) with
  | ok b => rfl
  | error e => rfl

/-- All retries from some number on. The induction is on how many may still be made. -/
theorem tried_retryAfter {left k : Nat} {last : Error} (hk : k + left = p.maxRetries.toNat)
    (hlast : outcomes k = .error last) (hfailed : ∀ j < k, (outcomes j).isOk = false) :
    ∃ retries, LastRetry p outcomes retries ∧
      (retryAfter p name left last).tried outcomes (p.steps name k) =
        (outcomes retries, p.steps name retries) := by
  induction left generalizing k last with
  | zero =>
    refine ⟨k, ⟨by omega, hfailed, Or.inr (by omega)⟩, ?_⟩
    rw [retryAfter, Program.tried_done, hlast]
  | succ left ih =>
    have hfailed' : ∀ j < k + 1, (outcomes j).isOk = false := by
      intro j hj
      obtain hj | rfl := Nat.lt_succ_iff_lt_or_eq.1 hj
      · exact hfailed j hj
      · rw [hlast]; rfl
    rw [tried_retryAfter_succ hk]
    cases hnext : outcomes (k + 1) with
    | ok b =>
      exact ⟨k + 1, ⟨by omega, hfailed', Or.inl (by rw [hnext]; rfl)⟩, by rw [hnext]⟩
    | error e => exact ih (by omega) hnext hfailed'

/-- The first call, and all retries. -/
theorem tried_retry (p : RetryPolicy) (name : String) (outcomes : Nat → Result β) :
    ∃ retries, LastRetry p outcomes retries ∧
      (retry p name).tried outcomes [] = (outcomes retries, p.steps name retries) := by
  rw [retry, Program.tried_call, List.count_nil, List.nil_append]
  cases hfirst : outcomes 0 with
  | ok b =>
    refine ⟨0, ⟨Nat.zero_le _, nofun, Or.inl (by rw [hfirst]; rfl)⟩, ?_⟩
    rw [Program.tried_done, hfirst]
    rfl
  | error e => exact tried_retryAfter (Nat.zero_add _) hfirst nofun

/-- **How often an operation is tried.** It is called once, and again after each failure as long as
    a retry is left, so up to the call that succeeds first if that is one of those that may be made;
    the outcome of the last call is the result. There is one wait before each call but the first, as
    long as the policy says for the retries from 0 on, and none after the last call. -/
theorem retry_law (p : RetryPolicy) (name : String) (outcomes : Nat → Result β) :
    ∃ retries, (retry p name).tried outcomes [] = (outcomes retries, p.steps name retries) ∧
      LastRetry p outcomes retries ∧
      (p.steps name retries).count .call = retries + 1 ∧
      (p.steps name retries).filterMap RetryStep.wait? = (List.range retries).map p.delay ∧
      (p.steps name retries).getLast? = some .call ∧
      (∀ first, (outcomes first).isOk = true → (∀ j < first, (outcomes j).isOk = false) →
        retries + 1 = min (p.maxRetries.toNat + 1) (first + 1)) ∧
      ((∀ j ≤ p.maxRetries.toNat, (outcomes j).isOk = false) →
        retries + 1 = p.maxRetries.toNat + 1) := by
  obtain ⟨retries, hlast, htried⟩ := tried_retry p name outcomes
  refine ⟨retries, htried, hlast, p.count_call_steps retries, p.waits_steps retries,
    p.getLast?_steps retries, fun first hfirst hbefore => ?_, fun hnever => ?_⟩
  · rw [hlast.eq_min hfirst hbefore]
    omega
  · rw [hlast.eq_max hnever]

end Reimage
