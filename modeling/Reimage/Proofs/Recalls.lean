/-
  The layout that a run remembers.

  A run sets the layout of the disk once it knows it, and asks for it later. Traces know nothing of
  that: any answer fits any question. `Recalls` singles out those in which memory works as it
  should.

  * `recalls_append`: what is remembered after one part of a trace is told in the next;
  * `Recalls.after_set`: after the layout was set it is told;
  * `Recalls.knows`: as long as nothing sets the layout, the one that is told stays the same.
-/
import Reimage.Proofs.Asks

namespace Reimage

/-- The layout is told as it was set last, and before that as `m`. -/
def Recalls : (m : Option Layout) → List Event → Prop
  | _, [] => True
  | m, ⟨.layout, told⟩ :: tr => told = m ∧ Recalls m tr
  | _, ⟨.setLayout l, _⟩ :: tr => Recalls (some l) tr
  | m, _ :: tr => Recalls m tr

/-- The layout that is remembered after a trace, where `m` was before. -/
def remembered : (m : Option Layout) → List Event → Option Layout
  | m, [] => m
  | _, ⟨.setLayout l, _⟩ :: tr => remembered (some l) tr
  | m, _ :: tr => remembered m tr

theorem recalls_append {m : Option Layout} {t u : List Event} :
    Recalls m (t ++ u) ↔ Recalls m t ∧ Recalls (remembered m t) u := by
  induction t generalizing m with
  | nil => exact Iff.of_eq (true_and _).symm
  | cons e t ih =>
    obtain ⟨q, a⟩ := e
    cases q
    case layout => exact (and_congr_right fun _ => ih).trans and_assoc.symm
    all_goals exact ih

theorem remembered_append (m : Option Layout) (t u : List Event) :
    remembered m (t ++ u) = remembered (remembered m t) u := by
  induction t generalizing m with
  | nil => rfl
  | cons e t ih =>
    obtain ⟨q, a⟩ := e
    cases q <;> exact ih _

/-- Where nothing sets the layout, it is remembered as it was. -/
theorem remembered_eq {tr : List Event} (h : ∀ e ∈ tr, ∀ l, e.question ≠ .setLayout l)
    (m : Option Layout) : remembered m tr = m := by
  induction tr with
  | nil => rfl
  | cons e tr ih =>
    obtain ⟨hset, hrest⟩ := List.forall_mem_cons.1 h
    obtain ⟨q, a⟩ := e
    cases q
    case setLayout l => exact absurd rfl (hset l)
    all_goals exact ih hrest

theorem Recalls.of_append {m : Option Layout} {t u : List Event} (h : Recalls m (t ++ u)) :
    Recalls m t := (recalls_append.1 h).1

/-- After the layout was set it is told. -/
theorem Recalls.after_set {m : Option Layout} {l : Layout} {t u : List Event}
    (h : Recalls m (t ++ ⟨.setLayout l, ()⟩ :: u)) : Recalls (some l) u := (recalls_append.1 h).2

/-- As long as nothing sets the layout, the one that is told stays the same. -/
theorem Recalls.knows {S : String → Prop} {l : Layout} {tr : List Event}
    (h : Recalls (some l) tr) (hu : Uttered S tr) : Knows (· = l) tr := by
  induction tr with
  | nil => exact fun _ h => nomatch h
  | cons e tr ih =>
    obtain ⟨hq, hrest⟩ := List.forall_mem_cons.1 hu
    refine List.forall_mem_cons.2 ?_
    obtain ⟨q, a⟩ := e
    cases q
    case layout =>
      obtain ⟨rfl, h⟩ := h
      exact ⟨rfl, ih h hrest⟩
    case setLayout => exact hq.elim
    all_goals exact ⟨trivial, ih h hrest⟩

/-- The layouts that a trace tells of are some. -/
theorem knows_true (tr : List Event) : Knows (fun _ => True) tr := by
  rintro ⟨q, a⟩ -
  cases q
  case layout => cases a <;> trivial
  all_goals trivial

end Reimage
