/-
  A record that was written is read as the node that it stands for.

  * `Reading.Yields`: what a step of reading gives and what it leaves, whatever was read before;
  * `Tree.yields_node`: a value is read from its tokens, with as much depth as it has tokens;
  * `parse_document`: so is a whole document.
-/
import Reimage.Proofs.Yaml.Token
import Reimage.Yaml.Node

namespace Reimage.Yaml

/-! ## What is written -/

mutual

/-- The node of a value. -/
def Tree.node : Tree → Node
  | .plain text => .scalar .plain none text
  | .text text => .scalar (Form.ofText text).style none text
  | .record fields => .mapping (fieldNodes fields)

/-- The entries of a record. -/
def fieldNodes : List (String × Tree) → List (Node × Node)
  | [] => []
  | (key, value) :: rest => (.scalar (Form.ofText key).style none key, value.node) :: fieldNodes rest

end

namespace Reading

/-! ## Steps -/

/-- From `ts` a step gives `a` and leaves `ts'`, and nothing else changes. -/
def Yields {α : Type} (x : Reading α) (ts : List Token) (a : α) (ts' : List Token) : Prop :=
  ∀ r : Reader, x.run { r with tokens := ts } = .ok (a, { r with tokens := ts' })

theorem Yields.pure {α : Type} (a : α) (ts : List Token) : Yields (pure a) ts a ts := fun _ => rfl

theorem Yields.bind {α β : Type} {x : Reading α} {f : α → Reading β} {a : α} {b : β}
    {ts ts' ts'' : List Token} (h : Yields x ts a ts') (h' : Yields (f a) ts' b ts'') :
    Yields (x >>= f) ts b ts'' := by
  intro r
  rw [StateT.run_bind, h r]
  exact h' r

theorem yields_next (ts : List Token) : Yields next? ts ts.head? ts := fun _ => rfl

theorem yields_skip (t : Token) (ts : List Token) : Yields skip (t :: ts) () ts := fun _ => rfl

theorem yields_accept (t : Token) (ts : List Token) : Yields (accept t) (t :: ts) true ts := by
  refine (yields_next _).bind ?_
  simp only [List.head?_cons, beq_self_eq_true, if_true]
  exact (yields_skip t ts).bind (.pure _ _)

theorem yields_accept_ne {t u : Token} (h : u ≠ t) (ts : List Token) :
    Yields (accept t) (u :: ts) false (u :: ts) := by
  refine (yields_next _).bind ?_
  have hne : (some u == some t) = false := beq_false_of_ne fun h' => h (Option.some.inj h')
  simp only [List.head?_cons, hne, Bool.false_eq_true, if_false]
  exact .pure _ _

/-- A value starts with one of these tokens. -/
def Begins : Token → Bool
  | .scalar .. | .flowMappingStart | .blockMappingStart => true
  | _ => false

theorem yields_properties {t : Token} (h : Begins t = true) (ts : List Token) :
    Yields properties (t :: ts) {} (t :: ts) := by
  intro r
  cases t with
  | scalar | flowMappingStart | blockMappingStart => rfl
  | _ => cases h

theorem yields_keep (n : Node) (ts : List Token) : Yields (keep {} n) ts n ts := fun _ => rfl

/-! ## Values -/

theorem yields_scalar (fuel : Nat) (block indentless : Bool) (style : Style) (text : String)
    (ts : List Token) :
    Yields (node (fuel + 1) block indentless) (.scalar style text :: ts) (.scalar style none text)
      ts := by
  rw [node]
  refine (yields_next _).bind ?_
  refine (yields_properties rfl _).bind ?_
  refine (yields_next _).bind ?_
  exact (yields_skip _ _).bind (yields_keep _ _)

/-- A node that starts with one of the tokens of a value is written. -/
theorem yields_nodeUnless {fuel : Nat} {block indentless : Bool} {t : Token} {ts ts' : List Token}
    {n : Node} {ends : List Token} (hends : ends.contains t = false)
    (h : Yields (node fuel block indentless) (t :: ts) n ts') :
    Yields (nodeUnless (fuel + 1) ends block indentless) (t :: ts) n ts' := by
  rw [nodeUnless]
  have hat : Yields (atAny ends) (t :: ts) false (t :: ts) := by
    refine (yields_next _).bind ?_
    simp only [List.head?_cons, hends]
    exact .pure _ _
  refine hat.bind ?_
  simpa using h

theorem yields_braces (fuel : Nat) (block indentless : Bool) (ts : List Token) :
    Yields (node (fuel + 2) block indentless) (.flowMappingStart :: .flowMappingEnd :: ts)
      (.mapping []) ts := by
  rw [node]
  refine (yields_next _).bind ?_
  refine (yields_properties rfl _).bind ?_
  refine (yields_next _).bind ?_
  refine (yields_skip _ _).bind ?_
  have hentries : Yields (flowEntries (fuel + 1) true) (.flowMappingEnd :: ts) [] ts := by
    rw [flowEntries]
    refine (yields_accept _ _).bind ?_
    simp only [if_true]
    exact .pure _ _
  exact hentries.bind (yields_keep _ _)

/-- A value starts with a token that does not end anything. -/
theorem exists_tokens (v : Tree) : ∃ t ts, v.tokens = t :: ts ∧ Begins t = true := by
  match v with
  | .plain _ => exact ⟨_, _, by rw [Tree.tokens], rfl⟩
  | .text _ => exact ⟨_, _, by rw [Tree.tokens], rfl⟩
  | .record [] => exact ⟨_, _, by rw [Tree.tokens], rfl⟩
  | .record (f :: fs) => exact ⟨_, _, by rw [Tree.tokens], rfl⟩

mutual

/-- A value is read from its tokens. -/
theorem yields_node : ∀ (v : Tree) {fuel : Nat} (_ : v.tokens.length < fuel) (indentless : Bool)
    (ts : List Token), Yields (node fuel true indentless) (v.tokens ++ ts) v.node ts
  | .plain text, fuel, hfuel, indentless, ts => by
    obtain ⟨fuel, rfl⟩ : ∃ k, fuel = k + 1 := ⟨fuel - 1, by omega⟩
    rw [Tree.tokens, Tree.node]
    exact yields_scalar fuel true indentless .plain text ts
  | .text text, fuel, hfuel, indentless, ts => by
    obtain ⟨fuel, rfl⟩ : ∃ k, fuel = k + 1 := ⟨fuel - 1, by omega⟩
    rw [Tree.tokens, Tree.node]
    exact yields_scalar fuel true indentless _ text ts
  | .record [], fuel, hfuel, indentless, ts => by
    rw [Tree.tokens] at hfuel ⊢
    obtain ⟨fuel, rfl⟩ : ∃ k, fuel = k + 2 := ⟨fuel - 2, by simp at hfuel; omega⟩
    rw [Tree.node, fieldNodes]
    exact yields_braces fuel true indentless ts
  | .record (f :: fs), fuel, hfuel, indentless, ts => by
    rw [Tree.tokens] at hfuel ⊢
    simp only [List.length_cons, List.length_append, List.length_nil] at hfuel
    obtain ⟨fuel, rfl⟩ : ∃ k, fuel = k + 1 := ⟨fuel - 1, by omega⟩
    rw [Tree.node, node, List.cons_append, List.append_assoc]
    refine (yields_next _).bind ?_
    refine (yields_properties rfl _).bind ?_
    refine (yields_next _).bind ?_
    simp only [if_true]
    refine (yields_skip _ _).bind ?_
    exact (yields_entries (f :: fs) (by omega) ts).bind (yields_keep _ _)

/-- The fields of a record are read from theirs. -/
theorem yields_entries : ∀ (fields : List (String × Tree)) {fuel : Nat}
    (_ : (fieldTokens fields).length + 1 < fuel) (ts : List Token),
    Yields (blockEntries fuel) (fieldTokens fields ++ ([.blockEnd] ++ ts)) (fieldNodes fields) ts
  | [], fuel, hfuel, ts => by
    obtain ⟨fuel, rfl⟩ : ∃ k, fuel = k + 1 := ⟨fuel - 1, by omega⟩
    rw [fieldTokens, fieldNodes, blockEntries]
    refine (yields_accept_ne (by decide : Token.blockEnd ≠ .key) ts).bind ?_
    have hexpect : Yields (expect .blockEnd) (.blockEnd :: ts) () ts :=
      (yields_accept _ _).bind (.pure _ _)
    simp only [Bool.false_eq_true, if_false]
    exact hexpect.bind (.pure _ _)
  | (key, value) :: rest, fuel, hfuel, ts => by
    rw [fieldTokens] at hfuel ⊢
    simp only [List.length_cons, List.length_append] at hfuel
    obtain ⟨fuel, rfl⟩ : ∃ k, fuel = k + 3 := ⟨fuel - 3, by omega⟩
    rw [fieldNodes, blockEntries]
    simp only [List.cons_append, List.append_assoc]
    refine (yields_accept _ _).bind ?_
    simp only [if_true]
    refine (yields_nodeUnless rfl (yields_scalar fuel true true _ key _)).bind ?_
    have hvalue := yields_node value (by omega : value.tokens.length < fuel + 1) true
      (fieldTokens rest ++ ([.blockEnd] ++ ts))
    obtain ⟨t, ts', htokens, hbegins⟩ := exists_tokens value
    have hends : [Token.key, .value, .blockEnd].contains t = false := by
      cases t with
      | scalar | flowMappingStart | blockMappingStart => rfl
      | _ => cases hbegins
    rw [htokens] at hvalue
    have hrest := yields_entries rest (by omega : (fieldTokens rest).length + 1 < fuel + 2) ts
    rw [htokens]
    refine (yields_accept _ _).bind ?_
    simp only [if_true]
    exact (yields_nodeUnless hends hvalue).bind (hrest.bind (.pure _ _))

end

/-- A document without directives and marks is a node. -/
theorem run_document (v : Tree) :
    document.run { tokens := v.tokens } =
      .ok (v.node, { tokens := [], handles := standardHandles }) := by
  have hnode := yields_node v (by omega : v.tokens.length < 4 * v.tokens.length + 8) false []
  rw [List.append_nil] at hnode
  obtain ⟨t, ts, htokens, hbegins⟩ := exists_tokens v
  have hdocument : document.run { tokens := v.tokens } =
      (node (4 * v.tokens.length + 8) true false).run
        { tokens := v.tokens, handles := standardHandles } := by
    rw [htokens]
    cases t with
    | scalar | flowMappingStart | blockMappingStart => rfl
    | _ => cases hbegins
  rw [hdocument]
  exact hnode { tokens := [], handles := standardHandles }

end Reading

/-- **A written record is read as the node it stands for.** -/
theorem parse_document {fields : List (String × Tree)} (h : (Tree.record fields).Fits) :
    Document.parse (document fields).toList = .ok ⟨(Tree.record fields).node, []⟩ := by
  rw [Document.parse, scan_document h]
  simp only [bind, Except.bind, Reading.run_document]
  rfl

end Reimage.Yaml
