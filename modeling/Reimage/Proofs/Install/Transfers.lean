/-
  The transfers of packages.

  Each package is visited in turn: its mark is looked for, and its image is transferred unless the
  mark is there. The first visit that fails is the last.

  * `Plan.Visit`: what one visit runs, and what it comes to;
  * `Plan.Visits`: all visits, up to the first that fails;
  * `Plan.installDlcs_selective`: so packages are installed, and on a device on which every mark is
    there, the marks are all that is ever asked for.
-/
import Reimage.Proofs.Install.Blame
import Reimage.Proofs.Install.Marks
import Reimage.Proofs.Link.Issues

namespace Reimage

namespace Plan

variable {p : Plan} {slot : Slot} {id : String} {ids : List String} {tr : List Event}

/-! ## One package -/

/-- A visit to a package. Its mark is looked for by one command; the check succeeds with a clean
    exit, and the answer is yes if the output reads `1`. If the answer is another one, the image is
    transferred by one more command. -/
inductive Visit (p : Plan) (slot : Slot) (id : String) : List Issued → Result Bool → Prop
  | verified {c : ExecResult} {out : String} : c.intoStdout (checkLine id slot) = .ok out →
    Text.trim out = "1" → Visit p slot id [⟨checkLine id slot, c⟩] (.ok false)
  | transferred {c t : ExecResult} {out url text : String} :
    c.intoStdout (checkLine id slot) = .ok out → Text.trim out ≠ "1" →
    p.artifactUrl (dlcArtifact id) = .ok url → t.intoStdout (transferLine id slot url) = .ok text →
    Visit p slot id [⟨checkLine id slot, c⟩, ⟨transferLine id slot url, t⟩] (.ok true)
  | unchecked {c : ExecResult} {e : Error} : c.intoStdout (checkLine id slot) = .error e →
    Visit p slot id [⟨checkLine id slot, c⟩] (.error (.context "failed is DLC verified check"
      (.context ("failed to check if DLC " ++ id ++ " is verified") e)))
  | unserved {c : ExecResult} {out : String} {e : Error} :
    c.intoStdout (checkLine id slot) = .ok out → Text.trim out ≠ "1" →
    p.artifactUrl (dlcArtifact id) = .error e → Visit p slot id [⟨checkLine id slot, c⟩]
      (.error (.context "failed to get GS Cache server" e))
  | untransferred {c t : ExecResult} {out url : String} {e : Error} :
    c.intoStdout (checkLine id slot) = .ok out → Text.trim out ≠ "1" →
    p.artifactUrl (dlcArtifact id) = .ok url → t.intoStdout (transferLine id slot url) = .error e →
    Visit p slot id [⟨checkLine id slot, c⟩, ⟨transferLine id slot url, t⟩]
      (.error (.context ("failed to provision DLC " ++ id) e))

/-- The mark of a package is looked for by one command. -/
theorem isDlcVerified_issues {r : Result Bool} : (p.isDlcVerified id slot).Run tr (some r) ↔
    ∃ c, p.link.Issues tr [⟨checkLine id slot, c⟩] ∧
      r = Result.within ("failed to check if DLC " ++ id ++ " is verified")
        ((c.intoStdout (checkLine id slot)).map fun out => Text.trim out == "1") := by
  rw [isDlcVerified, Program.run_bind_pure_some]
  constructor
  · rintro ⟨found, hfound, rfl⟩
    obtain ⟨c, hc, rfl⟩ := Link.issues_pathExists.1 hfound
    exact ⟨c, hc, rfl⟩
  · rintro ⟨c, hc, rfl⟩
    exact ⟨_, Link.issues_pathExists.2 ⟨c, hc, rfl⟩, rfl⟩

/-- The image of a package is transferred by one command, if it has an address. -/
theorem transferDlc_issues {r : Result Unit} : (p.transferDlc id slot).Run tr (some r) ↔
    (∃ e, p.artifactUrl (dlcArtifact id) = .error e ∧ tr = [] ∧
      r = .error (.context "failed to get GS Cache server" e)) ∨
    ∃ url t, p.artifactUrl (dlcArtifact id) = .ok url ∧
      p.link.Issues tr [⟨transferLine id slot url, t⟩] ∧
      r = Result.within ("failed to provision DLC " ++ id)
        ((t.intoStdout (transferLine id slot url)).map fun _ => ()) := by
  unfold transferDlc
  dsimp only
  rw [show "dlc/" ++ id ++ "/" ++ dlcPackage ++ "/" ++ dlcImage = dlcArtifact id from rfl]
  cases hurl : p.artifactUrl (dlcArtifact id) with
  | error e => simp [Result.within]
  | ok url =>
    simp only [reduceCtorEq, false_and, exists_false, false_or, Except.ok.injEq, exists_and_left,
      exists_eq_left']
    constructor
    · intro h
      obtain ⟨u, sent, v, rfl, h₁, h₂⟩ := Program.run_bind_some.1 h
      obtain ⟨t, ht, hsent⟩ := Link.issues_runCommand.1 h₁
      obtain ⟨rfl, rfl⟩ : v = [] ∧ r = Result.within ("failed to provision DLC " ++ id) sent := by
        cases sent with
        | error e => exact Program.run_pure_some.1 h₂
        | ok => exact Program.run_pure_some.1 (Task.run_log_bind.1 h₂)
      rw [List.append_nil]
      exact ⟨t, ht, congrArg _ hsent⟩
    · rintro ⟨t, ht, rfl⟩
      generalize hsent : (t.intoStdout (transferLine id slot url)).map (fun _ => ()) = sent
      refine Program.run_bind_some.2 ⟨tr, sent, [], (List.append_nil tr).symm,
        Link.issues_runCommand.2 ⟨t, ht, hsent.symm⟩, ?_⟩
      cases sent with
      | error e => exact Program.run_pure_some.2 ⟨rfl, rfl⟩
      | ok => exact Task.run_log_bind.2 (Program.run_pure_some.2 ⟨rfl, rfl⟩)

/-- What comes after the check of a package. -/
def afterCheck (p : Plan) (id : String) (slot : Slot) (found : Result Bool) :
    Task (Result Bool) := do
  match found.within "failed is DLC verified check" with
  | .error e => return .error e
  | .ok true =>
    Task.log (.info ("provision DLC " ++ id ++ " skipped as already verified"))
    return .ok false
  | .ok false => return (← p.transferDlc id slot).map fun _ => true

theorem installDlc_eq : p.installDlc id slot = p.isDlcVerified id slot >>= p.afterCheck id slot :=
  rfl

theorem afterCheck_run {found r : Result Bool} : (p.afterCheck id slot found).Run tr (some r) ↔
    match found with
    | .error e => tr = [] ∧ r = .error (.context "failed is DLC verified check" e)
    | .ok true => tr = [] ∧ r = .ok false
    | .ok false => ∃ sent, (p.transferDlc id slot).Run tr (some sent) ∧
      r = sent.map fun _ => true := by
  rcases found with e | ⟨_ | _⟩
  · exact Program.run_pure_some
  · exact Program.run_bind_pure_some
  · exact Task.run_log_bind.trans Program.run_pure_some

/-- A package is installed by a visit. -/
theorem installDlc_issues {r : Result Bool} : (p.installDlc id slot).Run tr (some r) ↔
    ∃ issued, p.link.Issues tr issued ∧ p.Visit slot id issued r := by
  rw [installDlc_eq, Program.run_bind_some]
  constructor
  · rintro ⟨u, found, v, rfl, h₁, h₂⟩
    obtain ⟨c, hc, rfl⟩ := isDlcVerified_issues.1 h₁
    have h₃ := afterCheck_run.1 h₂
    cases hout : c.intoStdout (checkLine id slot) with
    | error e =>
      simp only [hout, Except.map, Result.within] at h₃
      obtain ⟨rfl, rfl⟩ := h₃
      rw [List.append_nil]
      exact ⟨_, hc, .unchecked hout⟩
    | ok out =>
      by_cases hone : Text.trim out = "1"
      · simp only [hout, hone, Except.map, Result.within, beq_self_eq_true] at h₃
        obtain ⟨rfl, rfl⟩ := h₃
        rw [List.append_nil]
        exact ⟨_, hc, .verified hout hone⟩
      · simp only [hout, Except.map, Result.within, beq_eq_false_iff_ne.2 hone] at h₃
        obtain ⟨sent, h₄, rfl⟩ := h₃
        obtain ⟨e, hurl, rfl, rfl⟩ | ⟨url, t, hurl, ht, rfl⟩ := transferDlc_issues.1 h₄
        · rw [List.append_nil]
          exact ⟨_, hc, .unserved hout hone hurl⟩
        · refine ⟨_, hc.append ht, ?_⟩
          cases htext : t.intoStdout (transferLine id slot url) with
          | error e => exact .untransferred hout hone hurl htext
          | ok text => exact .transferred hout hone hurl htext
  · rintro ⟨issued, hissued, hvisit⟩
    obtain ⟨c, rest, rfl⟩ : ∃ c rest, issued = ⟨checkLine id slot, c⟩ :: rest := by
      cases hvisit <;> exact ⟨_, _, rfl⟩
    have hsplit : p.link.Issues tr ([⟨checkLine id slot, c⟩] ++ rest) := hissued
    obtain ⟨u, v, rfl, hc, hrest⟩ := hsplit.split
    refine ⟨u, _, v, rfl, isDlcVerified_issues.2 ⟨c, hc, rfl⟩, afterCheck_run.2 ?_⟩
    cases hvisit with
    | verified hout hone =>
      cases hrest
      simp [hout, hone, Except.map, Result.within]
    | unchecked hout =>
      cases hrest
      simp [hout, Except.map, Result.within]
    | unserved hout hone hurl =>
      cases hrest
      simp only [hout, Except.map, Result.within, beq_eq_false_iff_ne.2 hone]
      exact ⟨_, transferDlc_issues.2 (Or.inl ⟨_, hurl, rfl, rfl⟩), rfl⟩
    | transferred hout hone hurl htext | untransferred hout hone hurl htext =>
      simp only [hout, Except.map, Result.within, beq_eq_false_iff_ne.2 hone]
      refine ⟨_, transferDlc_issues.2 (Or.inr ⟨_, _, hurl, hrest, rfl⟩), ?_⟩
      simp [htext, Except.map, Result.within]

/-! ## One package after the other -/

/-- Packages are visited in turn, all with success. The number is that of the transfers. -/
inductive InTurn (p : Plan) (slot : Slot) : List String → List Issued → Nat → Prop
  | nil : InTurn p slot [] [] 0
  | cons {id : String} {ids : List String} {visit rest : List Issued} {new : Bool} {n : Nat} :
    p.Visit slot id visit (.ok new) → InTurn p slot ids rest n →
    InTurn p slot (id :: ids) (visit ++ rest) (n + new.toNat)

/-- All packages are visited, or those up to the first whose visit fails. -/
inductive Visits (p : Plan) (slot : Slot) (ids : List String) : List Issued → Result Nat → Prop
  | all {issued : List Issued} {n : Nat} : p.InTurn slot ids issued n →
    Visits p slot ids issued (.ok n)
  | upTo {before after : List String} {id : String} {issued last : List Issued} {n : Nat}
    {e : Error} : ids = before ++ id :: after → p.InTurn slot before issued n →
    p.Visit slot id last (.error e) → Visits p slot ids (issued ++ last) (.error e)

theorem visits_nil {issued : List Issued} {r : Result Nat} :
    p.Visits slot [] issued r ↔ issued = [] ∧ r = .ok 0 := by
  constructor
  · intro h
    cases h with
    | all h =>
      cases h
      exact ⟨rfl, rfl⟩
    | upTo h => simp at h
  · rintro ⟨rfl, rfl⟩
    exact .all .nil

theorem visits_cons {issued : List Issued} {r : Result Nat} : p.Visits slot (id :: ids) issued r ↔
    (∃ e, p.Visit slot id issued (.error e) ∧ r = .error e) ∨
    ∃ visit rest new r', issued = visit ++ rest ∧ p.Visit slot id visit (.ok new) ∧
      p.Visits slot ids rest r' ∧ r = r'.map (· + new.toNat) := by
  constructor
  · intro h
    cases h with
    | all h =>
      cases h with
      | cons hvisit hrest => exact Or.inr ⟨_, _, _, _, rfl, hvisit, .all hrest, rfl⟩
    | upTo hids hdone hlast =>
      cases hdone with
      | nil =>
        cases hids
        exact Or.inl ⟨_, hlast, rfl⟩
      | cons hvisit hrest =>
        cases hids
        exact Or.inr ⟨_, _, _, _, List.append_assoc .., hvisit, .upTo rfl hrest hlast, rfl⟩
  · rintro (⟨e, hlast, rfl⟩ | ⟨visit, rest, new, r', rfl, hvisit, hrest, rfl⟩)
    · have hfirst : id :: ids = [] ++ id :: ids := rfl
      have hvisits : p.Visits slot (id :: ids) ([] ++ issued) _ := .upTo hfirst .nil hlast
      exact hvisits
    · cases hrest with
      | all hrest => exact .all (.cons hvisit hrest)
      | upTo hids hdone hlast =>
        rw [← List.append_assoc]
        exact .upTo (congrArg (id :: ·) hids) (.cons hvisit hdone) hlast

/-- **Packages are visited in turn.** -/
theorem installDlcsInto_issues {m : Nat} {r : Result Nat} :
    (p.installDlcsInto slot m ids).Run tr (some r) ↔
      ∃ issued r', p.link.Issues tr issued ∧ p.Visits slot ids issued r' ∧ r = r'.map (m + ·) := by
  induction ids generalizing m tr with
  | nil =>
    rw [installDlcsInto, Program.run_pure_some]
    constructor
    · rintro ⟨rfl, rfl⟩
      exact ⟨[], .ok 0, .nil, visits_nil.2 ⟨rfl, rfl⟩, rfl⟩
    · rintro ⟨issued, r', hissued, hvisits, rfl⟩
      obtain ⟨rfl, rfl⟩ := visits_nil.1 hvisits
      cases hissued
      exact ⟨rfl, rfl⟩
  | cons id ids ih =>
    have hadd : ∀ (new : Bool) (r : Result Nat),
        r.map ((if new = true then m + 1 else m) + ·) = (r.map (· + new.toNat)).map (m + ·) := by
      rintro (_ | _) (e | n)
      · rfl
      · rfl
      · rfl
      · exact congrArg Except.ok (by simp; omega)
    rw [installDlcsInto, Task.run_andThen]
    constructor
    · rintro (⟨ho, -⟩ | ⟨e, h₁, ho⟩ | ⟨u, new, v, rfl, h₁, h₂⟩)
      · cases ho
      · obtain ⟨issued, hissued, hlast⟩ := installDlc_issues.1 h₁
        exact ⟨issued, .error e, hissued, visits_cons.2 (Or.inl ⟨e, hlast, rfl⟩),
          Option.some.inj (ho.resolve_left nofun)⟩
      · obtain ⟨visit, hissued, hvisit⟩ := installDlc_issues.1 h₁
        obtain ⟨rest, r', hrest, hvisits, rfl⟩ := ih.1 h₂
        refine ⟨visit ++ rest, r'.map (· + new.toNat), hissued.append hrest,
          visits_cons.2 (Or.inr ⟨visit, rest, new, r', rfl, hvisit, hvisits, rfl⟩), hadd new r'⟩
    · rintro ⟨issued, r', hissued, hvisits, rfl⟩
      obtain ⟨e, hlast, rfl⟩ | ⟨visit, rest, new, r', rfl, hvisit, hrest, rfl⟩ :=
        visits_cons.1 hvisits
      · exact Or.inr (Or.inl ⟨e, installDlc_issues.2 ⟨issued, hissued, hlast⟩, Or.inr rfl⟩)
      · obtain ⟨u, v, rfl, hu, hv⟩ := hissued.split
        refine Or.inr (Or.inr ⟨u, new, v, rfl, installDlc_issues.2 ⟨visit, hu, hvisit⟩, ?_⟩)
        exact ih.2 ⟨rest, r', hv, hrest, (hadd new r').symm⟩

/-! ## What is run -/

/-- Whether a line looks for a path. -/
def isCheck (line : String) : Bool := "[ -e ".toList.isPrefixOf line.toList

theorem isCheck_checkLine : isCheck (checkLine id slot) = true :=
  List.isPrefixOf_iff_prefix.2 (Shell.isPrefix_pathExists _)

theorem isCheck_transferLine {url : String} : isCheck (transferLine id slot url) = false := by
  rw [Bool.eq_false_iff]
  intro h
  have hapart : BeginApart "[ -e " "mkdir" := by decide
  exact hapart.not_isPrefix (List.isPrefixOf_iff_prefix.1 h) (isPrefix_transferLine id slot url)

/-- The marks that were looked for. -/
def checks (issued : List Issued) : List String := (issued.map Issued.line).filter isCheck

/-- What else was run. -/
def transfers (issued : List Issued) : List String :=
  (issued.map Issued.line).filter fun line => !isCheck line

/-- In each visit one mark is looked for, and at most one image is transferred. -/
theorem Visit.counts {issued : List Issued} {r : Result Bool} (h : p.Visit slot id issued r) :
    checks issued = [checkLine id slot] ∧
      ∀ new, r = .ok new → (transfers issued).length = new.toNat := by
  cases h <;> simp [checks, transfers, isCheck_checkLine, isCheck_transferLine]

theorem InTurn.counts {issued : List Issued} {n : Nat} (h : p.InTurn slot ids issued n) :
    checks issued = ids.map (checkLine · slot) ∧ (transfers issued).length = n := by
  induction h with
  | nil => exact ⟨rfl, rfl⟩
  | @cons id ids visit rest new n hvisit _ ih =>
    obtain ⟨hcheck, htransfer⟩ := hvisit.counts
    have hchecks : checks (visit ++ rest) = checks visit ++ checks rest := by simp [checks]
    have htransfers : transfers (visit ++ rest) = transfers visit ++ transfers rest := by
      simp [transfers]
    rw [hchecks, htransfers, List.length_append, hcheck, ih.1, ih.2, htransfer new rfl]
    exact ⟨rfl, Nat.add_comm ..⟩

/-- If all goes well, each mark was looked for once, and the number is that of the transfers. -/
theorem Visits.counts {issued : List Issued} {n : Nat} (h : p.Visits slot ids issued (.ok n)) :
    checks issued = ids.map (checkLine · slot) ∧ (transfers issued).length = n := by
  cases h with
  | all h => exact h.counts

/-- After the first failure no mark is looked for any more. -/
theorem Visits.stops {issued : List Issued} {e : Error} (h : p.Visits slot ids issued (.error e)) :
    ∃ before id after, ids = before ++ id :: after ∧
      checks issued = (before ++ [id]).map (checkLine · slot) := by
  cases h with
  | @upTo before after id done last n e hids hdone hlast =>
    refine ⟨before, id, after, hids, ?_⟩
    have hchecks : checks (done ++ last) = checks done ++ checks last := by simp [checks]
    rw [hchecks, hdone.counts.1, hlast.counts.1, List.map_append, List.map_singleton]

end Plan

/-! ## A device on which every mark is there -/

/-- A check came to its end and found what it looked for. -/
def ExecResult.Confirms (r : ExecResult) (line : String) : Prop :=
  ∃ out, r.intoStdout line = .ok out ∧ Text.trim out = "1"

/-- Whenever a check is run over the link, it finds what it looks for. -/
def Link.Confirms (l : Link) (line : String) (tr : List Event) : Prop :=
  ∀ t r, t <:+: tr → (l.exec line).Run t (some r) → r.Confirms line

/-- Calls a task a number of times, one call after the other. -/
def Task.times {α : Type} (t : Task α) : (calls : Nat) → Task (List α)
  | 0 => pure []
  | calls + 1 => do
    let a ← t
    return a :: (← t.times calls)

theorem Task.run_times_succ {α : Type} {t : Task α} {k : Nat} {tr : List Event} {results : List α} :
    (t.times (k + 1)).Run tr (some results) ↔ ∃ u a v rest, tr = u ++ v ∧ t.Run u (some a) ∧
      (t.times k).Run v (some rest) ∧ results = a :: rest := by
  rw [times, Program.run_bind_some]
  constructor
  · rintro ⟨u, a, v, rfl, hu, hv⟩
    obtain ⟨rest, hrest, rfl⟩ := Program.run_bind_pure_some.1 hv
    exact ⟨u, a, v, rest, rfl, hu, hrest, rfl⟩
  · rintro ⟨u, a, v, rest, rfl, hu, hrest, rfl⟩
    exact ⟨u, a, v, rfl, hu, Program.run_bind_pure_some.2 ⟨rest, hrest, rfl⟩⟩

theorem Link.Confirms.mono {l : Link} {line : String} {t tr : List Event}
    (h : l.Confirms line tr) (ht : t <:+: tr) : l.Confirms line t := by
  intro u r hu hrun
  exact h u r (hu.trans ht) hrun

/-- On an open link that has a connection, it is the answers to the command that count. -/
theorem Link.Confirms.of_open {l : Link} {line : String} {tr : List Event}
    {cur : Option Connection} (hcur : cur.isSome) (ho : Open cur tr)
    (h : ∀ c a, (⟨.run c line none .separate, a⟩ : Event) ∈ tr →
      (ExecResult.ofAttempt a).Confirms line) : l.Confirms line tr := by
  rintro t r ⟨u, v, rfl⟩ hrun
  have hopen : Open cur t := by
    rw [open_iff_forall hcur] at ho ⊢
    intro e he
    exact ho e (by simp [he])
  obtain ⟨c, a, rfl, rfl⟩ := exec_run_held hcur hopen hrun
  exact h c a (by simp [sent])

namespace Plan

variable {p : Plan} {slot : Slot} {id : String} {ids : List String} {tr : List Event}

/-- Where every mark is there, nothing is transferred, and every mark is looked for. -/
theorem Visits.confirmed {issued : List Issued} {r : Result Nat} (h : p.Visits slot ids issued r)
    (hmarks : ∀ id ∈ ids, ∀ i ∈ issued, i.line = checkLine id slot → i.result.Confirms i.line) :
    r = .ok 0 ∧ issued.map Issued.line = ids.map (checkLine · slot) := by
  induction ids generalizing issued r with
  | nil =>
    obtain ⟨rfl, rfl⟩ := visits_nil.1 h
    exact ⟨rfl, rfl⟩
  | cons id ids ih =>
    have hfirst : ∀ {visit rest r'}, issued = visit ++ rest → p.Visit slot id visit r' →
        r' = .ok false ∧ visit.map Issued.line = [checkLine id slot] := by
      rintro visit rest r' rfl hvisit
      have hmark : ∀ {c : ExecResult}, ⟨checkLine id slot, c⟩ ∈ visit →
          c.Confirms (checkLine id slot) := fun hc =>
        hmarks id (List.mem_cons_self ..) _ (List.mem_append_left rest hc) rfl
      cases hvisit with
      | verified => exact ⟨rfl, rfl⟩
      | unchecked hout =>
        obtain ⟨out, hout', -⟩ := hmark (List.mem_cons_self ..)
        cases hout.symm.trans hout'
      | transferred hout hone | unserved hout hone | untransferred hout hone =>
        obtain ⟨out, hout', hone'⟩ := hmark (List.mem_cons_self ..)
        cases hout.symm.trans hout'
        exact absurd hone' hone
    obtain ⟨e, hlast, rfl⟩ | ⟨visit, rest, new, r', rfl, hvisit, hrest, rfl⟩ := visits_cons.1 h
    · obtain ⟨he, -⟩ := hfirst (List.append_nil issued).symm hlast
      cases he
    · obtain ⟨hnew, hline⟩ := hfirst rfl hvisit
      cases hnew
      obtain ⟨rfl, hlines⟩ := ih hrest fun id hid i hi =>
        hmarks id (List.mem_cons_of_mem _ hid) i (List.mem_append_right visit hi)
      refine ⟨rfl, ?_⟩
      rw [List.map_append, hline, hlines]
      rfl

theorem Visits.confirmed_lines {issued : List Issued} {r : Result Nat}
    (hvisits : p.Visits slot ids issued r) (hissued : p.link.Issues tr issued)
    (hmarks : ∀ id ∈ ids, p.link.Confirms (checkLine id slot) tr) :
    r = .ok 0 ∧ lines tr = ids.map (checkLine · slot) := by
  have hconfirmed : ∀ id ∈ ids, ∀ i ∈ issued, i.line = checkLine id slot →
      i.result.Confirms i.line := by
    intro id hid i hi hline
    obtain ⟨t, ht, hrun⟩ := hissued.exists_infix hi
    rw [hline] at hrun ⊢
    exact hmarks id hid t _ ht hrun
  obtain ⟨rfl, hlines⟩ := hvisits.confirmed hconfirmed
  refine ⟨rfl, ?_⟩
  rw [hissued.lines_eq, hlines]
  intro i hi
  have hline : i.line ∈ ids.map (checkLine · slot) := hlines ▸ List.mem_map_of_mem hi
  obtain ⟨id, hid, hid'⟩ := List.mem_map.1 hline
  obtain ⟨out, hout, -⟩ := hconfirmed id hid i hi hid'.symm
  obtain ⟨f, hf, -⟩ := ExecResult.intoStdout_eq_ok.1 hout
  rw [hf]
  rfl

/-! ## All packages of a request -/

/-- The slot of the booted root, in the layout that is told. -/
def bootedSlot (told : Option Layout) : Result Slot :=
  (layoutOf told).bind fun l => Slot.ofRoot l.activeRoot

theorem startSlot_run_some {r : Result Slot} :
    startSlot.Run tr (some r) ↔ ∃ told, tr = [⟨.layout, told⟩] ∧ r = bootedSlot told := by
  rw [startSlot, Program.run_bind_pure_some]
  constructor
  · rintro ⟨found, hfound, rfl⟩
    obtain ⟨told, rfl, rfl⟩ := layout_run_some.1 hfound
    exact ⟨told, rfl, rfl⟩
  · rintro ⟨told, rfl, rfl⟩
    exact ⟨_, layout_run_some.2 ⟨told, rfl, rfl⟩, rfl⟩

/-- Packages are visited once the slot is known. -/
theorem installDlcs_run {r : Result Nat} : p.installDlcs.Run tr (some r) ↔
    ∃ told u, tr = ⟨.layout, told⟩ :: u ∧
      ((∃ e, bootedSlot told = .error e ∧ u = [] ∧ r = .error e) ∨
        ∃ slot issued, bootedSlot told = .ok slot ∧ p.link.Issues u issued ∧
          p.Visits slot.other p.request.dlcIds issued r) := by
  have hzero : ∀ r : Result Nat, r.map (0 + ·) = r := by
    rintro (e | n)
    · rfl
    · exact congrArg Except.ok (Nat.zero_add n)
  rw [installDlcs, Task.run_andThen]
  constructor
  · rintro (⟨ho, -⟩ | ⟨e, h₁, ho⟩ | ⟨t, slot, u, rfl, h₁, h₂⟩)
    · cases ho
    · obtain ⟨told, rfl, he⟩ := startSlot_run_some.1 h₁
      exact ⟨told, [], rfl, Or.inl ⟨e, he.symm, rfl, Option.some.inj (ho.resolve_left nofun)⟩⟩
    · obtain ⟨told, rfl, hslot⟩ := startSlot_run_some.1 h₁
      obtain ⟨issued, r', hissued, hvisits, rfl⟩ := installDlcsInto_issues.1 h₂
      rw [hzero]
      exact ⟨told, u, rfl, Or.inr ⟨slot, issued, hslot.symm, hissued, hvisits⟩⟩
  · rintro ⟨told, u, rfl, ⟨e, he, rfl, rfl⟩ | ⟨slot, issued, hslot, hissued, hvisits⟩⟩
    · exact Or.inr (Or.inl ⟨e, startSlot_run_some.2 ⟨told, rfl, he.symm⟩, Or.inr rfl⟩)
    · refine Or.inr (Or.inr ⟨[⟨.layout, told⟩], slot, u, rfl, ?_, ?_⟩)
      · exact startSlot_run_some.2 ⟨told, rfl, hslot.symm⟩
      · exact installDlcsInto_issues.2 ⟨issued, r, hissued, hvisits, (hzero r).symm⟩

theorem installDlcs_confirmed {l : Layout} {r : Result Nat} (hl : Remembers l tr)
    (hs : l.Agrees slot)
    (hmarks : ∀ id ∈ p.request.dlcIds, p.link.Confirms (checkLine id slot.other) tr)
    (h : p.installDlcs.Run tr (some r)) :
    r = .ok 0 ∧ lines tr = p.request.dlcIds.map (checkLine · slot.other) := by
  obtain ⟨told, u, rfl, hrest⟩ := installDlcs_run.1 h
  have htold : told = some l := hl told (List.mem_cons_self ..)
  have hslot : bootedSlot told = .ok slot := by
    rw [htold]
    exact hs.activeRoot
  obtain ⟨e, he, -⟩ | ⟨slot', issued, hslot', hissued, hvisits⟩ := hrest
  · cases hslot.symm.trans he
  · cases hslot.symm.trans hslot'
    have hu : u <:+: ⟨.layout, told⟩ :: u := (List.suffix_cons _ u).isInfix
    have hall := hvisits.confirmed_lines hissued fun id hid => (hmarks id hid).mono hu
    exact hall

/-- Calls on a device on which every mark is there, however many. -/
theorem times_installDlcs {l : Layout} {k : Nat} {results : List (Result Nat)}
    (hl : Remembers l tr) (hs : l.Agrees slot)
    (hmarks : ∀ id ∈ p.request.dlcIds, p.link.Confirms (checkLine id slot.other) tr)
    (h : (p.installDlcs.times k).Run tr (some results)) :
    results = List.replicate k (.ok 0) ∧
      lines tr = (List.replicate k (p.request.dlcIds.map (checkLine · slot.other))).flatten := by
  induction k generalizing tr results with
  | zero =>
    obtain ⟨rfl, rfl⟩ := Program.run_pure_some.1 h
    exact ⟨rfl, rfl⟩
  | succ k ih =>
    obtain ⟨t, r, v, rest, rfl, ht, hv, rfl⟩ := Task.run_times_succ.1 h
    obtain ⟨rfl, hfirst⟩ := installDlcs_confirmed (hl.mono fun _ => List.mem_append_left v) hs
      (fun id hid => (hmarks id hid).mono (List.prefix_append t v).isInfix) ht
    obtain ⟨rfl, hothers⟩ := ih (hl.mono fun _ => List.mem_append_right t)
      (fun id hid => (hmarks id hid).mono (List.suffix_append t v).isInfix) hv
    rw [lines_append, hfirst, hothers]
    exact ⟨rfl, rfl⟩

/-- **Packages are installed selectively, and the first failure ends it.** The slot that is not
    booted is installed to. The packages are visited in their order: of each, one mark is looked
    for, and its image is transferred if the mark is not there. The first check, address or transfer
    that fails ends the step with its error. A step that succeeds tells the number of transfers.
    Nothing else is handed to the device, and all of it is if there is a connection. On a device on
    which every mark is there, any number of calls look for each mark each time, and transfer
    nothing. -/
theorem installDlcs_selective (p : Plan) :
    (∀ tr r, p.installDlcs.Run tr (some r) ↔ ∃ told u, tr = ⟨.layout, told⟩ :: u ∧
      ((∃ e, bootedSlot told = .error e ∧ u = [] ∧ r = .error e) ∨
        ∃ slot issued, bootedSlot told = .ok slot ∧ p.link.Issues u issued ∧
          p.Visits slot.other p.request.dlcIds issued r)) ∧
    (∀ slot ids issued n, p.Visits slot ids issued (.ok n) →
      checks issued = ids.map (checkLine · slot) ∧ (transfers issued).length = n) ∧
    (∀ slot ids issued e, p.Visits slot ids issued (.error e) →
      ∃ before id after, ids = before ++ id :: after ∧
        checks issued = (before ++ [id]).map (checkLine · slot)) ∧
    (∀ u issued, p.link.Issues u issued → (lines u).Sublist (issued.map Issued.line) ∧
      ∀ cur, cur.isSome → Link.Open cur u → lines u = issued.map Issued.line) ∧
    ∀ l slot tr k results, Remembers l tr → l.Agrees slot →
      (∀ id ∈ p.request.dlcIds, p.link.Confirms (checkLine id slot.other) tr) →
      (p.installDlcs.times k).Run tr (some results) → results = List.replicate k (.ok 0) ∧
        lines tr = (List.replicate k (p.request.dlcIds.map (checkLine · slot.other))).flatten := by
  refine ⟨fun tr r => installDlcs_run, ?_, ?_, ?_, ?_⟩
  · intro slot ids issued n h
    exact h.counts
  · intro slot ids issued e h
    exact h.stops
  · intro u issued h
    exact ⟨h.lines_sublist, fun cur hcur ho => h.lines_held hcur ho⟩
  · intro l slot tr k results hl hs hmarks h
    exact times_installDlcs hl hs hmarks h

/-! ## Two packages -/

def sampleDlcUrl : String :=
  "10.0.0.1:8082/download/images/r100/dlc/borealis/package/dlc.img"

/-- The two packages are visited, of which the first has its mark. -/
def borealisNew : List Event :=
  let c : Connection := ⟨1, "dut"⟩
  Link.sent c (checkLine "termina" .b) none .separate (prints "1") ++
    (Link.sent c (checkLine "borealis" .b) none .separate (prints "0") ++
    Link.sent c (transferLine "borealis" .b sampleDlcUrl) none .separate (prints ""))

/-- The layout is told, then they are visited, and both have theirs. -/
def bothMarked : List Event :=
  let c : Connection := ⟨1, "dut"⟩
  ⟨.layout, some bootedA⟩ :: (Link.sent c (checkLine "termina" .b) none .separate (prints "1") ++
    Link.sent c (checkLine "borealis" .b) none .separate (prints "1"))

/-- One package is transferred, and two calls transfer none once both marks are there. -/
theorem installDlcs_selective_twoPackages :
    (∃ r, twoPackages.installDlcs.Run (⟨.layout, some bootedA⟩ :: borealisNew) (some r) ∧
      r = .ok 1 ∧ lines borealisNew = [checkLine "termina" .b, checkLine "borealis" .b,
        transferLine "borealis" .b sampleDlcUrl]) ∧
    ∃ tr results, (twoPackages.installDlcs.times 2).Run tr (some results) ∧
      results = [.ok 0, .ok 0] ∧ lines tr = [checkLine "termina" .b, checkLine "borealis" .b,
        checkLine "termina" .b, checkLine "borealis" .b] := by
  obtain ⟨hrun, -, -, hlines, htimes⟩ := installDlcs_selective twoPackages
  have hone : Text.trim (Text.Utf8.lossy (Text.Utf8.ofString "1")) = "1" := by decide +kernel
  have hzero : Text.trim (Text.Utf8.lossy (Text.Utf8.ofString "0")) ≠ "1" := by decide +kernel
  have hurl : twoPackages.artifactUrl (dlcArtifact "borealis") = .ok sampleDlcUrl := by
    have hsome : (twoPackages.artifactUrl (dlcArtifact "borealis")).toOption =
        some sampleDlcUrl := by decide +kernel
    cases hfound : twoPackages.artifactUrl (dlcArtifact "borealis") with
    | error e => simp [hfound, Except.toOption] at hsome
    | ok url => simpa [hfound, Except.toOption] using hsome
  have hslot : bootedSlot (some bootedA) = .ok .a := bootedA_agrees.activeRoot
  have hsent : ∀ line out, twoPackages.link.Issues
      (Link.sent ⟨1, "dut"⟩ line none .separate (prints out))
      [⟨line, .ofAttempt (prints out)⟩] := fun line out =>
    Link.Issues.singleton_iff.2 (Link.run_exec_sent _ _)
  have hmarked : ∀ id, twoPackages.Visit .b id [⟨checkLine id .b, .ofAttempt (prints "1")⟩]
      (.ok false) := fun id => .verified rfl hone
  constructor
  · have hnew : twoPackages.Visit .b "borealis" [⟨checkLine "borealis" .b, .ofAttempt (prints "0")⟩,
        ⟨transferLine "borealis" .b sampleDlcUrl, .ofAttempt (prints "")⟩] (.ok true) :=
      .transferred rfl hzero hurl rfl
    have hissues : twoPackages.link.Issues borealisNew _ :=
      (hsent _ "1").append ((hsent _ "0").append (hsent _ ""))
    have hvisits : twoPackages.Visits .b ["termina", "borealis"] _ (.ok 1) :=
      .all (.cons (hmarked "termina") (.cons hnew .nil))
    refine ⟨.ok 1, ?_, rfl, ?_⟩
    · exact (hrun _ _).2 ⟨some bootedA, _, rfl, Or.inr ⟨.a, _, hslot, hissues, hvisits⟩⟩
    · exact (hlines _ _ hissues).2 (some ⟨1, "dut"⟩) rfl (by decide)
  · have hcall : twoPackages.installDlcs.Run bothMarked (some (.ok 0)) := by
      have hissues := (hsent (checkLine "termina" .b) "1").append (hsent (checkLine "borealis" .b) "1")
      have hvisits : twoPackages.Visits .b ["termina", "borealis"] _ (.ok 0) :=
        .all (.cons (hmarked "termina") (.cons (hmarked "borealis") .nil))
      exact (hrun _ _).2 ⟨some bootedA, _, rfl, Or.inr ⟨.a, _, hslot, hissues, hvisits⟩⟩
    have hcalls : (twoPackages.installDlcs.times 2).Run (bothMarked ++ (bothMarked ++ []))
        (some [.ok 0, .ok 0]) :=
      Task.run_times_succ.2 ⟨_, _, _, _, rfl, hcall, Task.run_times_succ.2
        ⟨_, _, _, _, rfl, hcall, Program.run_pure_some.2 ⟨rfl, rfl⟩, rfl⟩, rfl⟩
    have hremembers : Remembers bootedA (bothMarked ++ (bothMarked ++ [])) := by
      intro told htold
      simp [bothMarked, Link.sent, Link.found] at htold
      exact htold
    have hconfirms : ∀ id, twoPackages.link.Confirms (checkLine id .b)
        (bothMarked ++ (bothMarked ++ [])) := by
      intro id
      have hopen : Link.Open (some ⟨1, "dut"⟩) (bothMarked ++ (bothMarked ++ [])) := by decide
      refine .of_open rfl hopen fun c a ha => ?_
      have hprints : a = prints "1" := by
        simp [bothMarked, Link.sent, Link.found] at ha
        rcases ha with h | h | h | h <;> exact h.2
      rw [hprints]
      exact ⟨_, rfl, hone⟩
    refine ⟨_, _, hcalls, ?_⟩
    exact htimes bootedA .a _ 2 _ hremembers bootedA_agrees (fun id _ => hconfirms id) hcalls

end Plan

end Reimage
