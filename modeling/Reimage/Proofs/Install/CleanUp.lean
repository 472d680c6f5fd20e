/-
  What is left of a stateful image that was unpacked in vain.

  The image is unpacked beside the one in use, and the next boot puts it in place. If that fails, or
  anything after it in its stage, what was unpacked is removed: by the command itself in the first
  case, and by its revert in the second.

  * `Plan.staging`: the command lines of a trace that unpack the image or remove it;
  * `Plan.installStateful_run`, `Plan.installStateful_cleanedUp`: of the command;
  * `Stage.Unpacks`: how a run of the stage goes about the image;
  * `Stage.installStateful_staging`: so it is removed, once, if the stage fails after it.
-/
import Reimage.Proofs.Install.Daemon
import Reimage.Proofs.Install.Reboots

namespace Reimage

open Plan

/-! ## The lines that unpack and remove -/

/-- What a command line does about the image that is unpacked. -/
inductive Staging
  /-- Unpacks it. -/
  | unpack
  /-- Removes what was unpacked, and the mark that has the next boot put it in place. -/
  | removal
  deriving DecidableEq, Repr

namespace Plan

variable {p : Plan} {cur : Option Connection} {tr : List Event}

def stagingOf (p : Plan) (line : String) : Option Staging :=
  if line = cleanUpLine then some .removal
  else if (p.artifactUrl statefulImage).toOption.map unpackLine = some line then some .unpack
  else none

/-- What the command lines of a trace do about the image, in order. -/
def staging (p : Plan) (tr : List Event) : List Staging := (lines tr).filterMap p.stagingOf

@[simp] theorem staging_append (t u : List Event) :
    p.staging (t ++ u) = p.staging t ++ p.staging u := by
  rw [staging, lines_append, List.filterMap_append, staging, staging]

theorem staging_of_lines_eq_nil (h : lines tr = []) : p.staging tr = [] := by
  rw [staging, h, List.filterMap_nil]

/-- One begins with the removal of the mark, the other with that of the image. -/
theorem unpackLine_ne_cleanUpLine (url : String) : unpackLine url ≠ cleanUpLine := by
  have hclean : ("rm" ++ " " ++ ("-rf" ++ " " ++ (statefulPath ++ "/var_new"))).toList <+:
      cleanUpLine.toList :=
    Shell.isPrefix_commandLine_cons (by decide) (by decide)
      (Shell.isPrefix_commandLine_cons (by decide) (by decide)
        (Shell.isPrefix_commandLine (by decide) _))
  have hunpack : ("rm -rf " ++ statefulMark).toList <+: (unpackLine url).toList := by
    rw [unpackLine, unpackStateful, Shell.commandLine_empty]
    refine List.IsPrefix.trans ?_
      (Shell.isPrefix_commandLine (by simp [statefulMark, statefulPath]) _)
    simp [String.toList_append]
  have hapart : BeginApart ("rm" ++ " " ++ ("-rf" ++ " " ++ (statefulPath ++ "/var_new")))
      ("rm -rf " ++ statefulMark) := by
    constructor <;> simp [statefulPath, statefulMark]
  intro h
  rw [h] at hunpack
  exact hapart.not_isPrefix hclean hunpack

theorem stagingOf_cleanUpLine : p.stagingOf cleanUpLine = some .removal := if_pos rfl

theorem stagingOf_unpackLine {url : String} (h : p.artifactUrl statefulImage = .ok url) :
    p.stagingOf (unpackLine url) = some .unpack := by
  rw [stagingOf, if_neg (unpackLine_ne_cleanUpLine url), h]
  exact if_pos rfl

/-- Both begin alike. -/
theorem stagingOf_eq_none {line : String} (h : ¬"rm -rf".toList <+: line.toList) :
    p.stagingOf line = none := by
  rw [stagingOf, if_neg, if_neg]
  · intro hline
    obtain ⟨url, -, rfl⟩ := Option.map_eq_some_iff.1 hline
    exact h (isPrefix_unpackLine url)
  · rintro rfl
    exact h isPrefix_cleanUpLine

/-- Where no line begins so. -/
theorem staging_eq_nil (h : Uttered (fun line => ¬"rm -rf".toList <+: line.toList) tr) :
    p.staging tr = [] :=
  List.filterMap_eq_nil_iff.2 fun _ hline => stagingOf_eq_none (h.of_mem_lines hline)

end Plan

/-! ## The commands -/

section

variable {p : Plan} {cur : Option Connection} {tr : List Event}

/-- The commands of the stage other than the one that unpacks the image do nothing about it. -/
theorem Command.staging_execute {c : Command}
    (hc : c ∈ [.stopSystemDaemons, .clearDlcArtifacts, .installDlcs])
    {o : Option (Result Command)} (h : (c.execute p).Run tr o) : p.staging tr = [] := by
  have hu : (c.execute p).Utters (fun _ => True)
      fun line => ¬"rm -rf".toList <+: line.toList := by
    simp only [List.mem_cons, List.not_mem_nil, or_false] at hc
    rcases hc with rfl | rfl | rfl
    · exact Command.utters_kept (Task.utters_procedure
        (utters_stopSystemDaemons (by decide) (by decide)))
    · exact Command.utters_kept (Task.utters_procedure (utters_clearDlcArtifacts
        (BeginApart.not_isPrefix (by decide) (Shell.isPrefix_pathExists _)) (by decide)
        (fun slot => by cases slot <;> decide) (by decide)))
    · exact Command.utters_kept (Task.utters_procedure (utters_installDlcs
        (fun _ _ _ => BeginApart.not_isPrefix (by decide) (Shell.isPrefix_pathExists _))
        fun _ _ _ _ => BeginApart.not_isPrefix (by decide) (isPrefix_transferLine _ _ _)))
  exact staging_eq_nil (Procedure.asked h hu (knows_true tr))

/-- What has been done about the image when a step has come to `o`. -/
inductive CleanedUp {α : Type} : (o : Option (Result α)) → List Staging → Prop
  | done (a : α) : CleanedUp (some (.ok a)) [.unpack]
  /-- The step failed before the image was unpacked. -/
  | untouched (e : Error) : CleanedUp (some (.error e)) []
  /-- It failed then or later. -/
  | undone (e : Error) : CleanedUp (some (.error e)) [.unpack, .removal]
  | cut {s : List Staging} : s <+: [.unpack, .removal] → CleanedUp none s

theorem CleanedUp.toNone {α β : Type} {o : Option (Result α)} {s : List Staging}
    (h : CleanedUp o s) : CleanedUp (none : Option (Result β)) s := by
  cases h with
  | done a => exact .cut ⟨[.removal], rfl⟩
  | untouched e => exact .cut List.nil_prefix
  | undone e => exact .cut (List.prefix_refl _)
  | cut h => exact .cut h

theorem CleanedUp.failed {α β : Type} {e : Error} {s : List Staging}
    (h : CleanedUp (some (.error e) : Option (Result α)) s) (f : Error) :
    CleanedUp (some (.error f) : Option (Result β)) s := by
  cases h with
  | untouched => exact .untouched f
  | undone => exact .undone f

theorem CleanedUp.eq_of_ok {α : Type} {a : α} {s : List Staging}
    (h : CleanedUp (some (.ok a)) s) : s = [.unpack] := by
  cases h
  rfl

namespace Plan

/-- A command that is run for its effect is handed in once at most. -/
theorem run_lines {command : String} {args : List String} {o : Option (Result Unit)}
    (h : (p.run command args).Run tr o) :
    lines tr = [] ∨ lines tr = [Shell.commandLine command args] := by
  obtain ⟨r, h₁, -⟩ := Program.run_bind_pure.1 h
  exact Link.runCommand_lines h₁

theorem staging_of_lines_eq {line : String} {x : Staging} (hx : p.stagingOf line = some x)
    (h : lines tr = [line]) : p.staging tr = [x] := by
  rw [staging, h, List.filterMap_cons_some hx, List.filterMap_nil]

/-- The runs of the command. It unpacks the image, and where that fails, it removes what is left. -/
theorem installStateful_run {o : Option (Result Unit)} (h : p.installStateful.Run tr o) :
    (tr = [] ∧ (o = none ∨ ∃ e, o = some (.error e))) ∨
      ∃ url t r, p.artifactUrl statefulImage = .ok url ∧
        (p.run "" (unpackStateful url)).Run t r ∧
        ((tr = t ∧ (o = none ∨ r = some (.ok ()) ∧ o = some (.ok ()))) ∨
          ∃ e u removed, r = some (.error e) ∧ tr = t ++ u ∧
            p.revertInstallStateful.Run u removed ∧
            (o = none ∨ removed.isSome ∧ o = some (.error e))) := by
  unfold installStateful at h
  cases hu : p.artifactUrl statefulImage with
  | error e =>
    rw [hu] at h
    obtain ⟨rfl, ho⟩ := Program.run_pure.1 h
    exact Or.inl ⟨rfl, ho.imp_right fun ho => ⟨_, ho⟩⟩
  | ok url =>
    rw [hu] at h
    refine Or.inr ⟨url, ?_⟩
    obtain ⟨rfl, h₁⟩ | ⟨t, e | ⟨⟨⟩⟩, u, rfl, h₁, h₂⟩ := Program.run_bind.1 h
    · exact ⟨tr, none, rfl, h₁, Or.inl ⟨rfl, Or.inl rfl⟩⟩
    · refine ⟨t, _, rfl, h₁, Or.inr ⟨e, u, ?_⟩⟩
      obtain ⟨rfl, h₃⟩ | ⟨v, removed, w, rfl, h₃, h₄⟩ := Program.run_bind.1 h₂
      · exact ⟨none, rfl, rfl, h₃, Or.inl rfl⟩
      · have hw : w = [] ∧ (o = none ∨ o = some (.error e)) := by
          rcases removed with f | ⟨⟩
          · exact Program.run_pure.1 (Task.run_log_bind.1 h₄)
          · exact Program.run_pure.1 h₄
        obtain ⟨rfl, ho⟩ := hw
        rw [List.append_nil]
        exact ⟨some removed, rfl, rfl, h₃, ho.imp_right fun ho => ⟨rfl, ho⟩⟩
    · obtain ⟨rfl, ho⟩ := Program.run_pure.1 h₂
      rw [List.append_nil]
      exact ⟨t, _, rfl, h₁, Or.inl ⟨rfl, ho.imp_right fun ho => ⟨rfl, ho⟩⟩⟩

/-- A command that is known to work on the image does so once, or not at all. -/
theorem run_staging {command : String} {args : List String} {x : Staging}
    (hx : p.stagingOf (Shell.commandLine command args) = some x) {o : Option (Result Unit)}
    (h : (p.run command args).Run tr o) : p.staging tr <+: [x] := by
  obtain hnone | hone := run_lines h
  · rw [staging_of_lines_eq_nil hnone]
    exact List.nil_prefix
  · exact ⟨[], by rw [staging_of_lines_eq hx hone, List.append_nil]⟩

/-- Once there is a connection, it does. -/
theorem run_staging_held {command : String} {args : List String} {x : Staging}
    (hx : p.stagingOf (Shell.commandLine command args) = some x) (hcur : cur.isSome)
    (ho : Link.Open cur tr) {r : Result Unit} (h : (p.run command args).Run tr (some r)) :
    p.staging tr = [x] := by
  obtain ⟨c, a, rfl, -⟩ := run_run_held hcur ho h
  exact staging_of_lines_eq hx (Link.lines_sent c a)

theorem revertInstallStateful_staging {o : Option (Result Unit)}
    (h : p.revertInstallStateful.Run tr o) : p.staging tr <+: [.removal] := by
  obtain ⟨r, h₁, -⟩ := Program.run_bind_pure.1 h
  exact run_staging stagingOf_cleanUpLine h₁

/-- Once there is a connection, the revert removes what was unpacked. -/
theorem revertInstallStateful_staging_held (hcur : cur.isSome) (ho : Link.Open cur tr)
    {r : Result Unit} (h : p.revertInstallStateful.Run tr (some r)) :
    p.staging tr = [.removal] := by
  obtain ⟨r', h₁, -⟩ := Program.run_bind_pure_some.1 h
  exact run_staging_held stagingOf_cleanUpLine hcur ho h₁

/-- **The command cleans up behind itself.** -/
theorem installStateful_cleanedUp (hcur : cur.isSome) (ho : Link.Open cur tr)
    {o : Option (Result Unit)} (h : p.installStateful.Run tr o) : CleanedUp o (p.staging tr) := by
  obtain ⟨rfl, rfl | ⟨e, rfl⟩⟩ | ⟨url, t, r, hu, hr, hrest⟩ := installStateful_run h
  · exact .cut List.nil_prefix
  · exact .untouched e
  have hline := stagingOf_unpackLine hu
  obtain ⟨rfl, rfl | ⟨rfl, rfl⟩⟩ | ⟨e, u, removed, rfl, rfl, hremoved, hend⟩ := hrest
  · exact .cut ((run_staging hline hr).trans ⟨[.removal], rfl⟩)
  · rw [run_staging_held hline hcur ho hr]
    exact .done _
  · obtain ⟨ht, hu⟩ := Link.open_append.1 ho
    rw [staging_append, run_staging_held hline hcur ht hr]
    rcases hend with rfl | ⟨hsome, rfl⟩
    · exact .cut ((List.prefix_append_right_inj [Staging.unpack]).2
        (revertInstallStateful_staging hremoved))
    · obtain ⟨r, rfl⟩ := Option.isSome_iff_exists.1 hsome
      rw [revertInstallStateful_staging_held (ht.held_isSome hcur) hu hremoved]
      exact .undone e

/-- Whatever becomes of the link, nothing is done twice. -/
theorem installStateful_atMost {o : Option (Result Unit)} (h : p.installStateful.Run tr o) :
    (p.staging tr).Sublist [.unpack, .removal] ∧
      (o = some (.ok ()) → (p.staging tr).Sublist [.unpack]) := by
  obtain ⟨rfl, -⟩ | ⟨url, t, r, hu, hr, hrest⟩ := installStateful_run h
  · exact ⟨List.nil_sublist _, fun _ => List.nil_sublist _⟩
  have ht : (p.staging t).Sublist [.unpack] :=
    (run_staging (stagingOf_unpackLine hu) hr).sublist
  obtain ⟨rfl, -⟩ | ⟨e, u, removed, -, rfl, hremoved, hend⟩ := hrest
  · exact ⟨ht.trans (by decide), fun _ => ht⟩
  · have hu := (revertInstallStateful_staging hremoved).sublist
    refine ⟨staging_append t u ▸ ht.append hu, ?_⟩
    rintro rfl
    obtain hnone | ⟨-, hnone⟩ := hend <;> cases hnone

end Plan

/-! ## The stage -/

namespace Stage

/-- After `t` nothing was done about the image, and an open link has a connection. -/
structure Prepared (p : Plan) (t : List Event) : Prop where
  untouched : p.staging t = []
  held {cur : Option Connection} : Link.Open cur t → (Link.held cur t).isSome

/-- How a run of the stage that comes to `o` goes about the image. -/
inductive Unpacks (p : Plan) (o : Option (Result StageOutcome)) : List Event → Prop
  /-- It does not come that far. -/
  | early {t : List Event} :
    p.staging t = [] → (o = none ∨ ∃ e, o = some (.error e)) → Unpacks p o t
  /-- It is cut short meanwhile, or that fails. -/
  | tried {t u : List Event} {r : Option (Result Unit)} :
    Prepared p t → p.installStateful.Run u r →
    (o = none ∨ ∃ e f, r = some (.error e) ∧ o = some (.error f)) → Unpacks p o (t ++ u)
  /-- The image stays. -/
  | stays {t u v : List Event} :
    Prepared p t → p.installStateful.Run u (some (.ok ())) → p.staging v = [] →
    (o = none ∨ o = some (.ok .completed)) → Unpacks p o (t ++ (u ++ v))
  /-- What follows fails. -/
  | taken {t u v w : List Event} {r : Option (Result Unit)} :
    Prepared p t → p.installStateful.Run u (some (.ok ())) → p.staging v = [] →
    p.revertInstallStateful.Run w r → (o = none ∨ r.isSome ∧ ∃ e, o = some (.error e)) →
    Unpacks p o (t ++ (u ++ (v ++ w)))

/-- The commands before the one that unpacks the image. -/
def beforeStateful (p : Plan) : List Command :=
  .stopSystemDaemons :: if p.request.dlcIds.isEmpty then [] else [.clearDlcArtifacts]

/-- Those after it. -/
def afterStateful (p : Plan) : List Command :=
  if p.request.dlcIds.isEmpty then [] else [.installDlcs]

theorem commands_installStateful :
    installStateful.commands p = beforeStateful p ++ .installStateful :: afterStateful p := by
  simp [commands, beforeStateful, afterStateful]

theorem mem_beforeStateful {c : Command} (h : c ∈ beforeStateful p) :
    c = .stopSystemDaemons ∨ c = .clearDlcArtifacts := by
  unfold beforeStateful at h
  split at h
  · exact Or.inl (List.mem_singleton.1 h)
  · simpa using h

theorem beforeStateful_harmless : ∀ c ∈ beforeStateful p, c.Harmless p := by
  intro c hc
  obtain rfl | rfl := mem_beforeStateful hc <;> rfl

/-- The commands before do nothing about the image, nor do their reverts. -/
theorem beforeStateful_staging {title : String} {o : Option (Result (List Command))}
    (h : (runChain p title (beforeStateful p)).Run tr o) : p.staging tr = [] := by
  refine runChain_trace (P := fun t => p.staging t = []) h rfl ?_ ?_ ?_
  · intro t u ht hu
    rw [staging_append, ht, hu, List.append_nil]
  · intro c hc t o ht
    refine Command.staging_execute ?_ ht
    obtain rfl | rfl := mem_beforeStateful hc <;> simp
  · intro c hc t o ht
    rw [beforeStateful_harmless c hc] at ht
    obtain ⟨rfl, -⟩ := Program.run_pure.1 ht
    rfl

theorem stopSystemDaemons_ok_held (h : p.stopSystemDaemons.Run tr (some (.ok ()))) :
    (Link.held cur tr).isSome := by
  obtain ⟨t, e | ⟨⟩, u, rfl, h₁, h₂⟩ := Program.run_bind_some.1 h
  · cases (Program.run_pure_some.1 h₂).2
  rw [Link.held_append]
  exact run_ok_held (Program.run_within_ok.1 h₂)

/-- Once the daemons are stopped the link has used its connection. -/
theorem beforeStateful_held {ds : List Command} (h : Executed p (beforeStateful p) tr ds)
    (ho : Link.Open cur tr) : (Link.held cur tr).isSome := by
  cases h with
  | @cons _ _ _ _ t u hstop hrest =>
  obtain ⟨-, ⟨⟩, hstop⟩ := Command.kept_run.1 hstop
  rw [Link.held_append]
  exact (Link.open_append.1 ho).2.held_isSome
    (stopSystemDaemons_ok_held (Procedure.run_procedure.1 hstop))

/-- What follows the command, where only that is to be undone. -/
theorem afterStateful_run {title : String} {executed : List Command}
    {r : Option (Result (List Command))} (hexecuted : ∀ d ∈ executed, d.Harmless p)
    (h : (runChainAfter p title (.installStateful :: executed) (afterStateful p)).Run tr r) :
    (p.staging tr = [] ∧ (r = none ∨ ∃ ds, r = some (.ok ds))) ∨
      ∃ t u removed, tr = t ++ u ∧ p.staging t = [] ∧ p.revertInstallStateful.Run u removed ∧
        (r = none ∨ removed.isSome ∧ ∃ e, r = some (.error e)) := by
  unfold afterStateful at h
  split at h
  · obtain ⟨rfl, hr⟩ := Program.run_pure.1 h
    exact Or.inl ⟨rfl, hr.imp_right fun hr => ⟨_, hr⟩⟩
  rw [runChainAfter] at h
  obtain ⟨rfl, h₁⟩ | ⟨t, e | d, u, rfl, h₁, h₂⟩ := Program.run_bind.1 h
  · exact Or.inl ⟨Command.staging_execute (by simp) h₁, Or.inl rfl⟩
  · have ht : p.staging t = [] := Command.staging_execute (by simp) h₁
    obtain ⟨reason, h₃, rfl⟩ := Program.run_bind_pure.1 h₂
    obtain ⟨removed, h₄, hend⟩ := rollback_latest hexecuted h₃
    refine Or.inr ⟨t, u, removed, rfl, ht, Procedure.run_procedure.1 h₄, ?_⟩
    rcases reason with _ | reason
    · exact Or.inl rfl
    · exact Or.inr ⟨hend.resolve_left (by simp), reason, rfl⟩
  · obtain ⟨rfl, hr⟩ := Program.run_pure.1 h₂
    rw [List.append_nil]
    exact Or.inl ⟨Command.staging_execute (by simp) h₁, hr.imp_right fun hr => ⟨_, hr⟩⟩

theorem installStateful_unpacks {o : Option (Result StageOutcome)}
    (h : (installStateful.execute p).Run tr o) : Unpacks p o tr := by
  obtain ⟨r, hchain, rfl⟩ := (execute_run (by decide)).1 h
  rw [runCommands, commands_installStateful, runChain, runChainAfter_append] at hchain
  obtain ⟨rfl, hbefore⟩ | ⟨e, hbefore, hr⟩ | ⟨t, ds, u, rfl, hbefore, hrest⟩ :=
    Procedure.run_andThen.1 hchain
  · exact .early (beforeStateful_staging hbefore) (Or.inl rfl)
  · refine .early (beforeStateful_staging hbefore) ?_
    rcases hr with rfl | rfl
    · exact Or.inl rfl
    · exact Or.inr ⟨e, rfl⟩
  have hexecuted := runChain_ok.1 hbefore
  have hprepared : Prepared p t := ⟨beforeStateful_staging hbefore, beforeStateful_held hexecuted⟩
  have hharmless : ∀ d ∈ ds.reverse, d.Harmless p := fun d hd =>
    hexecuted.harmless beforeStateful_harmless d (List.mem_reverse.1 hd)
  rw [runChainAfter] at hrest
  obtain ⟨rfl, h₁⟩ | ⟨v, e | d, w, rfl, h₁, h₂⟩ := Program.run_bind.1 hrest
  · obtain ⟨r, h₃, -⟩ := Program.run_bind_pure.1 h₁
    exact .tried hprepared (Procedure.run_procedure.1 h₃) (Or.inl rfl)
  · obtain ⟨rfl, hr⟩ := (rollback_harmless hharmless).1 h₂
    obtain ⟨f | ⟨⟨⟩⟩, h₃, hf⟩ := Program.run_bind_pure_some.1 h₁
    · rw [List.append_nil]
      refine .tried hprepared (Procedure.run_procedure.1 h₃) ?_
      rcases hr with rfl | rfl
      · exact Or.inl rfl
      · exact Or.inr ⟨f, _, rfl, rfl⟩
    · cases hf
  · obtain ⟨rfl, ⟨⟩, h₃⟩ := Command.kept_run.1 h₁
    have hdone := Procedure.run_procedure.1 h₃
    obtain ⟨hw, hr⟩ | ⟨x, y, removed, rfl, hx, hremoved, hr⟩ := afterStateful_run hharmless h₂
    · refine .stays hprepared hdone hw ?_
      rcases hr with rfl | ⟨ds, rfl⟩
      · exact Or.inl rfl
      · exact Or.inr rfl
    · refine .taken hprepared hdone hx hremoved ?_
      rcases hr with rfl | ⟨hsome, e, rfl⟩
      · exact Or.inl rfl
      · exact Or.inr ⟨hsome, e, rfl⟩

/-- Whatever becomes of the link, the image is unpacked once at most and removed once at most. -/
theorem Unpacks.atMost {o : Option (Result StageOutcome)} (h : Unpacks p o tr) :
    (p.staging tr).Sublist [.unpack, .removal] ∧
      ∀ outcome, o = some (.ok outcome) → .removal ∉ p.staging tr := by
  have hkept : ∀ {s : List Staging}, s.Sublist [.unpack] → .removal ∉ s := fun hs hmem =>
    absurd (hs.subset hmem) (by decide)
  cases h with
  | early ht ho =>
    rw [ht]
    exact ⟨List.nil_sublist _, fun _ _ => List.not_mem_nil⟩
  | @tried t u r ht hrun ho =>
    rw [staging_append, ht.untouched, List.nil_append]
    refine ⟨(installStateful_atMost hrun).1, fun outcome hout => ?_⟩
    obtain hnone | ⟨e, f, -, hsome⟩ := ho
    · cases hnone.symm.trans hout
    · cases hsome.symm.trans hout
  | @stays t u v ht hrun hv ho =>
    rw [staging_append, staging_append, ht.untouched, hv, List.nil_append, List.append_nil]
    have hu := (installStateful_atMost hrun).2 rfl
    exact ⟨hu.trans (by decide), fun _ _ => hkept hu⟩
  | @taken t u v w r ht hrun hv hremoved ho =>
    rw [staging_append, staging_append, staging_append, ht.untouched, hv, List.nil_append,
      List.nil_append]
    constructor
    · exact ((installStateful_atMost hrun).2 rfl).append
        (revertInstallStateful_staging hremoved).sublist
    · intro outcome hout
      obtain hnone | ⟨-, e, hsome⟩ := ho
      · cases hnone.symm.trans hout
      · cases hsome.symm.trans hout

theorem Unpacks.cleanedUp {o : Option (Result StageOutcome)} (h : Unpacks p o tr)
    (ho : Link.Open cur tr) : CleanedUp o (p.staging tr) := by
  cases h with
  | early ht hend =>
    rw [ht]
    obtain rfl | ⟨e, rfl⟩ := hend
    · exact .cut List.nil_prefix
    · exact .untouched e
  | @tried t u r ht hrun hend =>
    obtain ⟨hot, hou⟩ := Link.open_append.1 ho
    rw [staging_append, ht.untouched, List.nil_append]
    have hdone := installStateful_cleanedUp (ht.held hot) hou hrun
    obtain rfl | ⟨e, f, rfl, rfl⟩ := hend
    · exact hdone.toNone
    · exact hdone.failed f
  | @stays t u v ht hrun hv hend =>
    obtain ⟨hot, hou⟩ := Link.open_append.1 ho
    rw [staging_append, staging_append, ht.untouched, hv, List.nil_append, List.append_nil]
    have hdone := installStateful_cleanedUp (ht.held hot) (Link.open_append.1 hou).1 hrun
    obtain rfl | rfl := hend
    · exact hdone.toNone
    · rw [hdone.eq_of_ok]
      exact .done _
  | @taken t u v w r ht hrun hv hremoved hend =>
    obtain ⟨hot, hrest⟩ := Link.open_append.1 ho
    obtain ⟨hou, hrest⟩ := Link.open_append.1 hrest
    obtain ⟨hov, how⟩ := Link.open_append.1 hrest
    have hcur := ht.held hot
    have hdone : p.staging u = [.unpack] := (installStateful_cleanedUp hcur hou hrun).eq_of_ok
    rw [staging_append, staging_append, staging_append, ht.untouched, hv, hdone, List.nil_append,
      List.nil_append]
    obtain rfl | ⟨hsome, e, rfl⟩ := hend
    · exact .cut ((List.prefix_append_right_inj [Staging.unpack]).2
        (revertInstallStateful_staging hremoved))
    · obtain ⟨r, rfl⟩ := Option.isSome_iff_exists.1 hsome
      rw [revertInstallStateful_staging_held (hov.held_isSome (hou.held_isSome hcur)) how hremoved]
      exact .undone e

/-- **What was unpacked in vain is removed, once.** Whatever becomes of the link, a run of the stage
    unpacks the image once at most and removes it once at most, and not before; where it succeeds,
    it removes nothing. Where nobody closes the link (`Link.Calls.Runs.open_own`), it has removed
    the image if it fails after the unpacking was handed in, and has not if it fails before. -/
theorem installStateful_staging (p : Plan) (tr : List Event) (o : Option (Result StageOutcome))
    (h : (installStateful.execute p).Run tr o) :
    (p.staging tr).Sublist [.unpack, .removal] ∧
      (∀ outcome, o = some (.ok outcome) → .removal ∉ p.staging tr) ∧
      ∀ cur, Link.Open cur tr → CleanedUp o (p.staging tr) :=
  have hunpacks := installStateful_unpacks h
  ⟨hunpacks.atMost.1, hunpacks.atMost.2, fun _ => hunpacks.cleanedUp⟩

/-- A device that fails to tell whether it has the package. -/
def hidesPackage : Answers String
  | .run c line stdin mode, root =>
    if line = checkLine "termina" .b then some (.ok { status := 1 }, root)
    else obeys (.run c line stdin mode) root
  | q, root => obeys q root

/-- The image was unpacked before that. -/
theorem installStateful_staging_hidesPackage : ∃ tr e,
    (installStateful.execute samplePlan).Run tr (some (.error e)) ∧ Link.Open none tr ∧
      samplePlan.staging tr = [.unpack, .removal] := by
  let known : Option Layout × String := (some (.ofSlot .a "/dev/sda3" "/dev/sda"), "/dev/sda3")
  let played := (installStateful.execute samplePlan).play hidesPackage known
  have hplayed : (installStateful.execute samplePlan).Run played.1 played.2.2 :=
    (installStateful.execute samplePlan).run_play known
  have hopen : Link.Open none played.1 := by decide +kernel
  have hfails : played.2.2.map Except.isOk = some false := by decide +kernel
  have hunpacked : .unpack ∈ samplePlan.staging played.1 := by decide +kernel
  obtain ⟨e | outcome, hresult, hfailed⟩ := Option.map_eq_some_iff.1 hfails
  · have hrun : (installStateful.execute samplePlan).Run played.1 (some (.error e)) :=
      hresult ▸ hplayed
    refine ⟨played.1, e, hrun, hopen, ?_⟩
    have hclean := (installStateful_staging samplePlan _ _ hrun).2.2 none hopen
    generalize samplePlan.staging played.1 = staging at hclean hunpacked ⊢
    cases hclean with
    | untouched => cases hunpacked
    | undone => rfl
  · cases hfailed

end Stage

end

end Reimage
