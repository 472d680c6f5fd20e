/-
  Trees of files.

  * `FileTree.find?_insert`, `FileTree.contentsOf_refill`: what is at a location after a node was put
    somewhere, and what is in a file after one was filled;
  * `FileTree.walk_cons_eq_ok_iff`, `FileTree.walk_induct`: the first name of a path, and one name
    after the other;
  * `FileTree.walk_of_samePaths`: where names lead to depends on the directories and the links alone;
  * `FileTree.node_ne_link`: no path leads to a link;
  * `FileTree.update_eq_ok`: what becomes of a tree when a file is changed;
  * `FileTree.read_of_write`: what is written to a file is read from it.
-/
import Mathlib.Data.List.Basic
import Reimage.Proofs.Path
import Reimage.Simulation.FileTree

namespace Reimage.Simulation.FileTree

variable {t t' : FileTree} {location place l : Location} {node : Node} {number links : Nat}
  {name path directory target : String} {data bytes : List UInt8}

/-! ## Nodes and contents -/

theorem lookup_put {κ α : Type} [DecidableEq κ] [BEq κ] [LawfulBEq κ] (key : κ) (value : α)
    (entries : List (κ × α)) (other : κ) : (put key value entries).lookup other =
      if other = key then some value else entries.lookup other := by
  have hcons (k : κ) (v : α) (rest : List (κ × α)) :
      List.lookup other ((k, v) :: rest) = if other = k then some v else rest.lookup other := by
    by_cases h : other = k
    · simp [h]
    · rw [List.lookup_cons, beq_eq_false_iff_ne.2 h, if_neg h]
  induction entries with
  | nil => exact hcons key value []
  | cons e entries ih =>
    obtain ⟨k, v⟩ := e
    rw [put]
    split
    · rename_i hk
      simp only at hk
      subst hk
      rw [hcons, hcons]
      split <;> rfl
    · rename_i hk
      rw [hcons, hcons, ih]
      split
      · rename_i h
        rw [if_neg (fun h' => hk (h.symm.trans h'))]
      · rfl

/-- What is at a location after a node was put somewhere below the root. -/
theorem find?_insert (h : location ≠ []) (other : Location) : (t.insert location node).find? other =
    if other = location then some node else t.find? other := by
  by_cases hroot : other = []
  · subst hroot
    rw [if_neg (Ne.symm h)]
    rfl
  · simp only [find?, insert, lookup_put, List.isEmpty_iff, hroot, if_false]

/-- What is in a file after one was filled. -/
theorem contentsOf_refill (number : Nat) (bytes : List UInt8) (other : Nat) :
    (t.refill number bytes).contentsOf other =
      if other = number then bytes else t.contentsOf other := by
  rw [contentsOf, refill, lookup_put]
  split <;> rfl

theorem find?_refill (number : Nat) (bytes : List UInt8) (l : Location) :
    (t.refill number bytes).find? l = t.find? l := rfl

theorem mem_of_find? (h : t.find? l = some node) (hroot : l ≠ []) : (l, node) ∈ t.nodes := by
  rw [find?, if_neg (by simpa using hroot)] at h
  obtain ⟨before, after, hnodes, -⟩ := List.lookup_eq_some_iff.1 h
  rw [hnodes]
  simp

/-- A fresh number is no file's. -/
theorem lt_fresh (h : t.find? l = some (.file number)) : number < t.fresh := by
  have hroot : l ≠ [] := by
    rintro rfl
    cases h
  have hmem := mem_of_find? h hroot
  rw [fresh]
  generalize t.nodes = nodes at hmem ⊢
  induction nodes with
  | nil => cases hmem
  | cons e nodes ih =>
    rw [List.foldr_cons]
    rcases List.mem_cons.1 hmem with rfl | hmem
    · exact Nat.lt_of_lt_of_le (Nat.lt_succ_self number) (Nat.le_max_left _ _)
    · have hlt := ih hmem
      split
      · exact Nat.lt_of_lt_of_le hlt (Nat.le_max_right _ _)
      · exact hlt

/-! ## Where paths lead to -/

theorem follow_eq_ok_iff {l : Location} : t.follow location name = .ok l ↔
    t.find? location = some .directory ∧ name.utf8ByteSize ≤ nameLimit ∧
      l = Path.enter location name := by
  rw [follow]
  cases h : t.find? location with
  | none => simp
  | some n =>
    cases n with
    | directory =>
      by_cases hlimit : nameLimit < name.utf8ByteSize
      · simp [hlimit, Nat.not_le.2 hlimit]
      · simp only [hlimit, if_false, Path.enter, true_and, Nat.not_lt.1 hlimit]
        split
        · simp [eq_comm]
        · split <;> simp [eq_comm]
    | file | sink | link => simp

theorem walk_nil (links : Nat) (location : Location) : t.walk links location [] = .ok location := by
  cases links <;> rfl

theorem walk_cons (rest : List String) : t.walk links location (name :: rest) =
    t.follow location name >>= fun next =>
      match t.find? next with
      | some (.link target) =>
        match links with
        | 0 => .error .tooManyLinks
        | fewer + 1 => t.walk fewer (start location target) (steps target ++ rest)
      | _ => t.walk links next rest := by
  cases links <;> rfl

/-- The first name leads to a link, which is followed if that is allowed, or to something else. -/
theorem walk_cons_eq_ok_iff {rest : List String} :
    t.walk links location (name :: rest) = .ok place ↔ ∃ next, t.follow location name = .ok next ∧
      ((∃ target fewer, t.find? next = some (.link target) ∧ links = fewer + 1 ∧
          t.walk fewer (start location target) (steps target ++ rest) = .ok place) ∨
        (∀ target, t.find? next ≠ some (.link target)) ∧ t.walk links next rest = .ok place) := by
  rw [walk_cons]
  cases t.follow location name with
  | error e => exact iff_of_false nofun (fun ⟨_, h, _⟩ => nomatch h)
  | ok next =>
    simp only [bind, Except.bind, Except.ok.injEq, exists_eq_left']
    split
    next target hnext => cases links <;> simp [hnext]
    next hnext =>
      refine ⟨fun h => Or.inr ⟨hnext, h⟩, ?_⟩
      rintro (⟨target, -, hlink, -⟩ | ⟨-, h⟩)
      · exact absurd hlink (hnext target)
      · exact h

/-- What holds of every walk: it holds if no names are left, and if it holds of what is left after the
    first name and of all walks through fewer links. -/
theorem walk_induct {motive : Nat → Location → List String → Prop}
    (nil : ∀ links location, motive links location [])
    (cons : ∀ links location name rest, (∀ next, motive links next rest) →
      (∀ fewer, links = fewer + 1 → ∀ location names, motive fewer location names) →
      motive links location (name :: rest)) (links : Nat) (location : Location)
    (names : List String) : motive links location names := by
  induction links generalizing location names with
  | zero =>
    induction names generalizing location with
    | nil => exact nil _ _
    | cons name rest ih => exact cons _ _ _ _ ih nofun
  | succ fewer hfewer =>
    induction names generalizing location with
    | nil => exact nil _ _
    | cons name rest ih =>
      refine cons _ _ _ _ ih fun n hn => ?_
      cases hn
      exact hfewer

/-- Two trees with the same directories and the same links. -/
structure SamePaths (t t' : FileTree) : Prop where
  directory_iff (l : Location) : t'.find? l = some .directory ↔ t.find? l = some .directory
  link_iff (l : Location) (target : String) :
    t'.find? l = some (.link target) ↔ t.find? l = some (.link target)
  workingDirectory : t'.workingDirectory = t.workingDirectory

/-- Where names lead to depends on the directories and the links alone. -/
theorem walk_of_samePaths (h : SamePaths t t') {names : List String} :
    t'.walk links location names = .ok place ↔ t.walk links location names = .ok place := by
  induction links, location, names using walk_induct with
  | nil links location => rw [walk_nil, walk_nil]
  | cons links location name rest hrest hfewer =>
    rw [walk_cons_eq_ok_iff, walk_cons_eq_ok_iff]
    refine exists_congr fun next => and_congr ?_ (or_congr ?_ (and_congr ?_ (hrest next)))
    · rw [follow_eq_ok_iff, follow_eq_ok_iff, h.directory_iff]
    · refine exists_congr fun target => exists_congr fun fewer =>
        and_congr (h.link_iff _ _) (and_congr_right fun hlinks => ?_)
      exact hfewer fewer hlinks _ _
    · simp only [ne_eq, h.link_iff]

/-- So does whether a path can be followed. -/
theorem locate_of_samePaths (h : SamePaths t t') :
    t'.locate path = .ok place ↔ t.locate path = .ok place := by
  rw [locate, locate, locateWith, locateWith, h.workingDirectory]
  by_cases hnul : path.toList.contains '\x00' = true
  · simp only [hnul, if_true, reduceCtorEq]
  by_cases hempty : path.isEmpty = true
  · simp only [hnul, hempty, if_true, if_false, reduceCtorEq]
  by_cases hlong : pathLimit < path.utf8ByteSize
  · simp only [hnul, hempty, hlong, if_true, if_false, reduceCtorEq]
  simp only [hnul, hempty, hlong, if_false]
  exact walk_of_samePaths h

/-- A walk is a walk to any of its names, and from there on through the links that are left. -/
theorem exists_walk_of_append {names more : List String}
    (h : t.walk links location (names ++ more) = .ok place) : ∃ between left,
      t.walk links location names = .ok between ∧ t.walk left between more = .ok place := by
  induction links, location, names using walk_induct with
  | nil links location => exact ⟨location, links, walk_nil _ _, h⟩
  | cons links location name rest hrest hfewer =>
    rw [List.cons_append, walk_cons_eq_ok_iff] at h
    obtain ⟨next, hnext, ⟨target, fewer, hlink, rfl, h⟩ | ⟨hlink, h⟩⟩ := h
    · rw [← List.append_assoc] at h
      obtain ⟨between, left, hbetween, hleft⟩ := hfewer fewer rfl _ _ h
      refine ⟨between, left, walk_cons_eq_ok_iff.2 ⟨next, hnext, Or.inl ?_⟩, hleft⟩
      exact ⟨target, fewer, hlink, rfl, hbetween⟩
    · obtain ⟨between, left, hbetween, hleft⟩ := hrest next h
      exact ⟨between, left, walk_cons_eq_ok_iff.2 ⟨next, hnext, Or.inr ⟨hlink, hbetween⟩⟩, hleft⟩

/-- Where the names of a path lead to. -/
def reach (t : FileTree) (path : String) : Except SystemError Location :=
  t.walk linkLimit (start t.workingDirectory path) (names path)

theorem reach_of_samePaths (h : SamePaths t t') :
    t'.reach path = .ok place ↔ t.reach path = .ok place := by
  rw [reach, reach, h.workingDirectory]
  exact walk_of_samePaths h

/-- A path that can be followed leads to where its steps lead. -/
theorem walk_of_locate (h : t.locate path = .ok place) :
    t.walk linkLimit (start t.workingDirectory path) (steps path) = .ok place := by
  rw [locate, locateWith] at h
  split at h
  · cases h
  · split at h
    · cases h
    · split at h
      · cases h
      · exact h

/-- Without a slash at its end it leads to where its names lead. -/
theorem reach_of_locate (hend : Path.endsInSlash path = false) (h : t.locate path = .ok place) :
    t.reach path = .ok place := by
  have hwalk := walk_of_locate h
  rwa [steps, hend, if_neg Bool.false_ne_true, List.append_nil] at hwalk

/-- No walk ends at a link, unless it starts there. -/
theorem not_link_of_walk {names : List String} (h : t.walk links location names = .ok place)
    (hlocation : t.find? location ≠ some (.link target)) : t.find? place ≠ some (.link target) := by
  induction links, location, names using walk_induct with
  | nil links location =>
    rw [walk_nil] at h
    exact Except.ok.inj h ▸ hlocation
  | cons links location name rest hrest hfewer =>
    obtain ⟨next, hnext, ⟨_, fewer, -, hlinks, hleft⟩ | ⟨hlink, hleft⟩⟩ := walk_cons_eq_ok_iff.1 h
    · -- A link is followed from the root or from the directory that it is in.
      refine hfewer fewer hlinks _ _ hleft ?_
      rw [start]
      split
      · nofun
      · simp [(follow_eq_ok_iff.1 hnext).1]
    · exact hrest next hleft (hlink target)

/-- **No path leads to a link**: where there is one, the path goes on. -/
theorem node_ne_link (h : t.find? t.workingDirectory ≠ some (.link target)) :
    t.node path ≠ .ok (.link target) := by
  intro hnode
  cases hlocate : t.locate path with
  | error e =>
    rw [FileTree.node, hlocate] at hnode
    cases hnode
  | ok location =>
    have hwalk : t.walk linkLimit (start t.workingDirectory path) (steps path) = .ok location :=
      walk_of_locate hlocate
    have hstart : t.find? (start t.workingDirectory path) ≠ some (.link target) := by
      rw [start]
      split
      · nofun
      · exact h
    simp only [FileTree.node, hlocate, bind, Except.bind] at hnode
    split at hnode
    next => cases hnode
    next node hfind => exact not_link_of_walk hwalk hstart (Except.ok.inj hnode ▸ hfind)

/-! ## Changes of files -/

/-- A file that is changed was not there, and is made; or it gets other bytes, wherever it is; or it
    is a device that takes everything. -/
theorem update_eq_ok {change : List UInt8 → List UInt8} (h : t.update path change = .ok t') :
    Path.endsInSlash path = false ∧ ∃ location, t.locate path = .ok location ∧
      (t.find? location = none ∧ t' = t.insertFile location (change []) ∨
        (∃ number, t.find? location = some (.file number) ∧
          t' = t.refill number (change (t.contentsOf number))) ∨
        t.find? location = some .sink ∧ t' = t) := by
  rw [update] at h
  split at h
  next =>
    cases habove : t.locateAbove path <;> rw [habove] at h <;> cases h
  next hend =>
    cases hlocate : t.locate path with
    | error e =>
      rw [hlocate] at h
      cases h
    | ok location =>
      refine ⟨by simpa using hend, location, rfl, ?_⟩
      simp only [hlocate, bind, Except.bind] at h
      cases hnode : t.find? location with
      | none =>
        rw [hnode] at h
        exact Or.inl ⟨rfl, (Except.ok.inj h).symm⟩
      | some node =>
        rw [hnode] at h
        cases node with
        | directory | link => cases h
        | file number => exact Or.inr (Or.inl ⟨number, rfl, (Except.ok.inj h).symm⟩)
        | sink => exact Or.inr (Or.inr ⟨rfl, (Except.ok.inj h).symm⟩)

theorem find?_insertFile (h : t.find? location = none) (l : Location) :
    (t.insertFile location bytes).find? l =
      if l = location then some (.file t.fresh) else t.find? l := by
  have hroot : location ≠ [] := by
    rintro rfl
    cases h
  exact find?_insert hroot l

theorem contentsOf_insertFile (location : Location) (bytes : List UInt8) (number : Nat) :
    (t.insertFile location bytes).contentsOf number =
      if number = t.fresh then bytes else t.contentsOf number :=
  contentsOf_refill t.fresh bytes number

/-- A file where nothing was makes no directory and no link, and removes none. -/
theorem samePaths_insertFile (h : t.find? location = none) :
    SamePaths t (t.insertFile location bytes) where
  directory_iff l := by
    rw [find?_insertFile h]
    split
    next hl => simp [hl, h]
    next => exact Iff.rfl
  link_iff l target := by
    rw [find?_insertFile h]
    split
    next hl => simp [hl, h]
    next => exact Iff.rfl
  workingDirectory := rfl

theorem samePaths_refill (number : Nat) (bytes : List UInt8) :
    SamePaths t (t.refill number bytes) := ⟨fun _ => Iff.rfl, fun _ _ => Iff.rfl, rfl⟩

theorem SamePaths.refl (t : FileTree) : SamePaths t t := ⟨fun _ => Iff.rfl, fun _ _ => Iff.rfl, rfl⟩

/-- A change of a file makes no directory and no link, and removes none. -/
theorem samePaths_of_update {change : List UInt8 → List UInt8} (h : t.update path change = .ok t') :
    SamePaths t t' := by
  obtain ⟨-, location, -, ⟨hnone, rfl⟩ | ⟨number, -, rfl⟩ | ⟨-, rfl⟩⟩ := update_eq_ok h
  · exact samePaths_insertFile hnone
  · exact samePaths_refill _ _
  · exact .refl _

/-- **What is written to a file is read from it**, through whatever links the path leads. -/
theorem read_of_write (h : t.write path data = .ok t') (hsink : t'.node path ≠ .ok .sink) :
    t'.read path = .ok data := by
  obtain ⟨-, location, hlocate, hcases⟩ := update_eq_ok h
  have hthere : t'.locate path = .ok location :=
    (locate_of_samePaths (samePaths_of_update h)).2 hlocate
  have hread (number : Nat) (hfile : t'.find? location = some (.file number))
      (hcontents : t'.contentsOf number = data) : t'.read path = .ok data := by
    simp only [read, FileTree.node, hthere, bind, Except.bind, hfile, hcontents]
  obtain ⟨hnone, rfl⟩ | ⟨number, hfile, rfl⟩ | ⟨hnode, rfl⟩ := hcases
  · exact hread _ (by rw [find?_insertFile hnone, if_pos rfl])
      (by rw [contentsOf_insertFile, if_pos rfl])
  · exact hread number hfile (by rw [contentsOf_refill, if_pos rfl])
  · exact absurd (by simp only [FileTree.node, hlocate, bind, Except.bind, hnode]) hsink

end Reimage.Simulation.FileTree
