/-
  What a path leads to.

  A path is followed from the root: a name goes down, `..` goes up again, and the root has no
  directory above it. What is reached is told by the names on the way there.

  * `Path.components_append`: a slash between two texts keeps their components apart;
  * `Path.parts_join`: names that are joined by slashes are read back;
  * `Path.enter_inj`: different names are different steps;
  * `Path.target_name`: what stands after a slash is one step, if it has no slash itself;
  * `Path.Covers`: a pattern covers what a path leads to, where `*` stands for any one name.
-/
import Mathlib.Data.List.Basic
import Mathlib.Data.List.DropRight
import Reimage.Path

namespace Reimage

/-! ## Components -/

namespace Text

theorem splitChars_eq_splitOn (sep : Char) (s : List Char) :
    splitChars sep s = s.splitOn sep := by
  induction s with
  | nil => simp [splitChars]
  | cons c s ih =>
    rw [splitChars, ih]
    simp only [List.splitOn, List.splitOnP_cons_eq_if_modifyHead, beq_iff_eq]
    split
    · rfl
    · obtain ⟨part, parts, h⟩ := List.exists_cons_of_ne_nil (List.splitOnP_ne_nil (· == sep) s)
      rw [h, List.modifyHead_cons]

/-- No part has the character that was cut at. -/
theorem notMem_of_mem_splitChars {sep : Char} {s part : List Char}
    (h : part ∈ splitChars sep s) : sep ∉ part := by
  induction s generalizing part with
  | nil =>
    rw [splitChars, List.mem_singleton] at h
    simp [h]
  | cons c s ih =>
    rw [splitChars] at h
    split at h
    · rcases List.mem_cons.1 h with rfl | hpart
      · exact List.not_mem_nil
      · exact ih hpart
    · rename_i hne
      split at h
      · rw [List.mem_singleton.1 h, List.mem_singleton]
        exact Ne.symm hne
      · rename_i first parts hparts
        rw [hparts] at ih
        rcases List.mem_cons.1 h with rfl | hpart
        · rw [List.mem_cons, not_or]
          exact ⟨Ne.symm hne, ih (List.mem_cons_self ..)⟩
        · exact ih (List.mem_cons_of_mem _ hpart)

/-- What is joined is cut again where it was joined. -/
theorem split_join {names : List String} (h : ∀ name ∈ names, '/' ∉ name.toList)
    (hne : names ≠ []) : split '/' (join "/" names) = names := by
  have hlist : (join "/" names).toList = ['/'].intercalate (names.map String.toList) :=
    String.toList_intercalate
  have hslash : ∀ part ∈ names.map String.toList, '/' ∉ part := by
    intro part hpart
    obtain ⟨name, hname, rfl⟩ := List.mem_map.1 hpart
    exact h name hname
  rw [split, hlist, splitChars_eq_splitOn, List.splitOn_intercalate '/' hslash (by simpa using hne)]
  simp

theorem toList_trimEndChar (c : Char) (s : String) :
    (trimEndChar c s).toList = s.toList.rdropWhile (· == c) := by
  simp [trimEndChar, dropEndWhile, List.rdropWhile]

end Text

/-- A slash between two texts keeps their components apart. -/
theorem Path.components_append (s t : List Char) :
    components (s ++ '/' :: t) = components s ++ components t := by
  simp only [components, Text.splitChars_eq_splitOn, List.splitOn]
  rw [List.splitOnP_append_cons (p := (· == '/')) s t rfl, List.filter_append]

namespace Path

/-- A text without a slash is a single component. -/
theorem components_of_notMem {s : List Char} (h : '/' ∉ s) :
    components s = if s = [] ∨ s = ['.'] then [] else [s] := by
  have hsplit : s.splitOn '/' = [s] := by
    refine List.splitOnP_eq_singleton fun c hc => ?_
    rw [beq_eq_false_iff_ne]
    rintro rfl
    exact h hc
  rw [components, Text.splitChars_eq_splitOn, hsplit]
  split
  · rename_i hs
    rcases hs with rfl | rfl <;> rfl
  · rename_i hs
    simpa [not_or] using hs

theorem parts_slash (s t : String) : parts (s ++ "/" ++ t) = parts s ++ parts t := by
  have hlist : (s ++ "/" ++ t).toList = s.toList ++ '/' :: t.toList := by simp
  rw [parts, hlist, components_append, List.map_append, parts, parts]

/-- The components are the parts between slashes, those left out that mean nothing. -/
theorem parts_eq_filter (path : String) :
    parts path = (Text.split '/' path).filter fun part => part != "" && part != "." := by
  rw [parts, components, Text.split, List.filter_map]
  congr 1
  refine List.filter_congr fun part _ => ?_
  have hempty : (String.ofList part == "") = part.isEmpty := by
    cases part <;> simp [← String.toList_inj]
  have hdot : (String.ofList part == ".") = (part == ['.']) := by
    rw [Bool.eq_iff_iff]
    simp [← String.toList_inj]
  simp [bne, hempty, hdot]

/-! ## Names -/

/-- A name is a component of a path. -/
structure IsName (name : String) : Prop where
  ne_empty : name ≠ ""
  ne_dot : name ≠ "."
  slash_notMem : '/' ∉ name.toList

theorem isName_of_mem_parts {path name : String} (h : name ∈ parts path) : IsName name := by
  have hslash : '/' ∉ name.toList := by
    obtain ⟨part, hpart, rfl⟩ := List.mem_map.1 h
    rw [String.toList_ofList]
    exact Text.notMem_of_mem_splitChars (List.mem_filter.1 hpart).1
  rw [parts_eq_filter, List.mem_filter] at h
  simp only [Bool.and_eq_true, bne_iff_ne] at h
  exact ⟨h.2.1, h.2.2, hslash⟩

/-- **Names that are joined are read back.** -/
theorem parts_join {names : List String} (h : ∀ name ∈ names, IsName name) :
    parts (Text.join "/" names) = names := by
  by_cases hne : names = []
  · subst hne
    rfl
  rw [parts_eq_filter, Text.split_join (fun name hname => (h name hname).slash_notMem) hne]
  refine List.filter_eq_self.2 fun name hname => ?_
  simp [(h name hname).ne_empty, (h name hname).ne_dot]

/-! ## Slashes at the end -/

theorem components_append_slashes {s slashes : List Char} (h : ∀ c ∈ slashes, c = '/') :
    components (s ++ slashes) = components s := by
  induction slashes generalizing s with
  | nil => rw [List.append_nil]
  | cons c slashes ih =>
    obtain ⟨rfl, hrest⟩ := List.forall_mem_cons.1 h
    have hnone : components slashes = [] := ih (s := []) hrest
    rw [components_append, hnone, List.append_nil]

/-- Slashes at the end of a path mean nothing. -/
theorem parts_trimEnd (s : String) : parts (Text.trimEndChar '/' s) = parts s := by
  have hsplit : s.toList = s.toList.rdropWhile (· == '/') ++ s.toList.rtakeWhile (· == '/') :=
    (List.rdropWhile_append_rtakeWhile).symm
  have hslashes : ∀ c ∈ s.toList.rtakeWhile (· == '/'), c = '/' := by
    intro c hc
    simpa using List.mem_rtakeWhile_imp hc
  rw [parts, parts, Text.toList_trimEndChar]
  conv_rhs => rw [hsplit, components_append_slashes hslashes]

/-! ## Following a path -/

/-- One step from a directory. -/
def enter (dir : List String) (name : String) : List String :=
  if name = "." then dir else if name = ".." then dir.dropLast else dir ++ [name]

variable {dir : List String} {name name' : String}

@[simp] theorem enter_dot : enter dir "." = dir := rfl

@[simp] theorem enter_dots : enter dir ".." = dir.dropLast := rfl

theorem enter_of_ne (h : name ≠ ".") (h' : name ≠ "..") : enter dir name = dir ++ [name] := by
  rw [enter, if_neg h, if_neg h']

/-- A step goes down, unless it stays or goes up. -/
theorem enter_cases (dir : List String) (name : String) :
    (name = "." ∧ enter dir name = dir) ∨ (name = ".." ∧ enter dir name = dir.dropLast) ∨
      (name ≠ "." ∧ name ≠ ".." ∧ enter dir name = dir ++ [name]) := by
  by_cases hdot : name = "."
  · exact Or.inl ⟨hdot, by rw [hdot, enter_dot]⟩
  by_cases hdots : name = ".."
  · exact Or.inr (Or.inl ⟨hdots, by rw [hdots, enter_dots]⟩)
  · exact Or.inr (Or.inr ⟨hdot, hdots, enter_of_ne hdot hdots⟩)

/-- Different names are different steps, except at the root, which has no directory above. -/
theorem enter_inj (hdir : dir ≠ []) : enter dir name = enter dir name' ↔ name = name' := by
  refine ⟨fun h => ?_, fun h => by rw [h]⟩
  have hpos : 0 < dir.length := List.length_pos_of_ne_nil hdir
  -- How deep a step leads tells which kind it is.
  have hlen := congrArg List.length h
  rcases enter_cases dir name with ⟨rfl, he⟩ | ⟨rfl, he⟩ | ⟨-, -, he⟩ <;>
  rcases enter_cases dir name' with ⟨rfl, he'⟩ | ⟨rfl, he'⟩ | ⟨-, -, he'⟩ <;>
  simp only [he, he', List.length_append, List.length_dropLast, List.length_singleton] at h hlen <;>
  first
    | rfl
    | exact List.singleton_inj.1 (List.append_cancel_left h)
    | omega

/-- So what stands further below tells the step that leads there. -/
theorem enter_append_inj (hdir : dir ≠ []) {rest rest' : List String}
    (hlen : rest.length = rest'.length) :
    enter dir name ++ rest = enter dir name' ++ rest' ↔ name = name' ∧ rest = rest' := by
  constructor
  · intro h
    obtain ⟨hname, hrest⟩ := List.append_inj' h hlen
    exact ⟨(enter_inj hdir).1 hname, hrest⟩
  · rintro ⟨rfl, rfl⟩
    rfl

/-- Only `..` leads out of a directory, if what follows does not lead back. -/
theorem isPrefix_enter {rest : List String} (hback : ¬dir <+: dir.dropLast ++ rest) :
    dir <+: enter dir name ++ rest ↔ name ≠ ".." := by
  constructor
  · rintro h rfl
    exact hback h
  · intro hne
    obtain ⟨-, he⟩ | ⟨heq, -⟩ | ⟨-, -, he⟩ := enter_cases dir name
    · rw [he]
      exact List.prefix_append dir rest
    · exact absurd heq hne
    · rw [he, List.append_assoc]
      exact List.prefix_append dir _

/-- What a path from the root leads to, as the names on the way there. -/
def target (path : String) : List String := (parts path).foldl enter []

/-- What stands after a slash is followed from where the first part leads to. -/
theorem target_slash (s t : String) :
    target (s ++ "/" ++ t) = (parts t).foldl enter (target s) := by
  rw [target, parts_slash, List.foldl_append, target]

/-- A name is a single step. -/
theorem target_name {s name : String} (h : '/' ∉ name.toList) (hne : name ≠ "") :
    target (s ++ "/" ++ name) = enter (target s) name := by
  have hnil : name.toList ≠ [] := by simpa using hne
  rw [target_slash, parts, components_of_notMem h]
  by_cases hdot : name.toList = ['.']
  · have hname : name = "." := String.toList_inj.1 (by rw [hdot]; rfl)
    rw [if_pos (Or.inr hdot), hname]
    rfl
  · rw [if_neg (not_or.2 ⟨hnil, hdot⟩)]
    simp

/-! ## Patterns -/

/-- Whether names are those of a pattern, in which `*` stands for any one name. -/
def fits : (pattern names : List String) → Bool
  | [], [] => true
  | p :: pattern, name :: names => (p == "*" || p == name) && fits pattern names
  | _, _ => false

/-- A pattern covers what a path leads to. -/
def Covers (pattern path : String) : Prop := fits (parts pattern) (target path) = true

instance (pattern path : String) : Decidable (Covers pattern path) :=
  inferInstanceAs (Decidable (_ = true))

theorem fits_cons {p : String} {pattern names : List String} :
    fits (p :: pattern) names = true ↔
      ∃ name rest, names = name :: rest ∧ (p = "*" ∨ p = name) ∧ fits pattern rest = true := by
  cases names with
  | nil => simp [fits]
  | cons name rest => simp [fits]

theorem fits_nil {names : List String} : fits [] names = true ↔ names = [] := by
  cases names <;> simp [fits]

end Path

end Reimage
