/-
  Files of a directory that grow.

  * `FileTree.IsFileName`: names for files, and `FileTree.join_fileName`: the paths of files with such
    names;
  * `FileTree.reach_join`: a path into a directory leads below it, unless there is a link;
  * `FileTree.Own`: what is at one location only, and `FileTree.Grew`: more data are in the file at a
    location, and nothing else has changed;
  * `FileTree.append_join`: so it is when data are added to a file of a directory, if it has a location
    of its own.
-/
import Reimage.Proofs.Simulation.FileTree
import Reimage.Proofs.Text.Blank

namespace Reimage.Simulation.FileTree

variable {t t' : FileTree} {location place l : Location} {node : Node} {number : Nat}
  {name directory : String} {data : List UInt8}

/-! ## Files of a directory -/

theorem names_slash (s u : String) : names (s ++ "/" ++ u) = names s ++ names u := by
  have hlist : (s ++ "/" ++ u).toList = s.toList ++ '/' :: u.toList := by simp
  simp only [names, Text.split, hlist, Text.splitChars_eq_splitOn, List.splitOn]
  rw [List.splitOnP_append_cons (p := (· == '/')) s.toList u.toList rfl, List.map_append,
    List.filter_append]

/-- A name that a directory can have a file under. -/
structure IsFileName (name : String) : Prop extends Path.IsName name where
  ne_dots : name ≠ ".."

theorem names_of_isFileName (h : IsFileName name) : names name = [name] := by
  have hempty : name.isEmpty = false := by simpa using h.ne_empty
  have hsplit := Text.splitChars_of_notMem h.slash_notMem
  simp [names, Text.split, hsplit, hempty]

theorem isAbsolute_append {s : String} (h : s ≠ "") (u : String) :
    Path.isAbsolute (s ++ u) = Path.isAbsolute s := by
  obtain ⟨c, rest, hs⟩ := List.exists_cons_of_ne_nil
    (fun hnil => h (String.toList_inj.1 (by simpa using hnil)) : s.toList ≠ [])
  simp [Path.isAbsolute, hs]

/-- The path of a file in a directory. -/
theorem join_fileName (directory : String) (h : IsFileName name) :
    names (Path.join directory name) = names directory ++ [name] ∧
      Path.isAbsolute (Path.join directory name) = Path.isAbsolute directory ∧
      Path.endsInSlash (Path.join directory name) = false := by
  have hname : name.toList ≠ [] := by simpa using h.ne_empty
  have hrelative : Path.isAbsolute name = false := by
    rw [Path.isAbsolute, beq_eq_false_iff_ne]
    exact fun hhead => h.slash_notMem (List.mem_of_head? hhead)
  have hend (u : String) : Path.endsInSlash (u ++ name) = false := by
    rw [Path.endsInSlash, beq_eq_false_iff_ne, String.toList_append,
      List.getLast?_append_of_ne_nil _ hname]
    exact fun hlast => h.slash_notMem (List.mem_of_getLast? hlast)
  rw [Path.join, hrelative]
  simp only [Bool.false_eq_true, if_false]
  by_cases hempty : directory = ""
  · subst hempty
    refine ⟨?_, ?_, hend ""⟩
    · change names ("" ++ name) = [name]
      rw [String.empty_append, names_of_isFileName h]
    · change Path.isAbsolute ("" ++ name) = false
      rw [String.empty_append, hrelative]
  · by_cases hslash : Path.endsInSlash directory = true
    · -- A slash that is there already is the one that keeps the names apart.
      obtain ⟨d, hd⟩ : ∃ d, directory = d ++ "/" := by
        rw [Path.endsInSlash, beq_iff_eq, List.getLast?_eq_some_iff] at hslash
        obtain ⟨d, hd⟩ := hslash
        exact ⟨String.ofList d, String.toList_inj.1 (by simpa using hd)⟩
      rw [hslash, Bool.or_true, if_pos rfl]
      refine ⟨?_, isAbsolute_append hempty name, hend directory⟩
      have hnil : names "" = [] := rfl
      rw [hd, names_slash, names_of_isFileName h, ← String.append_empty (s := d ++ "/"),
        names_slash, hnil, List.append_nil]
    · have hcond : (directory.isEmpty || Path.endsInSlash directory) = false := by
        simpa [hslash] using hempty
      rw [hcond]
      refine ⟨?_, ?_, hend _⟩
      · rw [if_neg Bool.false_ne_true, names_slash, names_of_isFileName h]
      · rw [if_neg Bool.false_ne_true, String.append_assoc, isAbsolute_append hempty]

/-- A path into a directory leads below it, unless it leads to a link. -/
theorem reach_join (h : IsFileName name) (hreach : t.reach (Path.join directory name) = .ok l) :
    ∃ place, t.reach directory = .ok place ∧ t.find? place = some .directory ∧
      ((∀ target, t.find? (place ++ [name]) ≠ some (.link target)) → l = place ++ [name]) := by
  obtain ⟨hnames, habsolute, -⟩ := join_fileName directory h
  rw [reach, start, hnames, habsolute] at hreach
  obtain ⟨place, left, hplace, hlast⟩ := exists_walk_of_append hreach
  obtain ⟨next, hnext, hlast⟩ := walk_cons_eq_ok_iff.1 hlast
  obtain ⟨hdirectory, -, rfl⟩ := follow_eq_ok_iff.1 hnext
  rw [Path.enter_of_ne h.ne_dot h.ne_dots] at hlast
  refine ⟨place, hplace, hdirectory, fun hnot => ?_⟩
  obtain ⟨target, -, hlink, -⟩ | ⟨-, hend⟩ := hlast
  · exact absurd hlink (hnot target)
  · rw [walk_nil] at hend
    exact (Except.ok.inj hend).symm

/-! ## Growing -/

/-- What is in the file at a location. -/
def data? (t : FileTree) (l : Location) : Option (List UInt8) :=
  match t.find? l with
  | some (.file number) => some (t.contentsOf number)
  | _ => none

theorem exists_file_of_data? (h : t.data? l = some data) :
    ∃ number, t.find? l = some (.file number) := by
  rw [data?] at h
  split at h
  next number hfile => exact ⟨number, hfile⟩
  next => cases h

/-- What a file holds after data were added to it. One that is not there is made. -/
def grown (contents : Option (List UInt8)) (data : List UInt8) : Option (List UInt8) :=
  some (contents.getD [] ++ data)

/-- Data that are added in pieces are added as a whole. -/
theorem foldl_grown {contents : Option (List UInt8)} {pieces : List (List UInt8)} (h : pieces ≠ []) :
    pieces.foldl grown contents = grown contents pieces.flatten := by
  induction pieces generalizing contents with
  | nil => exact absurd rfl h
  | cons piece pieces ih =>
    rw [List.foldl_cons, List.flatten_cons]
    by_cases hnil : pieces = []
    · simp [hnil]
    · rw [ih hnil]
      simp [grown]

/-- What is at a location is there only: it is no link, no device, and no file with a second name. -/
structure Own (t : FileTree) (l : Location) : Prop where
  not_link (target : String) : t.find? l ≠ some (.link target)
  not_sink : t.find? l ≠ some .sink
  unique {number : Nat} {other : Location} : t.find? l = some (.file number) →
    t.find? other = some (.file number) → other = l

/-- Whether what is at a location is there only. It is enough to look where something is. -/
def isOwn (t : FileTree) (l : Location) : Bool :=
  match t.find? l with
  | some (.link _) | some .sink => false
  | some (.file number) =>
    t.nodes.all fun e => decide (t.find? e.1 = some (.file number) → e.1 = l)
  | _ => true

theorem isOwn_iff : t.isOwn l = true ↔ t.Own l := by
  rw [isOwn]
  constructor
  · intro h
    refine ⟨fun target hlink => ?_, fun hsink => ?_, fun {number other} hfile hother => ?_⟩
    · rw [hlink] at h
      cases h
    · rw [hsink] at h
      cases h
    · have hroot : other ≠ [] := by
        rintro rfl
        cases hother
      rw [hfile] at h
      exact of_decide_eq_true (List.all_eq_true.1 h _ (mem_of_find? hother hroot)) hother
  · intro h
    split
    next target hlink => exact absurd hlink (h.not_link target)
    next hsink => exact absurd hsink h.not_sink
    next number hfile =>
      exact List.all_eq_true.2 fun e _ => decide_eq_true (h.unique hfile)
    next => rfl

instance : Decidable (t.Own l) := decidable_of_iff _ isOwn_iff

/-- The tree after data were added to the file at a location, and to no other. -/
structure Grew (t : FileTree) (location : Location) (data : List UInt8) (t' : FileTree) : Prop where
  find?_of_ne {l : Location} : l ≠ location → t'.find? l = t.find? l
  find?_of_some {node : Node} : t.find? location = some node → t'.find? location = some node
  data? (l : Location) : t'.data? l = if l = location then grown (t.data? l) data else t.data? l
  own : t'.Own location
  samePaths : SamePaths t t'

/-- What has a location of its own keeps it. -/
theorem Grew.own_of_own (h : Grew t location data t') (hl : t.Own l) : t'.Own l := by
  by_cases heq : l = location
  · exact heq ▸ h.own
  · have hfind := h.find?_of_ne heq
    refine ⟨fun target => hfind ▸ hl.not_link target, hfind ▸ hl.not_sink, ?_⟩
    intro number other hfile hother
    by_cases hlocation : other = location
    · rw [hlocation] at hother
      exact absurd (h.own.unique hother hfile) heq
    · rw [h.find?_of_ne hlocation] at hother
      exact hl.unique (hfind ▸ hfile) hother

theorem grew_insertFile (h : t.find? location = none) :
    Grew t location data (t.insertFile location data) where
  find?_of_ne hl := by rw [find?_insertFile h, if_neg hl]
  find?_of_some hnode := by
    rw [h] at hnode
    cases hnode
  data? l := by
    rw [data?, find?_insertFile h]
    split_ifs with hl
    · simp [contentsOf_insertFile, hl, FileTree.data?, h, grown]
    · rw [FileTree.data?]
      split
      · rename_i number hfile
        rw [contentsOf_insertFile, if_neg (Nat.ne_of_lt (lt_fresh hfile))]
      · rfl
  own := by
    have hthere : (t.insertFile location data).find? location = some (.file t.fresh) := by
      rw [find?_insertFile h, if_pos rfl]
    refine ⟨fun _ => ?_, ?_, fun hfile hother => ?_⟩
    · simp [hthere]
    · simp [hthere]
    · -- Another file would have a number below the fresh one.
      by_contra hne
      rw [hthere] at hfile
      cases hfile
      rw [find?_insertFile h, if_neg hne] at hother
      exact absurd (lt_fresh hother) (Nat.lt_irrefl _)
  samePaths := samePaths_insertFile h

theorem grew_refill (h : t.Own location) (hfile : t.find? location = some (.file number)) :
    Grew t location data (t.refill number (t.contentsOf number ++ data)) where
  find?_of_ne _ := rfl
  find?_of_some hnode := hnode
  data? l := by
    rw [data?, find?_refill, FileTree.data?]
    split_ifs with hl
    · simp [hl, hfile, contentsOf_refill, grown]
    · split
      · rename_i other hother
        rw [contentsOf_refill, if_neg]
        rintro rfl
        exact hl (h.unique hfile hother)
      · rfl
  own := ⟨h.not_link, h.not_sink, h.unique⟩
  samePaths := samePaths_refill _ _

/-- Data are added to a file of a directory only if the directory is there. -/
theorem reach_of_append (h : IsFileName name)
    (ht : t.append (Path.join directory name) data = .ok t') :
    ∃ place, t.reach directory = .ok place ∧ t.find? place = some .directory := by
  obtain ⟨hend, location, hlocate, -⟩ := update_eq_ok ht
  obtain ⟨place, hplace, hdirectory, -⟩ := reach_join h (reach_of_locate hend hlocate)
  exact ⟨place, hplace, hdirectory⟩

/-- **Data that are added to a file of a directory change that file only**, if what is there has a
    location of its own. -/
theorem append_join (h : IsFileName name) (hplace : t.reach directory = .ok place)
    (hown : t.Own (place ++ [name])) (ht : t.append (Path.join directory name) data = .ok t') :
    Grew t (place ++ [name]) data t' := by
  obtain ⟨hend, location, hlocate, hcases⟩ := update_eq_ok ht
  obtain ⟨place', hplace', -, hlocation⟩ := reach_join h (reach_of_locate hend hlocate)
  cases hplace.symm.trans hplace'
  obtain rfl := hlocation hown.not_link
  obtain ⟨hnone, rfl⟩ | ⟨number, hfile, rfl⟩ | ⟨hsink, -⟩ := hcases
  · exact grew_insertFile hnone
  · exact grew_refill hown hfile
  · exact absurd hsink hown.not_sink

end Reimage.Simulation.FileTree
