/-
  Where crash data end up.

  The data of a chunk are added to a file that stands directly in the directory for crash data. Its
  name is the number of the crash, a point, and the last name in the path that the chunk had on the
  device. The system follows links that it finds in the place of such a file.

  * `isFileName_fileName`, `fileName_inj`: that is a name for a file, and no two crashes or last
    names share it;
  * `Stores`: what messages do to a tree of files, one after the other, and `perform_offer_store`:
    that is what the command line does;
  * `Separate`: there are no links in the places of the files, and `Stores.gathered`: what is then at
    each place;
  * `offer_store_confined`: so messages change files of that directory only, and each file has all
    the data that are for it; `offer_store_linked`: with links it is otherwise.
-/
import Reimage.Proofs.Crash.Delivery
import Reimage.Proofs.Simulation.Growth
import Reimage.Proofs.Simulation.Host
import Reimage.Proofs.Text.Blank
import Reimage.Proofs.Text.Numeral

namespace Reimage.Crash

open Simulation CommandLine

/-! ## Names of files -/

/-- The last name in the path of a chunk. -/
def baseName (path : String) : String := (Path.fileName? path).getD "blob"

/-- The name of the file for the data that a crash has under a last name. -/
def fileName (id : Int64) (base : String) : String := toString id.toInt ++ "." ++ base

/-- The last name is a name, whatever the path is. -/
theorem isName_baseName (path : String) : Path.IsName (baseName path) := by
  have hblob : Path.IsName "blob" := ⟨by decide, by decide, by decide⟩
  rw [baseName, Path.fileName?]
  split
  · rename_i name hlast
    split
    · exact hblob
    · exact Path.isName_of_mem_parts (List.mem_of_getLast? hlast)
  · exact hblob

example : ["/var/spool/crash/chrome.log", "core/", "core/.", "../..", "/", ""].map baseName =
    ["chrome.log", "core", "core", "blob", "blob", "blob"] := by decide +kernel

/-- What stands before the point is a number, so it has no point and no slash. -/
theorem notMem_number {c : Char} (h : c = '.' ∨ c = '/') (id : Int64) :
    c ∉ (toString id.toInt).toList := by
  intro hc
  rcases h with rfl | rfl <;> rcases Text.mem_toString_int hc with h | h <;> revert h <;> decide

theorem toList_fileName (id : Int64) (base : String) :
    (fileName id base).toList = (toString id.toInt).toList ++ '.' :: base.toList := by
  simp [fileName]

/-- The name of a file leads neither up nor down. -/
theorem isFileName_fileName (id : Int64) {base : String} (h : Path.IsName base) :
    FileTree.IsFileName (fileName id base) := by
  have hpoint (u : List Char) (he : (fileName id base).toList = '.' :: u) : base.toList = u := by
    rw [toList_fileName] at he
    cases hn : (toString id.toInt).toList with
    | nil =>
      rw [hn] at he
      exact (List.cons.inj he).2
    | cons c digits =>
      rw [hn] at he
      have hmem : '.' ∈ (toString id.toInt).toList := by
        rw [hn, (List.cons.inj he).1]
        exact List.mem_cons_self
      exact absurd hmem (notMem_number (Or.inl rfl) id)
  refine ⟨⟨fun he => ?_, fun he => ?_, ?_⟩, fun he => ?_⟩
  · have hlist := toList_fileName id base
    simp [he] at hlist
  · exact h.ne_empty (String.toList_inj.1 (hpoint [] (by rw [he]; rfl)))
  · rw [toList_fileName, List.mem_append, List.mem_cons, not_or, not_or]
    exact ⟨notMem_number (Or.inr rfl) id, by decide, h.slash_notMem⟩
  · exact h.ne_dot (String.toList_inj.1 (hpoint ['.'] (by rw [he]; rfl)))

/-- **Different crashes and different last names have different files.** -/
theorem fileName_inj {id id' : Int64} {base base' : String} :
    fileName id base = fileName id' base' ↔ id = id' ∧ base = base' := by
  refine ⟨fun h => ?_, fun ⟨h, h'⟩ => by rw [h, h']⟩
  -- Both names are cut at their first point.
  have hcut (id : Int64) (base : String) : Text.splitOnceChars '.' (fileName id base).toList =
      some ((toString id.toInt).toList, base.toList) :=
    Text.splitOnceChars_eq_some_iff.2 ⟨toList_fileName id base, notMem_number (Or.inl rfl) id⟩
  have hsame := hcut id base
  rw [h, hcut, Option.some.injEq, Prod.mk.injEq, String.toList_inj, String.toList_inj] at hsame
  exact ⟨Int64.toInt_inj.1 (Text.toString_int_inj hsame.1.symm), hsame.2.symm⟩

/-! ## Chunks -/

/-- Data of a crash with the last name that they had on the device. -/
structure Piece where
  id : Int64
  base : String
  data : List UInt8

/-- The data that a message carries. -/
def Message.piece? (m : Message) : Option Piece :=
  match m.payload with
  | some (.blob b) => some ⟨m.crashId, baseName b.filename, b.blob⟩
  | some (.core c) => some ⟨m.crashId, baseName c.filename, c.blob⟩
  | _ => none

theorem Message.stored?_eq (m : Message) :
    m.stored? = m.piece?.map fun p => (fileName p.id p.base, p.data) := by
  obtain ⟨id, payload⟩ := m
  match payload with
  | none | some (.crash _) | some (.blob _) | some (.core _) => rfl

theorem isFileName_of_piece {m : Message} {p : Piece} (h : m.piece? = some p) :
    FileTree.IsFileName (fileName p.id p.base) := by
  rw [Message.piece?] at h
  split at h
  · cases h
    exact isFileName_fileName _ (isName_baseName _)
  · cases h
    exact isFileName_fileName _ (isName_baseName _)
  · cases h

/-- The data that messages carry for one file, in their order. -/
def pieces (id : Int64) (base : String) (ms : List Message) : List (List UInt8) :=
  ms.filterMap fun m => m.piece?.bind fun p =>
    if p.id = id ∧ p.base = base then some p.data else none

/-! ## Trees of files -/

/-- What messages do to a tree of files: the data of each are added to the file for them. -/
inductive Stores (directory : String) : FileTree → List Message → FileTree → Prop
  | nil (t : FileTree) : Stores directory t [] t
  | other {t t' : FileTree} {m : Message} {ms : List Message} : m.piece? = none →
    Stores directory t ms t' → Stores directory t (m :: ms) t'
  | add {t t₁ t' : FileTree} {m : Message} {ms : List Message} {p : Piece} : m.piece? = some p →
    t.append (Path.join directory (fileName p.id p.base)) p.data = .ok t₁ →
    Stores directory t₁ ms t' → Stores directory t (m :: ms) t'

/-- The data that messages carry for what is at a location, in their order. -/
def piecesAt (place location : Location) (ms : List Message) : List (List UInt8) :=
  ms.filterMap fun m => m.piece?.bind fun p =>
    if place ++ [fileName p.id p.base] = location then some p.data else none

variable {directory : String} {t t' : FileTree} {ms : List Message} {place : Location}

/-- In the places of the files that messages have data for there is nothing that is elsewhere too. -/
def Separate (t : FileTree) (place : Location) (ms : List Message) : Prop :=
  ∀ m ∈ ms, ∀ p ∈ m.piece?, t.Own (place ++ [fileName p.id p.base])

instance : Decidable (Separate t place ms) :=
  inferInstanceAs (Decidable (∀ m ∈ ms, ∀ p ∈ m.piece?, t.Own (place ++ [fileName p.id p.base])))

theorem piecesAt_cons {m : Message} {p : Piece} (hm : m.piece? = some p) (l : Location) :
    piecesAt place l (m :: ms) = if place ++ [fileName p.id p.base] = l
      then p.data :: piecesAt place l ms else piecesAt place l ms := by
  simp only [piecesAt, List.filterMap_cons, hm, Option.bind_some]
  split_ifs <;> rfl

/-- The data for each location are there, after what was there before. -/
structure Gathered (t : FileTree) (place : Location) (ms : List Message) (t' : FileTree) : Prop where
  find?_of_nil {l : Location} : piecesAt place l ms = [] → t'.find? l = t.find? l
  find?_of_some {l : Location} {node : Node} : t.find? l = some node → t'.find? l = some node
  data? (l : Location) : t'.data? l = (piecesAt place l ms).foldl FileTree.grown (t.data? l)
  own {l : Location} : t.Own l → t'.Own l

/-- What messages have done, when the directory is at `place`. -/
theorem Stores.gathered (h : Stores directory t ms t') (hplace : t.reach directory = .ok place)
    (hseparate : Separate t place ms) : Gathered t place ms t' := by
  induction h with
  | nil t => exact ⟨fun _ => rfl, id, fun _ => rfl, id⟩
  | @other t t' m ms hm _ ih =>
    have hrest := ih hplace fun m hm => hseparate m (List.mem_cons_of_mem _ hm)
    have hpieces (l : Location) : piecesAt place l (m :: ms) = piecesAt place l ms := by
      simp [piecesAt, hm]
    refine ⟨fun {l} hl => hrest.find?_of_nil (hpieces l ▸ hl), hrest.find?_of_some, fun l => ?_,
      hrest.own⟩
    rw [hpieces, hrest.data?]
  | @add t t₁ t' m ms p hm happend _ ih =>
    have hgrew := FileTree.append_join (isFileName_of_piece hm) hplace
      (hseparate m List.mem_cons_self p hm) happend
    have hrest := ih ((FileTree.reach_of_samePaths hgrew.samePaths).2 hplace)
      fun m hm p hp => hgrew.own_of_own (hseparate m (List.mem_cons_of_mem _ hm) p hp)
    refine ⟨fun {l} hl => ?_, fun {l node} hl => hrest.find?_of_some ?_, fun l => ?_,
      fun hl => hrest.own (hgrew.own_of_own hl)⟩
    · rw [piecesAt_cons hm] at hl
      split_ifs at hl with hthere
      rw [hrest.find?_of_nil hl, hgrew.find?_of_ne (Ne.symm hthere)]
    · by_cases hthere : l = place ++ [fileName p.id p.base]
      · exact hthere ▸ hgrew.find?_of_some (hthere ▸ hl)
      · rwa [hgrew.find?_of_ne hthere]
    · rw [hrest.data?, hgrew.data?, piecesAt_cons hm]
      simp only [eq_comm (a := l)]
      split_ifs <;> rfl

theorem stores_cons_none {m : Message} (hm : m.piece? = none) :
    Stores directory t (m :: ms) t' ↔ Stores directory t ms t' := by
  constructor
  · intro h
    cases h with
    | other _ hrest => exact hrest
    | add hp => cases hm.symm.trans hp
  · exact Stores.other hm

theorem stores_cons_some {m : Message} {p : Piece} (hm : m.piece? = some p) :
    Stores directory t (m :: ms) t' ↔
      ∃ t₁, t.append (Path.join directory (fileName p.id p.base)) p.data = .ok t₁ ∧
        Stores directory t₁ ms t' := by
  constructor
  · intro h
    cases h with
    | other hnone => cases hm.symm.trans hnone
    | add hp happend hrest =>
      cases hm.symm.trans hp
      exact ⟨_, happend, hrest⟩
  · rintro ⟨t₁, happend, hrest⟩
    exact Stores.add hm happend hrest

theorem Stores.eq_of_forall (h : Stores directory t ms t') (hms : ∀ m ∈ ms, m.piece? = none) :
    t' = t := by
  induction h with
  | nil t => rfl
  | other _ _ ih => exact ih fun m hm => hms m (List.mem_cons_of_mem _ hm)
  | add hp => cases hp.symm.trans (hms _ List.mem_cons_self)

/-- The directory is there if there are data. -/
theorem Stores.reach (h : Stores directory t ms t') {m : Message} {p : Piece} (hm : m ∈ ms)
    (hp : m.piece? = some p) :
    ∃ place, t.reach directory = .ok place ∧ t.find? place = some .directory := by
  induction h with
  | nil t => cases hm
  | other hnone _ ih =>
    rcases List.mem_cons.1 hm with rfl | hm
    · rw [hnone] at hp
      cases hp
    · exact ih hm
  | add hfirst happend _ _ => exact FileTree.reach_of_append (isFileName_of_piece hfirst) happend

/-! ## Messages on a machine -/

section
variable {h h' : Host} {m : Message}

/-- A message without data is taken, and nothing is done. -/
theorem store_none (hm : m.piece? = none) : store directory m = pure (.ok ()) := by
  simp [store, m.stored?_eq, hm]

/-- The data of a message are added to the file for them. -/
theorem perform_store {p : Piece} (hm : m.piece? = some p) : h.perform (store directory m) =
    match h.files.append (Path.join directory (fileName p.id p.base)) p.data with
    | .ok t => (some (.ok ()), { h with files := t })
    | .error e => (some (.error (.io e.text)), h) := by
  rw [store, m.stored?_eq, hm, Option.map_some]
  change h.perform (Program.ask (.appendFile _ _)
    fun outcome : Except SystemError Unit => pure (outcome.mapError fun e => Error.io e.text)) = _
  rw [Host.perform_ask, Host.answer?]
  cases h.files.append (Path.join directory (fileName p.id p.base)) p.data <;> rfl

/-- The messages are all taken if and only if their data can be added one after the other. -/
theorem perform_offer_store : h.perform (offer (store directory) ms) = (some none, h') ↔
    ∃ t, Stores directory h.files ms t ∧ h' = { h with files := t } := by
  induction ms generalizing h with
  | nil =>
    constructor
    · intro hrun
      cases hrun
      exact ⟨_, .nil _, rfl⟩
    · rintro ⟨t, ht, rfl⟩
      cases ht
      rfl
  | cons m ms ih =>
    rw [offer, Host.perform_bind]
    cases hm : m.piece? with
    | none =>
      simp only [store_none hm, stores_cons_none hm]
      exact ih
    | some p =>
      simp only [perform_store hm, stores_cons_some hm]
      cases h.files.append (Path.join directory (fileName p.id p.base)) p.data with
      | error e =>
        refine iff_of_false ?_ (by simp)
        intro hrun
        cases hrun
      | ok t₁ =>
        simp only [Except.ok.injEq, exists_eq_left']
        exact ih

/-- Messages without data change nothing. -/
theorem perform_offer_filter : h.perform (offer (store directory) ms) =
    h.perform (offer (store directory) (ms.filter fun m => m.piece?.isSome)) := by
  induction ms generalizing h with
  | nil => rfl
  | cons m ms ih =>
    cases hm : m.piece? with
    | none =>
      rw [List.filter_cons_of_neg (by simp [hm]), ← ih, offer, store_none hm]
      rfl
    | some p =>
      rw [List.filter_cons_of_pos (by simp [hm]), offer, offer, Host.perform_bind,
        Host.perform_bind]
      split
      · rename_i a h' _
        cases a with
        | ok => exact ih
        | error e => rfl
      · rfl

/-! ## What becomes of the files -/

/-- The files in the directory at `place` have got the data for them, and nothing else has
    changed. -/
structure Filed (t : FileTree) (place : Location) (ms : List Message) (t' : FileTree) : Prop where
  /-- What has changed is directly in the directory, and there were data for it. -/
  confined (l : Location) : t'.find? l ≠ t.find? l ∨ t'.data? l ≠ t.data? l → ∃ id base,
    FileTree.IsFileName (fileName id base) ∧ l = place ++ [fileName id base] ∧
      pieces id base ms ≠ []
  /-- That is a file, which is still there if it was there before. It holds what it held before, and
      then its data in the order of their arrival. It is nowhere else, so no other file shares it. -/
  complete (id : Int64) (base : String) : pieces id base ms ≠ [] →
    (∀ node, t.find? (place ++ [fileName id base]) = some node →
      ∃ number, node = .file number ∧ t'.find? (place ++ [fileName id base]) = some node) ∧
    t'.data? (place ++ [fileName id base]) =
      some ((t.data? (place ++ [fileName id base])).getD [] ++ (pieces id base ms).flatten) ∧
    t'.Own (place ++ [fileName id base])

/-- The data for a location are those for a file in the directory. -/
theorem piecesAt_fileName (place : Location) (id : Int64) (base : String) :
    piecesAt place (place ++ [fileName id base]) ms = pieces id base ms := by
  simp only [piecesAt, pieces, List.append_cancel_left_eq, List.cons.injEq, and_true, fileName_inj]

theorem exists_of_piecesAt_ne_nil {l : Location} (h : piecesAt place l ms ≠ []) :
    ∃ m ∈ ms, ∃ p, m.piece? = some p ∧ l = place ++ [fileName p.id p.base] := by
  obtain ⟨data, hdata⟩ := List.exists_mem_of_ne_nil _ h
  obtain ⟨m, hm, hpiece⟩ := List.mem_filterMap.1 hdata
  obtain ⟨p, hp, hat⟩ := Option.bind_eq_some_iff.1 hpiece
  split at hat
  · rename_i hl
    exact ⟨m, hm, p, hp, hl.symm⟩
  · cases hat

theorem Stores.filed (hs : Stores directory t ms t') (hplace : t.reach directory = .ok place)
    (hseparate : Separate t place ms) : Filed t place ms t' := by
  have hgathered := hs.gathered hplace hseparate
  refine ⟨fun l hl => ?_, fun id base hne => ?_⟩
  · have hne : piecesAt place l ms ≠ [] := by
      intro hnil
      have hdata := hgathered.data? l
      rw [hnil] at hdata
      exact hl.elim (absurd (hgathered.find?_of_nil hnil)) (absurd hdata)
    obtain ⟨m, hm, p, hp, rfl⟩ := exists_of_piecesAt_ne_nil hne
    exact ⟨p.id, p.base, isFileName_of_piece hp, rfl, piecesAt_fileName place p.id p.base ▸ hne⟩
  · rw [← piecesAt_fileName place] at hne
    have hdata := hgathered.data? (place ++ [fileName id base])
    rw [FileTree.foldl_grown hne, piecesAt_fileName] at hdata
    have hown : t'.Own (place ++ [fileName id base]) := by
      obtain ⟨m, hm, p, hp, hl⟩ := exists_of_piecesAt_ne_nil hne
      exact hl ▸ hgathered.own (hseparate m hm p hp)
    refine ⟨fun node hnode => ?_, hdata, hown⟩
    have hafter := hgathered.find?_of_some hnode
    obtain ⟨number, hfile⟩ := FileTree.exists_file_of_data? hdata
    exact ⟨number, Option.some.inj (hafter.symm.trans hfile), hafter⟩

/-- **Crash data are confined and complete, where there are no links.** Let the command line take
    messages on a machine, so that all their data can be written. If in the places of the files for
    them there is nothing that is elsewhere too, then only files have changed, and only those
    directly in the directory that data were for; each of these has what it had before, and then the
    data of the messages with the number and the last name that it is named after, in their order.
    Other messages change nothing. Different numbers and different last names have different files,
    and the last name is a name whatever the path of a chunk is. -/
theorem offer_store_confined (directory : String) (ms : List Message) (h h' : Host)
    (hseparate : ∀ place, h.files.reach directory = .ok place → Separate h.files place ms)
    (hrun : h.perform (offer (store directory) ms) = (some none, h')) :
    (∃ t, h' = { h with files := t } ∧
      ((∀ m ∈ ms, m.piece? = none) ∧ t = h.files ∨
        ∃ place, h.files.reach directory = .ok place ∧ h.files.find? place = some .directory ∧
          Filed h.files place ms t)) ∧
    h.perform (offer (store directory) (ms.filter fun m => m.piece?.isSome)) = (some none, h') ∧
    (∀ id id' base base', fileName id base = fileName id' base' ↔ id = id' ∧ base = base') ∧
    ∀ path, Path.IsName (baseName path) := by
  refine ⟨?_, by rw [← perform_offer_filter, hrun], fun _ _ _ _ => fileName_inj, isName_baseName⟩
  obtain ⟨t, hs, rfl⟩ := perform_offer_store.1 hrun
  refine ⟨t, rfl, ?_⟩
  by_cases hnone : ∀ m ∈ ms, m.piece? = none
  · exact Or.inl ⟨hnone, hs.eq_of_forall hnone⟩
  · simp only [not_forall] at hnone
    obtain ⟨m, hm, hp⟩ := hnone
    obtain ⟨p, hp⟩ := Option.ne_none_iff_exists'.1 hp
    obtain ⟨place, hplace, hdirectory⟩ := hs.reach hm hp
    exact Or.inr ⟨place, hplace, hdirectory, hs.filed hplace (hseparate place hplace)⟩

/-- A directory that has the beginning of one file, beside another file of the same name. -/
def reports (core : List UInt8) (nodes : List (Location × Node))
    (contents : List (Nat × List UInt8)) : Host :=
  { files := {
      nodes := [(["out"], .directory), (["out", "7.core"], .file 0), (["7.core"], .file 1)] ++ nodes
      contents := [(0, core), (1, [9])] ++ contents }
    user := { home := "/" } }

/-- Two chunks of one file, between them a description and a chunk whose path leads up. -/
def scattered : List Message :=
  [⟨7, some (.core { filename := "/core", blob := [3] })⟩, ⟨7, some (.crash {})⟩,
    ⟨-7, some (.blob { filename := "../..", blob := [4] })⟩,
    ⟨7, some (.blob { filename := "a/core/", blob := [5, 6] })⟩]

theorem perform_scattered : (reports [1, 2] [] []).perform (offer (store "out/") scattered) =
    (some none, reports [1, 2, 3, 5, 6] [(["out", "-7.blob"], .file 2)] [(2, [4])]) := by
  have hfirst : (reports [1, 2] [] []).files.append (Path.join "out/" (fileName 7 "core")) [3] =
    .ok (reports [1, 2, 3] [] []).files := by decide +kernel
  have hsecond : (reports [1, 2, 3] [] []).files.append
      (Path.join "out/" (fileName (-7) "blob")) [4] =
    .ok (reports [1, 2, 3] [(["out", "-7.blob"], .file 2)] [(2, [4])]).files := by decide +kernel
  have hthird : (reports [1, 2, 3] [(["out", "-7.blob"], .file 2)] [(2, [4])]).files.append
      (Path.join "out/" (fileName 7 "core")) [5, 6] =
    .ok (reports [1, 2, 3, 5, 6] [(["out", "-7.blob"], .file 2)] [(2, [4])]).files := by
    decide +kernel
  refine perform_offer_store.2 ⟨_, ?_, rfl⟩
  exact .add rfl hfirst (.other rfl (.add rfl hsecond (.add rfl hthird (.nil _))))

theorem reach_reports : (reports [1, 2] [] []).files.reach "out/" = .ok ["out"] := by decide +kernel

theorem separate_scattered (place : Location)
    (hplace : (reports [1, 2] [] []).files.reach "out/" = .ok place) :
    Separate (reports [1, 2] [] []).files place scattered := by
  cases reach_reports.symm.trans hplace
  decide +kernel

theorem offer_store_confined_scattered :
    ∃ h', (reports [1, 2] [] []).perform (offer (store "out/") scattered) = (some none, h') ∧
      h'.files.data? ["out", "7.core"] = some [1, 2, 3, 5, 6] ∧
      h'.files.data? ["out", "-7.blob"] = some [4] ∧
      h'.files.data? ["7.core"] = some [9] := by
  obtain ⟨⟨t, ht, ⟨hnone, -⟩ | ⟨place, hplace, -, hfiled⟩⟩, -⟩ :=
    offer_store_confined "out/" scattered _ _ separate_scattered perform_scattered
  · exact absurd (hnone _ List.mem_cons_self) (by decide +kernel)
  · cases reach_reports.symm.trans hplace
    have hcore := (hfiled.complete 7 "core" (by decide +kernel)).2.1
    have hblob := (hfiled.complete (-7) "blob" (by decide +kernel)).2.1
    have hbeside : t.data? ["7.core"] = (reports [1, 2] [] []).files.data? ["7.core"] := by
      by_contra hne
      obtain ⟨id, base, -, hl, -⟩ := hfiled.confined _ (Or.inr hne)
      exact absurd (congrArg List.length hl) (by simp)
    refine ⟨_, perform_scattered, ?_⟩
    rw [ht]
    exact ⟨hcore, hblob, hbeside⟩

/-- A directory with a link to a file beside it, and with one file that has two names. -/
def linked (secret shared : List UInt8) : Host :=
  { files := {
      nodes := [(["secret"], .file 0), (["out"], .directory), (["out", "7.core"], .link "../secret"),
        (["out", "8.core"], .file 1), (["out", "9.core"], .file 1)]
      contents := [(0, secret), (1, shared)] }
    user := { home := "/" } }

/-- A chunk for each name. -/
def astray : List Message :=
  [⟨7, some (.core { filename := "/core", blob := [2] })⟩,
    ⟨8, some (.core { filename := "/core", blob := [3] })⟩,
    ⟨9, some (.core { filename := "/core", blob := [4] })⟩]

/-- **Links are followed.** What is added through a symbolic link changes a file beside the directory,
    and the file with two names has the data for both. -/
theorem offer_store_linked :
    (linked [9] [1]).perform (offer (store "out") astray) = (some none, linked [9, 2] [1, 3, 4]) ∧
      (linked [9] [1]).files.filesBelow [] =
        [("secret", [9]), ("out/8.core", [1]), ("out/9.core", [1])] ∧
      (linked [9, 2] [1, 3, 4]).files.filesBelow [] =
        [("secret", [9, 2]), ("out/8.core", [1, 3, 4]), ("out/9.core", [1, 3, 4])] ∧
      ¬ Filed (linked [9] [1]).files ["out"] astray (linked [9, 2] [1, 3, 4]).files := by
  refine ⟨perform_offer_store.2 ⟨_, ?_, rfl⟩, by decide +kernel, by decide +kernel, fun hfiled => ?_⟩
  · have hfirst : (linked [9] [1]).files.append (Path.join "out" (fileName 7 "core")) [2] =
      .ok (linked [9, 2] [1]).files := by decide +kernel
    have hsecond : (linked [9, 2] [1]).files.append (Path.join "out" (fileName 8 "core")) [3] =
      .ok (linked [9, 2] [1, 3]).files := by decide +kernel
    have hthird : (linked [9, 2] [1, 3]).files.append (Path.join "out" (fileName 9 "core")) [4] =
      .ok (linked [9, 2] [1, 3, 4]).files := by decide +kernel
    exact .add rfl hfirst (.add rfl hsecond (.add rfl hthird (.nil _)))
  · obtain ⟨id, base, -, hl, -⟩ := hfiled.confined ["secret"] (Or.inr (by decide +kernel))
    exact absurd (congrArg List.length hl) (by simp)

end

end Reimage.Crash
