/-
  A report reads back from its documents.

  * `Reports`: which JSON values are reports, for objects with their keys in any order;
  * `ofJson?_iff`: these are the values that the reader accepts;
  * `document_compact`, `document_pretty`: both texts that the writer makes are documents of the
    same value;
  * `parse?_document`: so every document of a report is read, and the two texts are among them.
-/
import Reimage.Proofs.Json
import Reimage.ResponseDocument

namespace Reimage.Response

/-! ## Which values are reports -/

/-- The members of an object. -/
abbrev Members := List (Option (List Char) × Json)

/-- The values that an object has under a key. -/
def valuesAt (key : String) (ms : Members) : List Json :=
  ms.filterMap fun m => if m.1 = some key.toList then some m.2 else none

/-- A status, by its text or as the one key of an object. -/
inductive IsStatus : Json → Status → Prop
  | text (s : Status) : IsStatus (.string (some s.text.toList)) s
  | variant (s : Status) : IsStatus (.object [(some s.text.toList, .null)]) s

/-- An optional text, from the values that stand for it: without one, as without a text in it, there
    is none. -/
inductive IsOptional : List Json → Option String → Prop
  | absent : IsOptional [] none
  | null : IsOptional [.null] none
  | text (s : String) : IsOptional [.string (some s.toList)] (some s)

/-- A JSON value is a report. -/
inductive Reports : Json → Response → Prop
  /-- The keys may come in any order, and there may be others. -/
  | object {ms : Members} {status : Json} {r : Response} : (∀ m ∈ ms, m.1.isSome = true) →
    valuesAt "dut" ms = [.string (some r.dut.toList)] →
    valuesAt "status" ms = [status] → IsStatus status r.status →
    IsOptional (valuesAt "failed_state" ms) r.failedState →
    IsOptional (valuesAt "error" ms) r.error → Reports (.object ms) r
  /-- The fields in order, of which the optional ones may be left out at the end. -/
  | array {status : Json} {rest : List Json} {r : Response} : IsStatus status r.status →
    rest.length ≤ 2 → IsOptional (rest.take 1) r.failedState → IsOptional (rest.drop 1) r.error →
    Reports (.array (.string (some r.dut.toList) :: status :: rest)) r


/-! ## The reader accepts those, and no others -/

theorem ofList_eq {l : List Char} {s : String} : String.ofList l = s ↔ l = s.toList := by
  rw [← String.toList_inj, String.toList_ofList]

theorem text?_eq_some {v : Json} {s : String} :
    text? v = some s ↔ v = .string (some s.toList) := by
  unfold text?
  split
  · simp [ofList_eq]
  next hnot => simpa using fun h => hnot _ h

theorem ofText?_eq_some {t : String} {s : Status} : Status.ofText? t = some s ↔ t = s.text := by
  constructor
  · intro h
    have htext := List.find?_some (h : List.find? (fun s : Status => s.text == t) _ = some s)
    exact (eq_of_beq htext).symm
  · rintro rfl
    cases s <;> rfl

theorem status?_eq_some {v : Json} {s : Status} : status? v = some s ↔ IsStatus v s := by
  constructor
  · unfold status?
    split
    · rw [ofText?_eq_some, ofList_eq]
      rintro rfl
      exact .text s
    · rw [ofText?_eq_some, ofList_eq]
      rintro rfl
      exact .variant s
    · exact nofun
  · rintro (_ | _) <;> simp [status?, String.ofList_toList, ofText?_eq_some]

/-- Reading an optional text from a value. -/
theorem optionalText?_eq_some {v : Json} {x : Option String} :
    optionalText? v = some x ↔ IsOptional [v] x := by
  constructor
  · unfold optionalText?
    split
    · rintro ⟨⟩
      exact .null
    · rintro ⟨⟩
      have := IsOptional.text (String.ofList ‹_›)
      rwa [String.toList_ofList] at this
    · exact nofun
  · rintro (_ | _ | _)
    · rfl
    · simp [optionalText?, String.ofList_toList]

/-- A field before and after reading the values of its key. -/
def Took {α : Type} (read : Json → Option α) (vs : List Json) (old new : Option α) : Prop :=
  vs = [] ∧ old = new ∨ old = none ∧ ∃ v x, vs = [v] ∧ read v = some x ∧ some x = new


theorem took_nil {α : Type} {read : Json → Option α} {old new : Option α} :
    Took read [] old new ↔ old = new := by
  simp [Took]

theorem took_singleton {α : Type} {read : Json → Option α} {v : Json} {old new : Option α} :
    Took read [v] old new ↔ old = none ∧ ∃ x, read v = some x ∧ some x = new := by
  simp [Took]

/-- A key may come once. -/
theorem took_cons {α : Type} {read : Json → Option α} {v : Json} {vs : List Json}
    {old new : Option α} :
    Took read (v :: vs) old new ↔ ∃ mid, Took read [v] old mid ∧ Took read vs mid new := by
  simp only [took_singleton]
  constructor
  · rintro (⟨h, -⟩ | ⟨hold, w, x, hvs, hx, hnew⟩)
    · cases h
    · cases hvs
      exact ⟨some x, ⟨hold, x, hx, rfl⟩, Or.inl ⟨rfl, hnew⟩⟩
  · rintro ⟨mid, ⟨hold, x, hx, rfl⟩, ⟨rfl, hnew⟩ | ⟨h, -⟩⟩
    · exact Or.inr ⟨hold, v, x, rfl, hx, hnew⟩
    · cases h

/-- What reading members does to the fields. -/
structure Partial.TookAll (p : Partial) (ms : Members) (q : Partial) : Prop where
  dut : Took text? (valuesAt "dut" ms) p.dut q.dut
  status : Took status? (valuesAt "status" ms) p.status q.status
  failedState : Took optionalText? (valuesAt "failed_state" ms) p.failedState q.failedState
  error : Took optionalText? (valuesAt "error" ms) p.error q.error

theorem valuesAt_nil (key : String) : valuesAt key [] = [] := rfl

theorem valuesAt_cons (key key' : String) (v : Json) (ms : Members) :
    valuesAt key ((some key'.toList, v) :: ms) =
      if key' = key then v :: valuesAt key ms else valuesAt key ms := by
  by_cases h : key' = key <;> simp [valuesAt, h, String.toList_inj]


/-- A known key sets its own field, and any other key none. -/
theorem Partial.add?_eq_some {p q : Partial} {key : String} {v : Json} :
    p.add? key v = some q ↔ p.TookAll [(some key.toList, v)] q := by
  have hvalues (k : String) :
      valuesAt k [(some key.toList, v)] = if key = k then [v] else [] := by
    rw [valuesAt_cons, valuesAt_nil]
  have hiff : p.TookAll [(some key.toList, v)] q ↔
      Took text? (if key = "dut" then [v] else []) p.dut q.dut ∧
      Took status? (if key = "status" then [v] else []) p.status q.status ∧
      Took optionalText? (if key = "failed_state" then [v] else []) p.failedState q.failedState ∧
      Took optionalText? (if key = "error" then [v] else []) p.error q.error := by
    simp only [← hvalues]
    exact ⟨fun ⟨h₁, h₂, h₃, h₄⟩ => ⟨h₁, h₂, h₃, h₄⟩, fun ⟨h₁, h₂, h₃, h₄⟩ => ⟨h₁, h₂, h₃, h₄⟩⟩
  rw [hiff]
  obtain ⟨dut, status, failedState, error⟩ := p
  obtain ⟨dut', status', failedState', error'⟩ := q
  unfold Partial.add?
  by_cases h₁ : key = "dut"
  · subst h₁
    cases dut <;> cases hread : text? v <;> simp [took_nil, took_singleton, hread]
  by_cases h₂ : key = "status"
  · subst h₂
    cases status <;> cases hread : status? v <;> simp [took_nil, took_singleton, hread]
  by_cases h₃ : key = "failed_state"
  · subst h₃
    cases failedState <;> cases hread : optionalText? v <;> simp [took_nil, took_singleton, hread]
  by_cases h₄ : key = "error"
  · subst h₄
    cases error <;> cases hread : optionalText? v <;> simp [took_nil, took_singleton, hread]
  simp [h₁, h₂, h₃, h₄, took_nil]

theorem Partial.tookAll_nil {p q : Partial} : p.TookAll [] q ↔ p = q := by
  constructor
  · rintro ⟨h₁, h₂, h₃, h₄⟩
    simp only [valuesAt_nil, took_nil] at h₁ h₂ h₃ h₄
    cases p
    cases q
    simp_all
  · rintro rfl
    exact ⟨took_nil.2 rfl, took_nil.2 rfl, took_nil.2 rfl, took_nil.2 rfl⟩

/-- The values of a key in a first member, and those in the others. -/
theorem took_valuesAt_cons {α : Type} {read : Json → Option α} {old new : Option α}
    (key key' : String) (v : Json) (ms : Members) :
    Took read (valuesAt key ((some key'.toList, v) :: ms)) old new ↔
      ∃ mid, Took read (valuesAt key [(some key'.toList, v)]) old mid ∧
        Took read (valuesAt key ms) mid new := by
  rw [valuesAt_cons, valuesAt_cons, valuesAt_nil]
  split_ifs with h
  · exact took_cons
  · simp only [took_nil, exists_eq_left']

theorem Partial.tookAll_cons {p q : Partial} (key : String) (v : Json) (ms : Members) :
    p.TookAll ((some key.toList, v) :: ms) q ↔
      ∃ mid : Partial, p.TookAll [(some key.toList, v)] mid ∧ mid.TookAll ms q := by
  constructor
  · rintro ⟨h₁, h₂, h₃, h₄⟩
    obtain ⟨dut, hdut, hdut'⟩ := (took_valuesAt_cons _ key v ms).1 h₁
    obtain ⟨status, hstatus, hstatus'⟩ := (took_valuesAt_cons _ key v ms).1 h₂
    obtain ⟨failed, hfailed, hfailed'⟩ := (took_valuesAt_cons _ key v ms).1 h₃
    obtain ⟨error, herror, herror'⟩ := (took_valuesAt_cons _ key v ms).1 h₄
    exact ⟨⟨dut, status, failed, error⟩, ⟨hdut, hstatus, hfailed, herror⟩,
      ⟨hdut', hstatus', hfailed', herror'⟩⟩
  · rintro ⟨mid, ⟨hdut, hstatus, hfailed, herror⟩, ⟨hdut', hstatus', hfailed', herror'⟩⟩
    exact ⟨(took_valuesAt_cons _ key v ms).2 ⟨_, hdut, hdut'⟩,
      (took_valuesAt_cons _ key v ms).2 ⟨_, hstatus, hstatus'⟩,
      (took_valuesAt_cons _ key v ms).2 ⟨_, hfailed, hfailed'⟩,
      (took_valuesAt_cons _ key v ms).2 ⟨_, herror, herror'⟩⟩

/-- Reading the members takes each known key once, in whatever order they come. -/
theorem Partial.addAll?_eq_some {p q : Partial} {ms : Members} :
    p.addAll? ms = some q ↔ (∀ m ∈ ms, m.1.isSome = true) ∧ p.TookAll ms q := by
  induction ms generalizing p with
  | nil => simp [Partial.addAll?, Partial.tookAll_nil]
  | cons m ms ih =>
    obtain ⟨_ | key, v⟩ := m
    · simp [Partial.addAll?]
    · obtain ⟨key, rfl⟩ : ∃ s : String, key = s.toList := ⟨.ofList key, String.toList_ofList.symm⟩
      rw [Partial.addAll?, Option.bind_eq_some_iff, String.ofList_toList]
      simp only [Partial.add?_eq_some, ih, List.forall_mem_cons, Option.isSome_some, true_and,
        Partial.tookAll_cons key v ms]
      exact ⟨fun ⟨mid, h, hkeys, h'⟩ => ⟨hkeys, mid, h, h'⟩,
        fun ⟨hkeys, mid, h, h'⟩ => ⟨mid, h, hkeys, h'⟩⟩

/-- A required field, which starts without a value. -/
theorem took_required {α : Type} {read : Json → Option α} {vs : List Json} {x : α} :
    Took read vs none (some x) ↔ ∃ v, vs = [v] ∧ read v = some x := by
  constructor
  · rintro (⟨-, h⟩ | ⟨-, v, y, hv, hy, h⟩)
    · cases h
    · cases h
      exact ⟨v, hv, hy⟩
  · rintro ⟨v, hv, hx⟩
    exact Or.inr ⟨rfl, v, x, hv, hx, rfl⟩

/-- An optional field, which starts without a value. -/
theorem isOptional_iff {vs : List Json} {x : Option String} :
    IsOptional vs x ↔ ∃ new, Took optionalText? vs none new ∧ new.join = x := by
  constructor
  · rintro (_ | _ | _)
    · exact ⟨none, took_nil.2 rfl, rfl⟩
    · exact ⟨some none, took_singleton.2 ⟨rfl, _, rfl, rfl⟩, rfl⟩
    · exact ⟨_, took_singleton.2 ⟨rfl, _, optionalText?_eq_some.2 (.text _), rfl⟩, rfl⟩
  · rintro ⟨new, ⟨rfl, rfl⟩ | ⟨-, v, x, rfl, hx, rfl⟩, rfl⟩
    · exact .absent
    · exact optionalText?_eq_some.1 hx

theorem ofJson?_object {ms : Members} {r : Response} :
    ofJson? (.object ms) = some r ↔ ∃ p : Partial, Partial.addAll? {} ms = some p ∧
      p.dut = some r.dut ∧ p.status = some r.status ∧ p.failedState.join = r.failedState ∧
      p.error.join = r.error := by
  obtain ⟨dut, status, failedState, error⟩ := r
  simp only [ofJson?, Option.bind_eq_bind, Option.bind_eq_some_iff, Option.some.injEq, mk.injEq]
  constructor
  · rintro ⟨p, hp, d, hd, s, hs, rfl, rfl, hf, he⟩
    exact ⟨p, hp, hd, hs, hf, he⟩
  · rintro ⟨p, hp, hd, hs, hf, he⟩
    exact ⟨p, hp, dut, hd, status, hs, rfl, rfl, hf, he⟩

/-- An item that is left out counts as null. -/
theorem optionalText?_null {x : Option String} :
    optionalText? .null = some x ↔ IsOptional [] x := by
  constructor
  · rintro ⟨⟩
    exact .absent
  · rintro ⟨⟩
    rfl

theorem ofJson?_array {vs : List Json} {r : Response} :
    ofJson? (.array vs) = some r ↔ ∃ dut status rest, vs = dut :: status :: rest ∧
      rest.length ≤ 2 ∧ text? dut = some r.dut ∧ status? status = some r.status ∧
      IsOptional (rest.take 1) r.failedState ∧ IsOptional (rest.drop 1) r.error := by
  obtain ⟨dut, status, failedState, error⟩ := r
  match vs with
  | [] | [_] => simp [ofJson?]
  | [_, _] | [_, _, _] | [_, _, _, _] =>
    simp [ofJson?, Option.bind_eq_some_iff, ← optionalText?_null, ← optionalText?_eq_some]
  | _ :: _ :: _ :: _ :: _ :: _ => simp [ofJson?]

/-- **The reader accepts the reports, and nothing else.** -/
theorem ofJson?_iff {v : Json} {r : Response} : ofJson? v = some r ↔ Reports v r := by
  constructor
  · intro h
    match v with
    | .object ms =>
      obtain ⟨p, hp, hdut, hstatus, hfailed, herror⟩ := ofJson?_object.1 h
      obtain ⟨hkeys, htook⟩ := Partial.addAll?_eq_some.1 hp
      obtain ⟨d, hd, hdtext⟩ := took_required.1 (hdut ▸ htook.dut)
      obtain ⟨s, hs, hstext⟩ := took_required.1 (hstatus ▸ htook.status)
      rw [text?_eq_some] at hdtext
      exact .object hkeys (hdtext ▸ hd) hs (status?_eq_some.1 hstext)
        (isOptional_iff.2 ⟨_, htook.failedState, hfailed⟩)
        (isOptional_iff.2 ⟨_, htook.error, herror⟩)
    | .array vs =>
      obtain ⟨d, s, rest, rfl, hlength, hd, hs, hfailed, herror⟩ := ofJson?_array.1 h
      rw [text?_eq_some] at hd
      subst hd
      exact .array (status?_eq_some.1 hs) hlength hfailed herror
  · rintro (⟨hkeys, hdut, hs, hstatus, hfailed, herror⟩ | ⟨hstatus, hlength, hfailed, herror⟩)
    · obtain ⟨failed, hfailed, hfailed'⟩ := isOptional_iff.1 hfailed
      obtain ⟨error, herror, herror'⟩ := isOptional_iff.1 herror
      refine ofJson?_object.2 ⟨⟨some r.dut, some r.status, failed, error⟩,
        Partial.addAll?_eq_some.2 ⟨hkeys, ?_, ?_, hfailed, herror⟩, rfl, rfl, hfailed', herror'⟩
      · exact took_required.2 ⟨_, hdut, text?_eq_some.2 rfl⟩
      · exact took_required.2 ⟨_, hs, status?_eq_some.2 hstatus⟩
    · exact ofJson?_array.2 ⟨_, _, _, rfl, hlength, text?_eq_some.2 rfl, status?_eq_some.2 hstatus,
        hfailed, herror⟩

/-! ## The documents that the writer makes -/

/-- A field as a member of an object. -/
def member (field : String × String) : Option (List Char) × Json :=
  (some field.1.toList, Json.ofString field.2)

theorem toJson_eq (r : Response) : r.toJson = .object (r.fields.map member) := rfl

/-- The value that is written is a report, of the same fields. -/
theorem reports_toJson (r : Response) : Reports r.toJson r := by
  obtain ⟨dut, status, failedState, error⟩ := r
  have hstatus : IsStatus (Json.ofString status.text) status := .text status
  cases failedState <;> cases error
  · exact .object (by simp [fields]) rfl rfl hstatus .absent .absent
  · exact .object (by simp [fields]) rfl rfl hstatus .absent (.text _)
  · exact .object (by simp [fields]) rfl rfl hstatus (.text _) .absent
  · exact .object (by simp [fields]) rfl rfl hstatus (.text _) (.text _)

theorem fields_ne_nil (r : Response) : r.fields ≠ [] := by
  simp [fields]

theorem plain_members {fs : List (String × String)} (h : fs ≠ []) :
    Json.Plain (.members (fs.map member)) := by
  induction fs with
  | nil => exact absurd rfl h
  | cons f fs ih =>
    cases fs with
    | nil => exact .lastMember _ (.string _)
    | cons g fs => exact .member _ (.string _) (ih (List.cons_ne_nil _ _))

theorem document_compact (r : Response) : Json.Document r.compact.toList r.toJson := by
  rw [compact, String.toList_ofList, toJson_eq]
  exact (Json.Plain.object (plain_members r.fields_ne_nil)).document_text

/-- A field on a line of its own: white space, the key, and after the colon the value. -/
theorem prettyField_append (f : String × String) (rest : List Char) :
    Json.Spaced (prettyField f ++ rest)
        ('\x22' :: (f.1.toList.flatMap Json.stringChar ++ '\x22' :: ':' :: ' ' ::
          (Json.stringText f.2.toList ++ rest))) ∧
      Json.Writes (' ' :: (Json.stringText f.2.toList ++ rest)) (.value (Json.ofString f.2)) rest := by
  constructor
  · exact ⟨['\n', ' ', ' '], by simp [prettyField, Json.stringText], List.all_eq_true.1 rfl⟩
  · rw [Json.stringText_append]
    exact .space rfl (.string (Json.chars_stringText _ rest))

/-- The fields on lines of their own are the same members. -/
theorem writes_prettyFields {fs : List (String × String)} (h : fs ≠ []) :
    Json.Writes ([','].intercalate (fs.map prettyField) ++ ['\n', '\x7d'])
      (.members (fs.map member)) [] := by
  induction fs with
  | nil => exact absurd rfl h
  | cons f fs ih =>
    cases fs with
    | nil =>
      obtain ⟨hkey, hvalue⟩ := prettyField_append f ['\n', '\x7d']
      have hend : Json.Spaced ['\n', '\x7d'] ['\x7d'] := ⟨['\n'], rfl, List.all_eq_true.1 rfl⟩
      simpa [member] using Json.Writes.lastMember hkey (Json.chars_stringText _ _) (.refl _) hvalue hend
    | cons g fs =>
      obtain ⟨hkey, hvalue⟩ := prettyField_append f
        (',' :: ([','].intercalate ((g :: fs).map prettyField) ++ ['\n', '\x7d']))
      have hmembers := ih (List.cons_ne_nil _ _)
      simpa [member] using Json.Writes.member hkey (Json.chars_stringText _ _) (.refl _) hvalue
        (.refl _) hmembers

theorem document_pretty (r : Response) : Json.Document r.pretty.toList r.toJson := by
  rw [pretty, String.toList_ofList, List.append_assoc, toJson_eq]
  exact ⟨[], .object (writes_prettyFields r.fields_ne_nil), Json.Spaced.refl _⟩

/-- Reads a document and writes what it says on one line. -/
def rewritten? (document : String) : Option String := (parse? document).map compact

/-- Every document of a report is read, whichever way it is written. -/
theorem parse?_document {document : String} {v : Json} {r : Response}
    (hdocument : Json.Document document.toList v) (h : Reports v r) : parse? document = some r := by
  rw [parse?, hdocument.parse?]
  exact ofJson?_iff.2 h

/-- **A report reads back from both of its texts.** So what is read from any document, with the keys
    in whatever order, others among them, null for what is missing or the fields in an array, is what
    its text on one line says, and that text stays as it is from then on. -/
theorem parse?_written :
    (∀ r : Response, parse? r.compact = some r ∧ parse? r.pretty = some r) ∧
    (∀ document text : String, rewritten? document = some text →
      parse? text = parse? document ∧ rewritten? text = some text) ∧
    (∀ (document : String) (v : Json) (r : Response), Json.Document document.toList v →
      Reports v r → parse? document = some r) := by
  have hcompact (r : Response) : parse? r.compact = some r :=
    parse?_document r.document_compact (reports_toJson r)
  refine ⟨fun r => ⟨hcompact r, parse?_document r.document_pretty (reports_toJson r)⟩, ?_,
    fun _ _ _ => parse?_document⟩
  intro document text h
  obtain ⟨r, hread, rfl⟩ := Option.map_eq_some_iff.1 h
  exact ⟨(hcompact r).trans hread.symm, by rw [rewritten?, hcompact, Option.map_some]⟩

/-- Keys in another order, one that is unknown, null and an escape. -/
theorem parse?_written_reordered :
    (∃ document text : String, rewritten? document = some text ∧ document ≠ text ∧
      parse? text = parse? document ∧ rewritten? text = some text) ∧
    ∃ (document : String) (v : Json) (r : Response), Json.Document document.toList v ∧
      Reports v r ∧ parse? document = some r := by
  let document := "\x7b\"error\": null, \"status\": \"SUCCESS\", \"n\": [1], \"dut\": \"\\u0064\"\x7d"
  let text := "\x7b\"dut\":\"d\",\"status\":\"SUCCESS\"\x7d"
  let r : Response := { dut := "d\n", status := .rpcFailed, error := some "\"" }
  have hread : rewritten? document = some text := by decide +kernel
  have hwritten := parse?_written.2.2 r.pretty r.toJson r r.document_pretty (reports_toJson r)
  exact ⟨⟨document, text, hread, by decide, parse?_written.2.1 document text hread⟩,
    ⟨r.pretty, r.toJson, r, r.document_pretty, reports_toJson r, hwritten⟩⟩

end Reimage.Response
