/-
  Reading back a printed identity.

  A printout is a row of lines. Some of them give a field a value, with white space wherever it does
  not count; the others say nothing of any field.

  * `ConfigId.keyValue?_entry`, `ConfigId.keyValue?_remark`: what is read of each kind of line;
  * `ConfigId.entries_text`: what is read of a printout is what is read of its lines, whichever way
    they are ended;
  * `ConfigId.value_text`: so the value of a field is the one it was given last;
  * `ConfigId.parse_printout`: and the identity is the one that was printed, in whatever order.
-/
import Mathlib.Data.Fintype.Basic
import Reimage.Crosid
import Reimage.Proofs.Text.Blank
import Reimage.Proofs.Text.Numeral

namespace Reimage.ConfigId

open Text

/-! ## Printouts -/

/-- What is told of a configuration. -/
inductive Field
  | platform
  | model
  | sku
  | brand
  | customization
  deriving DecidableEq, Repr

instance : Fintype Field :=
  ⟨{.platform, .model, .sku, .brand, .customization}, fun f => by cases f <;> decide⟩

/-- The key that a field is printed under. -/
def Field.key : Field → String
  | platform => "PLATFORM_NAME"
  | model => "MODEL"
  | sku => "SKU"
  | brand => "BRAND_CODE"
  | customization => "CUSTOMIZATION_ID"

/-- White space within a line. -/
def Pad (s : List Char) : Prop := Blank s ∧ '\n' ∉ s

instance (s : List Char) : Decidable (Pad s) := inferInstanceAs (Decidable (_ ∧ _))

/-- A line that gives a field a value. -/
structure Entry where
  field : Field
  value : String
  /-- The white space before and after the key, and before and after the quoted value. -/
  before : List Char := []
  behindKey : List Char := []
  beforeValue : List Char := []
  behind : List Char := []
  oneLine : '\n' ∉ value.toList := by decide
  /-- The quotes around the value are told from the value. -/
  unquoted : value.toList.head? ≠ some '\x27' ∧ value.toList.getLast? ≠ some '\x27' := by decide
  pads : Pad before ∧ Pad behindKey ∧ Pad beforeValue ∧ Pad behind := by decide

/-- A line that gives no field a value: it has no equals sign, or another key. -/
structure Remark where
  text : List Char
  oneLine : '\n' ∉ text := by decide
  silent : '=' ∉ text ∨ ∀ f : Field, trimChars (text.takeWhile (· != '=')) ≠ f.key.toList := by
    decide

inductive Line
  | entry (e : Entry)
  | remark (r : Remark)

/-- How a line is ended. -/
inductive LineEnd
  | feed
  | returnFeed
  deriving DecidableEq, Repr

def LineEnd.text : LineEnd → List Char
  | feed => ['\n']
  | returnFeed => ['\r', '\n']

/-- A value in quotes. -/
def quote (s : List Char) : List Char := '\x27' :: (s ++ ['\x27'])

def Entry.text (e : Entry) : List Char :=
  e.before ++ (e.field.key.toList ++ e.behindKey ++ '=' :: (e.beforeValue ++ quote e.value.toList))
    ++ e.behind

def Line.text : Line → List Char
  | entry e => e.text
  | remark r => r.text

/-- Lines that were ended, and possibly one that was not. -/
structure Printout where
  ended : List (Line × LineEnd)
  rest : Option Line := none

namespace Printout

/-- The lines of a printout, in order. -/
def lines (p : Printout) : List Line := p.ended.map (·.1) ++ p.rest.toList

/-- What is printed. -/
def text (p : Printout) : String :=
  String.ofList ((p.ended.flatMap fun l => l.1.text ++ l.2.text) ++
    p.rest.elim [] Line.text)

end Printout

/-- The value that a line gives a field, if it does. -/
def Line.value? (f : Field) : Line → Option String
  | entry e => if e.field = f then some e.value else none
  | remark _ => none

namespace Printout

/-- The values that a field is given, in order. -/
def values (p : Printout) (f : Field) : List String := p.lines.filterMap (Line.value? f)

/-- The value that a field is given last; none is as good as an empty one. -/
def last (p : Printout) (f : Field) : String := (p.values f).getLast?.getD ""

end Printout

/-! ## Reading a line -/

theorem Field.key_inj {f g : Field} (h : f.key = g.key) : f = g := by
  revert h
  cases f <;> cases g <;> decide

/-- A key is neither trimmed nor cut. -/
theorem Field.key_plain (f : Field) : trimChars f.key.toList = f.key.toList ∧
    '=' ∉ f.key.toList ∧ '\n' ∉ f.key.toList ∧
    ∃ c s, f.key.toList = c :: s ∧ isBlank c = false := by
  cases f <;> exact ⟨by decide, by decide, by decide, _, _, rfl, by decide⟩

theorem notMem_of_blank {s : List Char} {c : Char} (h : Blank s) (hc : isBlank c = false) :
    c ∉ s := fun hmem => by
  rw [h c hmem] at hc
  cases hc

/-- The quotes around a value are removed. -/
theorem unquote_quote {s : List Char} (hfirst : s.head? ≠ some '\x27')
    (hlast : s.getLast? ≠ some '\x27') : unquote (quote s) = s := by
  have hquote : dropEndWhile (· == '\x27') (s ++ ['\x27']) = s := by
    rw [dropEndWhile_append (by simp)]
    rcases List.eq_nil_or_concat s with rfl | ⟨u, c, rfl⟩
    · rfl
    · rw [List.concat_eq_append] at hlast ⊢
      exact dropEndWhile_concat (by simpa using hlast)
  rw [unquote, quote, List.dropWhile_cons_of_pos (by simp)]
  cases s with
  | nil => rfl
  | cons c s => rwa [List.cons_append, List.dropWhile_cons_of_neg (by simpa using hfirst),
      ← List.cons_append]

/-- **What is read of a line that gives a field a value.** -/
theorem keyValue?_entry (e : Entry) : keyValue? e.text = some (e.field.key, e.value) := by
  obtain ⟨hbefore, hkey, hvalue, hbehind⟩ := e.pads
  obtain ⟨htrim, heq, -, c, s, hcons, hc⟩ := e.field.key_plain
  have hline : trimChars e.text =
      e.field.key.toList ++ e.behindKey ++ '=' :: (e.beforeValue ++ quote e.value.toList) := by
    rw [Entry.text, trimChars_pad hbefore.1 hbehind.1]
    refine trimChars_of_ends
      (u := s ++ e.behindKey ++ '=' :: (e.beforeValue ++ quote e.value.toList))
      (v := e.field.key.toList ++ e.behindKey ++ '=' ::
        (e.beforeValue ++ '\x27' :: e.value.toList)) ?_ ?_ hc (d := '\x27') (by decide)
    · simp [hcons]
    · simp [quote]
  have hcut : splitOnceChars '=' (trimChars e.text) =
      some (e.field.key.toList ++ e.behindKey, e.beforeValue ++ quote e.value.toList) := by
    rw [hline, splitOnceChars_eq_some_iff]
    refine ⟨rfl, ?_⟩
    rw [List.mem_append, not_or]
    exact ⟨heq, notMem_of_blank hkey.1 (by decide)⟩
  have hleft : trimChars (e.field.key.toList ++ e.behindKey) = e.field.key.toList := by
    simpa [htrim] using trimChars_pad (s := e.field.key.toList) (u := []) (by simp [Blank]) hkey.1
  have hright : trimChars (e.beforeValue ++ quote e.value.toList) = quote e.value.toList := by
    have hquote : trimChars (quote e.value.toList) = quote e.value.toList :=
      trimChars_of_ends (v := '\x27' :: e.value.toList) rfl rfl (by decide) (by decide)
    simpa [hquote] using
      trimChars_pad (s := quote e.value.toList) hvalue.1 (v := []) (by simp [Blank])
  simp only [keyValue?, hcut, Option.map_some, hleft, hright,
    unquote_quote e.unquoted.1 e.unquoted.2, String.ofList_toList]

/-- What stands before the equals sign, if there is one, is the same before the line is trimmed, but
    for white space. -/
theorem trimChars_takeWhile {s u v : List Char}
    (h : splitOnceChars '=' (trimChars s) = some (u, v)) :
    '=' ∈ s ∧ trimChars (s.takeWhile (· != '=')) = trimChars u := by
  obtain ⟨before, behind, hs, hbefore, hbehind⟩ := exists_trimChars s
  obtain ⟨htrim, hu⟩ := splitOnceChars_eq_some_iff.1 h
  have hcut : s = before ++ u ++ '=' :: (v ++ behind) := by
    rw [hs, htrim]
    simp
  have hfree : ∀ c ∈ before ++ u, (c != '=') = true := by
    intro c hc
    rw [bne_iff_ne]
    rintro rfl
    rcases List.mem_append.1 hc with hc | hc
    · exact notMem_of_blank hbefore (by decide) hc
    · exact hu hc
  have htake : s.takeWhile (· != '=') = before ++ u := by
    rw [hcut, List.takeWhile_append_of_pos hfree, List.takeWhile_cons_of_neg (by simp),
      List.append_nil]
  refine ⟨by simp [hcut], ?_⟩
  rw [htake]
  simpa using trimChars_pad (s := u) hbefore (v := []) (by simp [Blank])

/-- **What is read of any other line** is none of the fields. -/
theorem keyValue?_remark (r : Remark) (f : Field) {e : String × String}
    (h : keyValue? r.text = some e) : e.1 ≠ f.key := by
  obtain ⟨⟨u, v⟩, hcut, rfl⟩ := Option.map_eq_some_iff.1 h
  obtain ⟨heq, hkey⟩ := trimChars_takeWhile hcut
  rcases r.silent with hno | hother
  · exact absurd heq hno
  · intro hf
    exact hother f (by rw [hkey, ← hf, String.toList_ofList])

/-! ## Reading a printout -/

theorem keyValue?_congr {s t : List Char} (h : trimChars s = trimChars t) :
    keyValue? s = keyValue? t := by
  rw [keyValue?, keyValue?, h]

theorem Line.oneLine : (l : Line) → '\n' ∉ l.text
  | entry e => by
    obtain ⟨hbefore, hkey, hvalue, hbehind⟩ := e.pads
    obtain ⟨-, -, hfield, -⟩ := e.field.key_plain
    simp [text, Entry.text, quote, hbefore.2, hkey.2, hvalue.2, hbehind.2, hfield, e.oneLine]
  | remark r => r.oneLine

/-- What is read of a line does not depend on how it is ended. -/
theorem entries_ended {u : List Char} (h : '\n' ∉ u) (e : LineEnd) (v : List Char) :
    (lineChars (u ++ e.text ++ v)).filterMap keyValue? =
      (keyValue? u).toList ++ (lineChars v).filterMap keyValue? := by
  cases e with
  | feed =>
    have hlines : lineChars (u ++ LineEnd.feed.text ++ v) = dropReturn u :: lineChars v := by
      rw [List.append_assoc]
      exact lineChars_cons h
    have hread : keyValue? (dropReturn u) = keyValue? u := keyValue?_congr (trimChars_dropReturn u)
    rw [hlines, List.filterMap_cons, hread]
    cases keyValue? u <;> rfl
  | returnFeed =>
    have hlines : lineChars (u ++ LineEnd.returnFeed.text ++ v) =
        dropReturn (u ++ ['\r']) :: lineChars v := by
      have hfree : '\n' ∉ u ++ ['\r'] := by simp [h]
      simpa [LineEnd.text] using lineChars_cons (v := v) hfree
    have hread : keyValue? (dropReturn (u ++ ['\r'])) = keyValue? u :=
      keyValue?_congr ((trimChars_dropReturn _).trans
        (trimChars_pad (u := []) (by simp [Blank]) (by decide)))
    rw [hlines, List.filterMap_cons, hread]
    cases keyValue? u <;> rfl

/-- **What is read of a printout is what is read of its lines.** -/
theorem entries_text (p : Printout) :
    entries p.text = p.lines.filterMap fun l => keyValue? l.text := by
  obtain ⟨ended, rest⟩ := p
  rw [entries, Printout.text, String.toList_ofList]
  simp only [Printout.lines]
  induction ended with
  | nil =>
    cases rest with
    | none => rfl
    | some l =>
      simp only [List.flatMap_nil, List.nil_append, Option.elim, List.map_nil, Option.toList_some]
      rw [lineChars_of_notMem l.oneLine]
      split
      · rename_i hnil
        simp [hnil, keyValue?, trimChars, dropEndWhile, splitOnceChars]
      · rfl
  | cons l ended ih =>
    rw [List.flatMap_cons, List.append_assoc, entries_ended l.1.oneLine, ih, List.map_cons,
      List.cons_append, List.filterMap_cons]
    cases keyValue? l.1.text <;> rfl

/-! ## Values -/

/-- The value of a key is the last one it is given. -/
theorem value_eq (es : List (String × String)) (key : String) :
    value es key = ((es.filter fun e => e.1 == key).map (·.2)).getLast?.getD "" := by
  rw [value, ← List.head?_filter, List.filter_reverse, List.head?_reverse, List.getLast?_map]

/-- What a line says of a field. -/
theorem keyValue?_value? (f : Field) (l : Line) :
    ((keyValue? l.text).filter fun e => e.1 == f.key).map (·.2) = l.value? f := by
  cases l with
  | entry e =>
    simp only [Line.text, keyValue?_entry, Line.value?]
    by_cases h : e.field = f
    · simp [h, Option.filter]
    · have hkey : e.field.key ≠ f.key := fun hkey => h (Field.key_inj hkey)
      simp [h, hkey, Option.filter]
  | remark r =>
    simp only [Line.text, Line.value?]
    cases h : keyValue? r.text with
    | none => rfl
    | some e => simp [Option.filter, keyValue?_remark r f h]

/-- **The value of a field is the one it was given last.** -/
theorem value_text (p : Printout) (f : Field) : value (entries p.text) f.key = p.last f := by
  rw [value_eq, entries_text, List.filter_filterMap, List.map_filterMap, Printout.last,
    Printout.values]
  simp only [keyValue?_value?]

/-- The identity with the values of the fields. -/
def identity (v : Field → String) (sku : Option Nat) : ConfigId :=
  { platform := v .platform
    model := v .model
    sku := sku
    brand := v .brand
    customization := v .customization }

/-- The error of an output without a model. -/
def noModel (output : String) : Error :=
  .validation ("crosid did not report a model: " ++ quoted (trim output))

/-- The identity is made of the values alone. -/
theorem parse_eq {output : String} {v : Field → String}
    (h : ∀ f : Field, value (entries output) f.key = v f) :
    parse output = if v .model = "" then .error (noModel output)
      else (readSku (v .sku)).map (identity v) := by
  have hplatform : value (entries output) "PLATFORM_NAME" = v .platform := h .platform
  have hmodel : value (entries output) "MODEL" = v .model := h .model
  have hsku : value (entries output) "SKU" = v .sku := h .sku
  have hbrand : value (entries output) "BRAND_CODE" = v .brand := h .brand
  have hcustomization : value (entries output) "CUSTOMIZATION_ID" = v .customization :=
    h .customization
  simp only [parse, hplatform, hmodel, hsku, hbrand, hcustomization, String.isEmpty_iff]
  split
  · rfl
  · cases readSku (v .sku) <;> rfl

theorem readSku_toString {n : Nat} (h : n < Nat.pow 2 32) :
    readSku (toString n) = .ok (some n) := by
  have hne : (toString n).isEmpty = false := by
    rw [Bool.eq_false_iff, ne_eq, String.isEmpty_iff, ← String.toList_inj, toList_toString]
    exact Nat.toDigits_ne_nil
  rw [readSku, hne, readNumeral_toString h]
  rfl

/-! ## Order -/

/-- The order of the lines does not matter, but for those that give one field several values. -/
theorem last_of_perm {p q : Printout} (h : p.lines.Perm q.lines)
    (horder : ∀ f, (p.values f).length ≤ 1 ∨ q.values f = p.values f) (f : Field) :
    q.last f = p.last f := by
  suffices hvalues : q.values f = p.values f by rw [Printout.last, Printout.last, hvalues]
  rcases horder f with hlen | hsame
  · have hperm : (p.values f).Perm (q.values f) := h.filterMap _
    match hv : p.values f, hlen with
    | [], _ =>
      rw [hv] at hperm
      exact List.nil_perm.1 hperm
    | [a], _ =>
      rw [hv] at hperm
      exact (List.singleton_perm.1 hperm).symm
  · exact hsame

/-- **A printed identity is read back.** Each field has the value that it was given last, whatever
    white space stands around the lines, the keys and the quoted values, however the lines are ended
    and whatever other lines there are. The model must not be empty; the SKU is none if it is empty
    and else the number that is printed. The order of the lines does not matter, but for those that
    give one field several values. -/
theorem parse_printout :
    (∀ p : Printout, p.last .model ≠ "" →
      (p.last .sku = "" → parse p.text = .ok (identity p.last none)) ∧
      ∀ n < Nat.pow 2 32, p.last .sku = toString n →
        parse p.text = .ok (identity p.last (some n))) ∧
    (∀ p : Printout, p.last .model = "" → parse p.text = .error (noModel p.text)) ∧
    ∀ p q : Printout, p.lines.Perm q.lines →
      (∀ f, (p.values f).length ≤ 1 ∨ q.values f = p.values f) →
      q.last = p.last ∧ (p.last .model ≠ "" → parse q.text = parse p.text) := by
  refine ⟨fun p hmodel => ⟨fun hsku => ?_, fun n hn hsku => ?_⟩, fun p hmodel => ?_,
    fun p q hperm horder => ?_⟩
  · rw [parse_eq (value_text p), if_neg hmodel, hsku]
    rfl
  · rw [parse_eq (value_text p), if_neg hmodel, hsku, readSku_toString hn]
    rfl
  · rw [parse_eq (value_text p), if_pos hmodel]
  · have hlast : q.last = p.last := funext (last_of_perm hperm horder)
    refine ⟨hlast, fun hmodel => ?_⟩
    rw [parse_eq (value_text p), parse_eq (value_text q), hlast, if_neg hmodel, if_neg hmodel]

/-- A printout with white space in odd places, lines that tell nothing, and two values for the
    SKU. -/
def untidy : Printout where
  ended := [
    (.entry { field := .sku, value := "7" }, .returnFeed),
    (.remark { text := " CONFIG_INDEX ='3'".toList }, .feed),
    (.entry { field := .model, value := " draw=cia ", before := [' ', '\t'], behindKey := [' '],
              beforeValue := ['\u3000'], behind := ['\r'] }, .returnFeed),
    (.remark { text := "MODEL".toList }, .feed),
    (.entry { field := .brand, value := "it's" }, .feed)]
  rest := some (.entry { field := .sku, value := "163840" })

/-- The same with its last two lines the other way round. -/
def turned : Printout where
  ended := untidy.ended.take 4 ++ [(.entry { field := .sku, value := "163840" }, .returnFeed)]
  rest := some (.entry { field := .brand, value := "it's" })

theorem parse_printout_untidy :
    parse untidy.text = .ok { platform := "", model := " draw=cia ", sku := some 163840
                              brand := "it's", customization := "" } ∧
    (∃ text, parse { ended := [], rest := none : Printout }.text = .error (.validation text)) ∧
    parse turned.text = parse untidy.text := by
  obtain ⟨hread, hnone, horder⟩ := parse_printout
  refine ⟨?_, ⟨_, hnone _ rfl⟩, ?_⟩
  · exact (hread untidy (by decide)).2 163840 (by decide) (by decide)
  · have hperm : untidy.lines.Perm turned.lines :=
      (List.Perm.swap ..).append_left (untidy.lines.take 4)
    exact (horder untidy turned hperm (by decide)).2 (by decide)

end Reimage.ConfigId
