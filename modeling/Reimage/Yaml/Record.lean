/-
  Reading typed values out of a YAML document.

  Every function follows aliases. A text may be any scalar, whatever its style; booleans and
  numbers must be plain. A collection that is not written at all is empty. In a record, unknown
  fields do not count and a known one may stand only once.
-/
import Reimage.Yaml.Node
import Reimage.Yaml.Scalar

namespace Reimage.Yaml

/-- Reads a value from a node of a document. -/
abbrev Value (α : Type) := Document → Node → Except Fault α

namespace Value

/-- A text: any scalar. -/
def text : Value String := fun d n =>
  match d.resolve n with
  | .scalar _ _ text => .ok text
  | _ => .error (.unexpected "a text")

/-- The tag of a value type of the language itself. -/
def coreTag (name : String) : String := "tag:yaml.org,2002:" ++ name

/-- A text that may be missing: null or nothing is none. -/
def text? : Value (Option String) := fun d n =>
  match d.resolve n with
  | .scalar .plain none text => .ok (if text.isEmpty || isNull text then none else some text)
  | .scalar .plain (some tag) text =>
    if tag = coreTag "null" then
      if isNull text then .ok none else .error (.unexpected "null")
    else .ok (some text)
  | .scalar _ _ text => .ok (some text)
  | _ => .error (.unexpected "a text")

/-- The text of a scalar that may be a value of the type with a tag: a plain one, or a literal one
    that says so. -/
def typed (name : String) (d : Document) (n : Node) : Option String :=
  match d.resolve n with
  | .scalar .plain _ text => some text
  | .scalar .literal tag text => if tag = some (coreTag name) then some text else none
  | _ => none

def flag : Value Bool := fun d n =>
  match (typed "bool" d n).bind readBool? with
  | some b => .ok b
  | none => .error (.unexpected "a boolean")

/-- An unsigned integer below a limit. -/
def unsigned (limit : Nat) : Value Nat := fun d n =>
  match (typed "int" d n).bind fun s => readUnsigned? limit s.toList with
  | some k => .ok k
  | none => .error (.unexpected ("an integer below " ++ toString limit))

def float : Value Binary64 := fun d n =>
  match (typed "float" d n).bind fun s => readFloat? s.toList with
  | some x => .ok x
  | none => .error (.unexpected "a number")

/-- Whether a collection is not written at all. -/
def isUnwritten : Node → Bool
  | .scalar .plain _ text => text.isEmpty
  | _ => false

/-- A sequence. -/
def list {α : Type} (item : Value α) : Value (List α) := fun d n =>
  match d.resolve n with
  | .sequence items => items.mapM (item d)
  | m => if isUnwritten m then .ok [] else .error (.unexpected "a sequence")

/-- The entries of a mapping, in order. -/
def entries (d : Document) (n : Node) : Except Fault (List (Node × Node)) :=
  match d.resolve n with
  | .mapping es => .ok es
  | m => if isUnwritten m then .ok [] else .error (.unexpected "a mapping")

/-- A mapping from texts to values, in order and with repetitions. -/
def pairs {α : Type} (value : Value α) : Value (List (String × α)) := fun d n => do
  (← entries d n).mapM fun (k, v) => do .ok (← text d k, ← value d v)

end Value

/-- The fields of a record. -/
structure Record where
  document : Document
  fields : List (String × Node)

namespace Record

/-- The first of some names that occurs more than once. -/
def repeated? (known : List String) (names : List String) : Option String :=
  known.find? fun name => decide (1 < names.count name)

/-- Reads the fields of a record with the given names. -/
def read (known : List String) (d : Document) (n : Node) : Except Fault Record := do
  let fields ← (← Value.entries d n).mapM fun (k, v) => do .ok (← Value.text d k, v)
  match repeated? known (fields.map (·.1)) with
  | some name => .error (.repeatedField name)
  | none => .ok ⟨d, fields⟩

/-- A field that must be there. -/
def required {α : Type} (r : Record) (name : String) (value : Value α) : Except Fault α :=
  match r.fields.lookup name with
  | some n => value r.document n
  | none => .error (.missingField name)

/-- A field with a value for when it is not there. -/
def optional {α : Type} (r : Record) (name : String) (value : Value α) (default : α) :
    Except Fault α :=
  match r.fields.lookup name with
  | some n => value r.document n
  | none => .ok default

end Record

end Reimage.Yaml
