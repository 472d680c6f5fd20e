/-
  The report of an installation as a JSON document.

  * `Response.compact` and `Response.pretty` write it, leaving out optional fields without a value;
  * `Response.parse?` reads it: an object whose unknown keys are ignored and whose known keys occur
    once, or an array of the fields in order.
-/
import Reimage.Json
import Reimage.Request

namespace Reimage.Response

/-! ## Writing -/

/-- The fields that have a value, in order. -/
def fields (r : Response) : List (String × String) :=
  [("dut", r.dut), ("status", r.status.text)]
    ++ (r.failedState.map fun s => ("failed_state", s)).toList
    ++ (r.error.map fun s => ("error", s)).toList

/-- The report as a JSON value. -/
def toJson (r : Response) : Json :=
  .object (r.fields.map fun (name, value) => (some name.toList, Json.ofString value))

/-- The document on one line. -/
def compact (r : Response) : String := String.ofList r.toJson.text

/-- One field on a line of its own. -/
def prettyField (field : String × String) : List Char :=
  ['\n', ' ', ' '] ++ Json.stringText field.1.toList ++ [':', ' ']
    ++ Json.stringText field.2.toList

/-- The document with one field a line, indented by two spaces. -/
def pretty (r : Response) : String :=
  String.ofList (['\x7b'] ++ [','].intercalate (r.fields.map prettyField) ++ ['\n', '\x7d'])

/-! ## Reading -/

/-- A required text. -/
def text? : Json → Option String
  | .string (some s) => some (String.ofList s)
  | _ => none

/-- An optional text, of which null is none. -/
def optionalText? : Json → Option (Option String)
  | .null => some none
  | .string (some s) => some (some (String.ofList s))
  | _ => none

/-- A status: its text, or an object that has the text as its one key, with the value null. -/
def status? : Json → Option Status
  | .string (some s) => Status.ofText? (String.ofList s)
  | .object [(some s, .null)] => Status.ofText? (String.ofList s)
  | _ => none

/-- The fields read so far. -/
structure Partial where
  dut : Option String := none
  status : Option Status := none
  failedState : Option (Option String) := none
  error : Option (Option String) := none

/-- Reads one member of an object. A known key must be new. -/
def Partial.add? (p : Partial) (key : String) (v : Json) : Option Partial :=
  if key = "dut" then
    if p.dut.isSome then none else (text? v).map fun x => { p with dut := some x }
  else if key = "status" then
    if p.status.isSome then none else (status? v).map fun x => { p with status := some x }
  else if key = "failed_state" then
    if p.failedState.isSome then none
    else (optionalText? v).map fun x => { p with failedState := some x }
  else if key = "error" then
    if p.error.isSome then none else (optionalText? v).map fun x => { p with error := some x }
  else some p

/-- Reads the members of an object. -/
def Partial.addAll? (p : Partial) : List (Option (List Char) × Json) → Option Partial
  | [] => some p
  | (none, _) :: _ => none
  | (some key, v) :: rest => (p.add? (String.ofList key) v).bind fun q => q.addAll? rest

/-- Reads a report from a JSON value. -/
def ofJson? : Json → Option Response
  | .object members => do
    let p ← Partial.addAll? {} members
    some { dut := ← p.dut, status := ← p.status
           failedState := p.failedState.join, error := p.error.join }
  | .array items => do
    let (dut, status, failedState, error) ← match items with
      | [d, s] => some (d, s, Json.null, Json.null)
      | [d, s, f] => some (d, s, f, Json.null)
      | [d, s, f, e] => some (d, s, f, e)
      | _ => none
    some { dut := ← text? dut, status := ← status? status
           failedState := ← optionalText? failedState, error := ← optionalText? error }
  | _ => none

/-- Reads a report. -/
def parse? (document : String) : Option Response :=
  (Json.parse? document.toList).bind ofJson?

end Reimage.Response
