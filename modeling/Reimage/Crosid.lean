/-
  The identity of a device's configuration, as printed on the device in lines `KEY='value'`.

  Lines in any order; white space around the line, the key and the value does not count, nor do
  single quotes around the value. A key printed twice has its last value.
-/
import Reimage.Error
import Reimage.Text.Blank
import Reimage.Text.Numeral
import Reimage.Text.Quoted

namespace Reimage

/-- The identity of a device's configuration. -/
structure ConfigId where
  platform : String
  model : String
  sku : Option Nat
  brand : String
  customization : String
  deriving DecidableEq, Repr, Inhabited

namespace ConfigId

/-- Removes single quotes at both ends. -/
def unquote (s : List Char) : List Char :=
  Text.dropEndWhile (· == '\x27') (s.dropWhile (· == '\x27'))

/-- The key and value of a line, if it has an equals sign. -/
def keyValue? (line : List Char) : Option (String × String) :=
  (Text.splitOnceChars '=' (Text.trimChars line)).map fun (key, value) =>
    (String.ofList (Text.trimChars key), String.ofList (unquote (Text.trimChars value)))

/-- The entries of a printed identity, in order. -/
def entries (output : String) : List (String × String) :=
  (Text.lineChars output.toList).filterMap keyValue?

/-- The last value of a key, empty if there is none. -/
def value (entries : List (String × String)) (key : String) : String :=
  ((entries.reverse.find? fun e => e.1 == key).map (·.2)).getD ""

/-- Reads a SKU, which may be left empty. -/
def readSku (text : String) : Result (Option Nat) :=
  if text.isEmpty then .ok none
  else match Text.readNumeral (Nat.pow 2 32) text.toList with
    | .ok n => .ok (some n)
    | .error e =>
      .error (.validation ("invalid SKU " ++ Text.quoted text ++ ": " ++ e.message))

/-- Reads a printed identity. Only the model is required. -/
def parse (output : String) : Result ConfigId := do
  let values := entries output
  let model := value values "MODEL"
  if model.isEmpty then
    .error (.validation ("crosid did not report a model: " ++ Text.quoted (Text.trim output)))
  else
    let sku ← readSku (value values "SKU")
    .ok { platform := value values "PLATFORM_NAME"
          model := model
          sku := sku
          brand := value values "BRAND_CODE"
          customization := value values "CUSTOMIZATION_ID" }

end ConfigId

end Reimage
