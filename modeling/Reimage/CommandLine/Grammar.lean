/-
  Reading the arguments of a command.

  A grammar says which options a command has, how many words it needs, and whether more words may
  follow, as in a command line that is passed on. Arguments are taken one at a time:

  * `--name`, `--name=value`, and short options in one argument such as `-x` or `-xvalue` are
    options, wherever they stand; `--` ends them;
  * where more words may follow, the first of them ends the options too, and it may look like an
    option that the grammar does not have;
  * an option is given at most once, and every command has `--help`.
-/
import Reimage.Text.Blank

namespace Reimage.CommandLine

/-- Why arguments were not read to their end. -/
inductive Refusal
  /-- They do not fit the grammar. -/
  | misuse
  /-- They ask for help. -/
  | help
  deriving DecidableEq, Repr, Inhabited

/-- What comes with an option. -/
inductive OptionKind
  /-- Nothing. -/
  | flag
  /-- A value of a certain form. -/
  | value (accepts : String → Bool)
  /-- Nothing, and it asks for help. -/
  | help

structure OptionSpec where
  name : String
  short : Option Char := none
  kind : OptionKind := .value fun _ => true

/-- The arguments of a command. -/
structure Grammar where
  options : List OptionSpec := []
  /-- How many words are needed. -/
  words : Nat := 0
  /-- Whether more words may follow. -/
  more : Bool := false

/-- What was read. -/
structure Matches where
  flags : List String := []
  values : List (String × String) := []
  words : List String := []
  /-- The words after those that are needed. -/
  more : List String := []
  deriving DecidableEq, Repr, Inhabited

/-- Arguments read in part. -/
structure Reading where
  found : Matches := {}
  /-- An option whose value is the next argument. -/
  pending : Option OptionSpec := none
  /-- Whether the options have ended. -/
  wordsOnly : Bool := false

namespace Grammar

/-- The option that asks for help. -/
def helpOption : OptionSpec := { name := "help", short := some 'h', kind := .help }

def named? (g : Grammar) (name : List Char) : Option OptionSpec :=
  (g.options ++ [helpOption]).find? fun o => o.name.toList == name

def short? (g : Grammar) (c : Char) : Option OptionSpec :=
  (g.options ++ [helpOption]).find? fun o => o.short == some c

end Grammar

namespace Reading

/-- Takes an option that is complete. -/
def takeOption (s : Reading) (o : OptionSpec) (value : Option String) : Except Refusal Reading :=
  if s.pending.isSome then .error .misuse
  else match o.kind, value with
    | .help, none => .error .help
    | .flag, none =>
      if s.found.flags.contains o.name then .error .misuse
      else .ok { s with found := { s.found with flags := s.found.flags ++ [o.name] } }
    | .value accepts, some v =>
      if (s.found.values.lookup o.name).isSome || !accepts v then .error .misuse
      else .ok { s with found := { s.found with values := s.found.values ++ [(o.name, v)] } }
    | .value _, none => .ok { s with pending := some o }
    | _, some _ => .error .misuse

/-- Whether the next word is one of those that may follow. -/
def awaitsMore (g : Grammar) (s : Reading) : Bool :=
  g.more && decide (g.words ≤ s.found.words.length)

/-- Takes a word. -/
def takeWord (g : Grammar) (s : Reading) (word : String) : Except Refusal Reading :=
  if s.pending.isSome then .error .misuse
  else if s.found.words.length < g.words then
    .ok { s with found := { s.found with words := s.found.words ++ [word] } }
  else if g.more then
    .ok { s with found := { s.found with more := s.found.more ++ [word] }, wordsOnly := true }
  else .error .misuse

/-- Takes an argument that is no option: the value of the option before it, or a word. -/
def takePlain (g : Grammar) (s : Reading) (argument : String) : Except Refusal Reading :=
  match s.pending with
  | some o => { s with pending := none }.takeOption o (some argument)
  | none => s.takeWord g argument

/-- The name in an option and the value after an equals sign. -/
def splitOption (option : List Char) : List Char × Option String :=
  match Text.splitOnceChars '=' option with
  | some (name, value) => (name, some (String.ofList value))
  | none => (option, none)

/-- Takes the short options in one argument. What follows an option with a value is the value; an
    equals sign between them does not count. -/
def takeShort (g : Grammar) (s : Reading) : List Char → Except Refusal Reading
  | [] => .ok s
  | c :: rest =>
    match g.short? c with
    | none => .error .misuse
    | some o =>
      match o.kind, rest with
      | .value _, '=' :: value => s.takeOption o (some (String.ofList value))
      | .value _, v :: value => s.takeOption o (some (String.ofList (v :: value)))
      | _, rest => do takeShort g (← s.takeOption o none) rest

/-- Takes one argument. -/
def take (g : Grammar) (s : Reading) (argument : String) : Except Refusal Reading :=
  if s.wordsOnly then s.takeWord g argument
  else match argument.toList with
    | ['-', '-'] => .ok { s with wordsOnly := true }
    | '-' :: '-' :: option =>
      let (name, value) := splitOption option
      match g.named? name with
      | some o => s.takeOption o value
      | none => if s.awaitsMore g then s.takePlain g argument else .error .misuse
    | '-' :: c :: rest =>
      if s.awaitsMore g && (c :: rest).any fun c => (g.short? c).isNone then
        s.takePlain g argument
      else s.takeShort g (c :: rest)
    | _ => s.takePlain g argument

end Reading

/-- Reads all arguments of a command. -/
def Grammar.read (g : Grammar) (arguments : List String) : Except Refusal Matches := do
  let s ← arguments.foldlM (Reading.take g) {}
  if s.pending.isSome || s.found.words.length < g.words then .error .misuse else .ok s.found

namespace Matches

def has (m : Matches) (name : String) : Bool := m.flags.contains name

def value? (m : Matches) (name : String) : Option String := m.values.lookup name

/-- The value of an option that must be given. -/
def required (m : Matches) (name : String) : Except Refusal String :=
  match m.value? name with
  | some value => .ok value
  | none => .error .misuse

/-- A word that is needed. -/
def word (m : Matches) (index : Nat) : Except Refusal String :=
  match m.words[index]? with
  | some word => .ok word
  | none => .error .misuse

/-- Refuses two things that exclude each other. -/
def exclude (first second : Bool) : Except Refusal Unit :=
  if first && second then .error .misuse else .ok ()

end Matches

end Reimage.CommandLine
