/-
  Named operations that outlive the call that started them.

  * `Registry` holds the operations of a service by name. Results are recorded once, and closing the
    registry forgets every operation and refuses new ones. Each of its functions is one atomic step,
    but that `setResult` and `close` notify the waiters in a second one;
  * `Waiter` is a task that waits for an operation. It subscribes to notifications before it looks
    at the operation, so a result that is recorded between the look and the sleep wakes it.

  A notification is a count: every recorded result and the closing of the registry add one, and a
  waiter is notified once the count exceeds the one it subscribed at.
-/
import Reimage.Error
import Reimage.Log
import Reimage.Text.Blank

namespace Reimage

/-- What an operation that succeeded reports. -/
inductive OperationResponse
  | restart (output : String)
  | cache
  | forceReconnect
  deriving DecidableEq, Repr, Inhabited

/-- What an operation that failed reports. -/
structure OperationFailure where
  kind : ErrorKind
  message : String
  deriving DecidableEq, Repr, Inhabited

/-- The report of an error. -/
def OperationFailure.ofError (e : Error) : OperationFailure := ⟨e.kind, e.message⟩

/-- How an operation ended. -/
abbrev OperationResult := Except OperationFailure OperationResponse

/-- An operation as its registry knows it. -/
structure Operation where
  name : String
  done : Bool := false
  result : Option OperationResult := none
  deriving Inhabited

namespace Operation

/-- What the name of every operation starts with. -/
def nameStart : String := "operations/"

/-- A row of 32 hexadecimal digits with the dashes of a universally unique identifier. -/
def dashed (digits : List Char) : List Char :=
  ['-'].intercalate [digits.take 8, (digits.drop 8).take 4, (digits.drop 12).take 4,
    (digits.drop 16).take 4, digits.drop 20]

/-- The name made from 128 random bits: a universally unique identifier of version 4. -/
def nameOf (bits : Nat) : String :=
  let digit := fun n => if n = 12 then '4'
    else if n = 16 then Nat.digitChar (8 + bits / Nat.pow 16 15 % 4)
    else Nat.digitChar (bits / Nat.pow 16 (31 - n) % 16)
  nameStart ++ String.ofList (dashed ((List.range 32).map digit))

/-- Whether a name is that of an operation. -/
def isName (name : String) : Bool :=
  match Text.dropStart? nameStart.toList name.toList with
  | none => false
  | some id =>
    let digits := id.filter (· != '-')
    id == dashed digits && decide (digits.length = 32)
      && digits.all (fun c => c.isDigit || ('a' ≤ c && c ≤ 'f'))
      && digits[12]? == some '4'
      && (digits[16]?.map ['8', '9', 'a', 'b'].contains).getD false

end Operation

/-- The operations of a service, in the order they were registered. -/
structure Registry where
  operations : List Operation := []
  closed : Bool := false
  /-- How often waiters were notified. -/
  notified : Nat := 0
  deriving Inhabited

namespace Registry

def find? (r : Registry) (name : String) : Option Operation :=
  r.operations.find? fun op => op.name == name

def notFound (name : String) : Error := .notFound ("operation " ++ name)

/-- Registers a new operation under the first candidate that names no other. With none left, nothing
    happens and more candidates are needed. -/
def register (r : Registry) (candidates : List String) : Option (Registry × Result Operation) :=
  if r.closed then some (r, .error (.operation "operation manager is closed"))
  else (candidates.find? fun name => (r.find? name).isNone).map fun name =>
    let op : Operation := { name := name }
    ({ r with operations := r.operations ++ [op] }, .ok op)

def get (r : Registry) (name : String) : Result Operation :=
  match r.find? name with
  | some op => .ok op
  | none => .error (notFound name)

/-- Puts a result into the operation called `name`. -/
def record (name : String) (result : OperationResult) (op : Operation) : Operation :=
  if op.name == name then { op with done := true, result := some result } else op

/-- Makes every waiter look again. -/
def notify (r : Registry) : Registry := { r with notified := r.notified + 1 }

/-- Records the result of an operation. A second one is refused and leaves the first. -/
def finish (r : Registry) (name : String) (result : OperationResult) :
    Registry × Result Unit × List LogLine :=
  match r.find? name with
  | none => (r, .error (notFound name), [])
  | some op =>
    if op.done then
      (r, .error (.operation (name ++ " already has a result")),
        [.warn ("Ignoring second result for " ++ name)])
    else ({ r with operations := r.operations.map (record name result) }, .ok (), [])

/-- Ends an operation and notifies the waiters. -/
def setResult (r : Registry) (name : String) (result : OperationResult) :
    Registry × Result Unit × List LogLine :=
  match r.finish name result with
  | (r, .ok (), log) => (r.notify, .ok (), log)
  | refused => refused

/-- How many operations have no result yet. -/
def pending (r : Registry) : Nat := (r.operations.filter fun op => !op.done).length

/-- Forgets every operation and refuses new ones. -/
def clear (r : Registry) : Registry × List LogLine :=
  let log := if r.pending = 0 then []
    else [.warn ("Closing operation manager with " ++ toString r.pending ++ " pending operations")]
  ({ r with operations := [], closed := true }, log)

/-- Closes a registry and notifies the waiters. -/
def close (r : Registry) : Registry × List LogLine :=
  let (r, log) := r.clear
  (r.notify, log)

end Registry

/-- A task that waits for an operation until a deadline. -/
inductive Waiter
  /-- About to subscribe. -/
  | start
  /-- Subscribed when the count of notifications was `seen`, and about to look. -/
  | subscribed (seen : Nat)
  /-- Found the operation pending and sleeps. -/
  | asleep (seen : Nat)
  /-- Woken by the deadline, about to look a last time. -/
  | expired
  | returned (answer : Result Operation)

namespace Waiter

/-- The next step of a waiter. A sleeping waiter takes none unless it was notified or its deadline
    has passed. -/
def step (r : Registry) (name : String) (late : Bool) : Waiter → Waiter
  | start => subscribed r.notified
  | subscribed seen =>
    match r.get name with
    | .error e => returned (.error e)
    | .ok op => if op.done then returned (.ok op) else asleep seen
  | asleep seen =>
    if seen < r.notified then start else if late then expired else asleep seen
  | expired => returned (r.get name)
  | returned answer => returned answer

/-- Steps a waiter takes while nothing else happens, until it sleeps or has returned: from any state
    it takes at most five. -/
def settle (r : Registry) (name : String) (late : Bool) (w : Waiter) : Waiter :=
  Nat.repeat (step r name late) 5 w

end Waiter

end Reimage
