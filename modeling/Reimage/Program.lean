/-
  Programs that talk to their surroundings.

  A program either is done or asks a question and goes on with the answer. What answers (a device, a
  scripted device, an arbitrary sequence of answers) is not part of the program, so one definition
  is run and reasoned about.

  * programs over one kind of question form a monad;
  * `Program.interpret` runs a program where every question has an answer in some monad.
-/
namespace Reimage

/-- A program over questions `Q`, where an answer to `q` is an `A q`. -/
inductive Program (Q : Type) (A : Q → Type) (α : Type) where
  /-- The program has ended with a result. -/
  | done (result : α)
  /-- The program asks `q` and goes on with the answer. -/
  | ask (q : Q) (next : A q → Program Q A α)

namespace Program

variable {Q : Type} {A : Q → Type} {α β γ : Type}

/-- Goes on with another program. -/
def bind : Program Q A α → (α → Program Q A β) → Program Q A β
  | done result, f => f result
  | ask q next, f => ask q fun answer => bind (next answer) f

/-- Changes the result. -/
def map (f : α → β) (p : Program Q A α) : Program Q A β := bind p fun a => done (f a)

instance : Monad (Program Q A) where
  pure := done
  bind := bind

/-- Asks one question. -/
def query (q : Q) : Program Q A (A q) := ask q done

/-- Runs a program, given an answer to every question. -/
def interpret {m : Type → Type} [Monad m] (answer : (q : Q) → m (A q)) :
    Program Q A α → m α
  | done result => pure result
  | ask q next => do interpret answer (next (← answer q))

/-- Replaces every question by a program over other questions. -/
def substitute {R : Type} {B : R → Type} (f : (q : Q) → Program R B (A q)) :
    Program Q A α → Program R B α
  | done result => done result
  | ask q next => bind (f q) fun answer => substitute f (next answer)

end Program

end Reimage
