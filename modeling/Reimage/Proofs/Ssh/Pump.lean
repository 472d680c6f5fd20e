/-
  What gets across in the exchange with a command.

  A channel may answer a call with anything. A conversation is the calls of a program with their
  answers, so a statement about all conversations is about every channel.

  * `Talks`: the conversations of a program;
  * `Pump.Inv`: between two calls, what was read is held and the rest of the input is still due;
    `Pump.Inv.step`: so it stays, whatever the next call is answered;
  * `Pump.over_complete`: once the exchange is over, all output was read, and all input was written
    unless the exchange has broken off;
  * `Pump.over_incomplete`: it may break off, and then input is lost.
-/
import Reimage.Program
import Reimage.Ssh.Pump
import Mathlib.Data.List.Basic

namespace Reimage.Ssh

/-! ## Conversations -/

/-- A call on a channel with its answer. -/
structure Called where
  call : ChannelCall
  answer : call.Answer

/-- The calls of a program, one after the other, whatever they are answered. -/
inductive Talks {α : Type} : Program ChannelCall ChannelCall.Answer α → List Called → α → Prop
  | done (a : α) : Talks (.done a) [] a
  | ask {c : ChannelCall} {next : c.Answer → Program ChannelCall ChannelCall.Answer α}
    {tr : List Called} {r : α} (a : c.Answer) : Talks (next a) tr r →
    Talks (.ask c next) (⟨c, a⟩ :: tr) r

section

variable {α β : Type} {tr : List Called}

theorem talks_pure {a r : α} : Talks (pure a) tr r ↔ tr = [] ∧ r = a := by
  constructor
  · intro h
    cases h
    exact ⟨rfl, rfl⟩
  · rintro ⟨rfl, rfl⟩
    exact .done _

/-- A conversation of two programs is one of each. -/
theorem talks_bind {p : Program ChannelCall ChannelCall.Answer α}
    {f : α → Program ChannelCall ChannelCall.Answer β} {r : β} :
    Talks (p >>= f) tr r ↔ ∃ t a u, tr = t ++ u ∧ Talks p t a ∧ Talks (f a) u r := by
  constructor
  · intro h
    induction p generalizing tr with
    | done a => exact ⟨[], a, tr, rfl, .done a, h⟩
    | ask c next ih =>
      cases h with
      | ask a h =>
        obtain ⟨t, b, u, rfl, ht, hu⟩ := ih a h
        exact ⟨_, b, u, rfl, .ask a ht, hu⟩
  · rintro ⟨t, a, u, rfl, ht, hu⟩
    induction ht with
    | done a => exact hu
    | ask a _ ih => exact .ask a (ih hu)

/-- What comes of one call. -/
theorem talks_call {c : ChannelCall} {f : c.Answer → α} {r : α} :
    Talks (Program.query c >>= fun a => pure (f a)) tr r ↔ ∃ a, tr = [⟨c, a⟩] ∧ r = f a := by
  constructor
  · intro h
    cases h with
    | ask a h =>
      obtain ⟨rfl, rfl⟩ := talks_pure.1 h
      exact ⟨a, rfl, rfl⟩
  · rintro ⟨a, rfl, rfl⟩
    exact .ask a (.done _)

end

/-! ## What gets across -/

/-- What the remote side gets to see of the input. -/
inductive Fed
  | byte (b : UInt8)
  | ended
  deriving DecidableEq

/-- All of an input, and then its end. -/
def allOf (input : List UInt8) : List Fed := input.map .byte ++ [.ended]

namespace Called

/-- What a call feeds to the remote side. -/
def fed : Called → List Fed
  | ⟨.write bytes, .done count⟩ => (bytes.take count).map .byte
  | ⟨.endInput, .done ()⟩ => [.ended]
  | _ => []

/-- The output that a call reads. -/
def output : Called → List UInt8
  | ⟨.readStdout, .done bytes⟩ => bytes
  | _ => []

/-- The error output that a call reads. -/
def errors : Called → List UInt8
  | ⟨.readStderr, .done bytes⟩ => bytes
  | _ => []

/-- A write or a read by which nothing moved. -/
def idle : Called → Bool
  | ⟨.write _, .done count⟩ => count == 0
  | ⟨.readStdout, .done bytes⟩ | ⟨.readStderr, .done bytes⟩ => bytes.isEmpty
  | ⟨.write _, .wouldBlock⟩ | ⟨.readStdout, .wouldBlock⟩ | ⟨.readStderr, .wouldBlock⟩ => true
  | _ => false

/-- A call did not fail for good, and a write took no more than it was given. -/
def sound : Called → Bool
  | ⟨.write bytes, .done count⟩ => count ≤ bytes.length
  | ⟨.write _, .failed _⟩ | ⟨.endInput, .failed _⟩ => false
  | ⟨.readStdout, .failed _⟩ | ⟨.readStderr, .failed _⟩ => false
  | _ => true

/-- The channel told that the remote side has ended its output. -/
def sawEnd : Called → Bool
  | ⟨.atEnd, atEnd⟩ => atEnd
  | _ => false

end Called

/-- What the calls feed to the remote side. -/
def fed (tr : List Called) : List Fed := tr.flatMap Called.fed

/-- What they read. -/
def output (tr : List Called) : List UInt8 := tr.flatMap Called.output

def errors (tr : List Called) : List UInt8 := tr.flatMap Called.errors

/-- A piece of what a remote side sends, on one of its two streams. -/
structure Packet where
  isError : Bool
  bytes : List UInt8

/-- What arrives as output. -/
def sentOutput (packets : List Packet) : StderrMode → List UInt8
  | .separate => (packets.filter fun x => !x.isError).flatMap Packet.bytes
  | .combined => packets.flatMap Packet.bytes

/-- What arrives as error output. -/
def sentErrors (packets : List Packet) : StderrMode → List UInt8
  | .separate => (packets.filter Packet.isError).flatMap Packet.bytes
  | .combined => []

/-- A channel without hard errors. No write takes more than it was given, what is read is what was
    sent, in pieces, and its end is told only when all of it was read. -/
structure Sound (packets : List Packet) (mode : StderrMode) (tr : List Called) : Prop where
  calls : ∀ e ∈ tr, e.sound = true
  output : output tr <+: sentOutput packets mode
  errors : errors tr <+: sentErrors packets mode
  atEnd : ∀ t e u, tr = t ++ e :: u → e.sawEnd = true →
    Ssh.output t = sentOutput packets mode ∧ Ssh.errors t = sentErrors packets mode

theorem eq_of_sawEnd {tr t u : List Called} {e : Called} (hcalls : ∀ e ∈ tr, e.sawEnd = false)
    (heq : tr ++ [⟨.atEnd, true⟩] = t ++ e :: u) (hend : e.sawEnd = true) : t = tr := by
  obtain rfl | ⟨u, last, rfl⟩ := List.eq_nil_or_concat u
  · exact (List.append_inj' heq rfl).1.symm
  · have heq' : tr ++ [⟨.atEnd, true⟩] = (t ++ e :: u) ++ [last] := by simpa using heq
    obtain ⟨rfl, -⟩ := List.append_inj' heq' rfl
    have hnot := hcalls e (List.mem_append_right t (List.mem_cons_self ..))
    exact absurd (hend.symm.trans hnot) (by decide)

/-- Where the end is seen in the last call only, it is enough to look at what was read before. -/
theorem Sound.of_last {packets : List Packet} {mode : StderrMode} {tr : List Called}
    (hsound : ∀ e ∈ tr, e.sound = true) (hend : ∀ e ∈ tr, e.sawEnd = false)
    (hout : Ssh.output tr = sentOutput packets mode)
    (herr : Ssh.errors tr = sentErrors packets mode) :
    Sound packets mode (tr ++ [⟨.atEnd, true⟩]) where
  calls := by
    intro e he
    obtain he | he := List.mem_append.1 he
    · exact hsound e he
    · rw [List.mem_singleton.1 he]
      rfl
  output := by
    rw [← hout]
    simp [Ssh.output, Called.output]
  errors := by
    rw [← herr]
    simp [Ssh.errors, Called.errors]
  atEnd := by
    intro t e u heq hsaw
    rw [eq_of_sawEnd hend heq hsaw]
    exact ⟨hout, herr⟩

/-! ## What holds between two calls -/

namespace Pump

/-- What is still to be fed to the remote side. -/
def due (p : Pump) : List Fed := if p.inputEnded then [] else allOf p.input

/-- The last calls were a write of the input `rest` and reads, and nothing moved. -/
def Stuck (rest : List UInt8) (tr : List Called) : Prop :=
  ∃ t a u, tr = t ++ ⟨.write rest, a⟩ :: u ∧ ∀ e ∈ (⟨.write rest, a⟩ : Called) :: u, e.idle = true

/-- There is input left, and if nothing moved in this round, the channel took none of it. -/
def Left (p : Pump) (tr : List Called) : Prop :=
  p.inputEnded = false → p.input ≠ [] ∧ (p.moved = false → Stuck p.input tr)

/-- What is known before each call. -/
def AtTurn (p : Pump) (tr : List Called) : Turn → Prop
  | .write => p.inputEnded = false ∧ p.input ≠ [] ∧ p.moved = false
  | .endInput | .pauseInput => p.inputEnded = false ∧ p.input = []
  | .readStdout | .readStderr => p.Left tr
  | .checkEnd => p.moved = false ∧ p.Left tr
  | .over => ∃ t, tr = t ++ [⟨.atEnd, true⟩] ∧ p.moved = false ∧ p.Left t
  | .pauseRound | .failed _ => True

/-- After the calls `tr`, the exchange holds what has arrived, and the rest of the input is still
    due. -/
structure Balanced (input : List UInt8) (tr : List Called) (p : Pump) : Prop where
  stdout : p.stdout = output tr
  stderr : p.stderr = errors tr
  fed : fed tr ++ p.due = allOf input

/-- What holds between two calls. -/
structure Inv (input : List UInt8) (tr : List Called) (p : Pump) : Prop
    extends Balanced input tr p where
  turn : p.AtTurn tr p.turn

variable {input : List UInt8} {tr u : List Called} {p q : Pump}

theorem Stuck.snoc {rest : List UInt8} {e : Called} (h : Stuck rest tr) (he : e.idle = true) :
    Stuck rest (tr ++ [e]) := by
  obtain ⟨t, a, u, rfl, hidle⟩ := h
  refine ⟨t, a, u ++ [e], by simp, ?_⟩
  rw [← List.cons_append, List.forall_mem_append]
  exact ⟨hidle, by simpa using he⟩

/-- A call keeps the balance if it changes the exchange by what it has moved. -/
theorem Balanced.snoc {e : Called} (h : Balanced input tr p)
    (hout : q.stdout = p.stdout ++ e.output) (herr : q.stderr = p.stderr ++ e.errors)
    (hdue : e.fed ++ q.due = p.due) : Balanced input (tr ++ [e]) q where
  stdout := by rw [hout, h.stdout]; simp [output]
  stderr := by rw [herr, h.stderr]; simp [errors]
  fed := by rw [← h.fed, ← hdue]; simp [Ssh.fed]

/-- A call by which nothing gets across leaves the balance as it is. -/
theorem Balanced.quiet {e : Called} (h : Balanced input tr p) (turn : Turn)
    (hout : e.output = []) (herr : e.errors = []) (hfed : e.fed = []) :
    Balanced input (tr ++ [e]) { p with turn := turn } := by
  refine h.snoc ?_ ?_ ?_
  · rw [hout, List.append_nil]
  · rw [herr, List.append_nil]
  · rw [hfed]
    rfl

/-- A new round begins in good order, whatever came before. -/
theorem Balanced.newRound (h : Balanced input tr p) : Inv input tr p.newRound := by
  refine ⟨⟨h.stdout, h.stderr, h.fed⟩, ?_⟩
  cases hended : p.inputEnded with
  | true =>
    have hturn : p.newRound.turn = .readStdout := by simp [Pump.newRound, hended]
    rw [hturn]
    intro hnot
    exact absurd (hended.symm.trans hnot) (by decide)
  | false =>
    by_cases hempty : p.input = []
    · have hturn : p.newRound.turn = .endInput := by simp [Pump.newRound, hended, hempty]
      rw [hturn]
      exact ⟨hended, hempty⟩
    · have hturn : p.newRound.turn = .write := by simp [Pump.newRound, hended, hempty]
      rw [hturn]
      exact ⟨hended, hempty, rfl⟩

/-- At the end of a round either something has moved, or it is time to look for the end. -/
theorem Balanced.endRound (h : Balanced input tr p) (hleft : p.Left tr) :
    Inv input tr p.endRound := by
  by_cases hmoved : p.moved = true
  · rw [Pump.endRound, if_pos hmoved]
    exact h.newRound
  · rw [Pump.endRound, if_neg hmoved]
    exact ⟨⟨h.stdout, h.stderr, h.fed⟩, Bool.eq_false_iff.2 hmoved, hleft⟩

theorem Inv.atTurn {turn : Turn} (h : Inv input tr p) (hturn : p.turn = turn) :
    p.AtTurn tr turn := hturn ▸ h.turn

/-- Some input was written, or none. -/
theorem Inv.wrote {count : Nat} (h : Inv input tr p) (hturn : p.turn = .write) :
    Inv input (tr ++ [⟨.write p.input, .done count⟩]) (p.wrote count) := by
  obtain ⟨hended, hinput, hmoved⟩ := h.atTurn hturn
  have hdue : (p.input.take count).map Fed.byte ++ (p.wrote count).due = p.due := by
    simp only [due, Pump.wrote, hended, Bool.false_eq_true, if_false, allOf]
    rw [← List.append_assoc, ← List.map_append, List.take_append_drop]
  refine ⟨h.toBalanced.snoc (List.append_nil _).symm (List.append_nil _).symm hdue, ?_⟩
  by_cases hempty : p.input.drop count = []
  · have hnext : (p.wrote count).turn = .endInput := by simp [Pump.wrote, hempty]
    rw [hnext]
    exact ⟨hended, hempty⟩
  · have hnext : (p.wrote count).turn = .readStdout := by simp [Pump.wrote, hempty]
    rw [hnext]
    intro _
    refine ⟨hempty, fun hstill => ?_⟩
    -- Nothing moved, so the write took nothing.
    have hcount : count = 0 := by simpa [Pump.wrote, hmoved] using hstill
    subst hcount
    exact ⟨tr, .done 0, [], rfl, by simp [Called.idle]⟩

/-- The channel takes no input now. -/
theorem Inv.blocked (h : Inv input tr p) (hturn : p.turn = .write) :
    Inv input (tr ++ [⟨.write p.input, .wouldBlock⟩]) { p with turn := .readStdout } := by
  obtain ⟨-, hinput, -⟩ := h.atTurn hturn
  refine ⟨h.toBalanced.quiet _ rfl rfl rfl, fun _ => ?_⟩
  exact ⟨hinput, fun _ => ⟨tr, .wouldBlock, [], rfl, by simp [Called.idle]⟩⟩

/-- What is read does not change what is left of the input. -/
theorem Left.snoc {e : Called} {bytes : List UInt8} (h : p.Left tr) (hinput : q.input = p.input)
    (hended : q.inputEnded = p.inputEnded) (hmoved : q.moved = (p.moved || !bytes.isEmpty))
    (he : bytes = [] → e.idle = true) : q.Left (tr ++ [e]) := by
  intro hnot
  obtain ⟨hsome, hstuck⟩ := h (hended ▸ hnot)
  rw [hinput]
  refine ⟨hsome, fun hstill => ?_⟩
  obtain ⟨hp, hbytes⟩ : p.moved = false ∧ bytes = [] := by simpa [hmoved] using hstill
  exact (hstuck hp).snoc (he hbytes)

/-- What comes of a read that does not fail. -/
def Reads (a : Ready (List UInt8)) (bytes : List UInt8) : Prop :=
  a = .done bytes ∨ a = .wouldBlock ∧ bytes = []

/-- Some output was read, or none. -/
theorem Inv.readOutput {bytes : List UInt8} {a : Ready (List UInt8)} (h : Inv input tr p)
    (hturn : p.turn = .readStdout) (ha : Reads a bytes) :
    Inv input (tr ++ [⟨.readStdout, a⟩]) (p.readOutput bytes) := by
  obtain ⟨houtput, herrors, hfed, hidle⟩ : (⟨.readStdout, a⟩ : Called).output = bytes ∧
      (⟨.readStdout, a⟩ : Called).errors = [] ∧ (⟨.readStdout, a⟩ : Called).fed = [] ∧
      (bytes = [] → (⟨.readStdout, a⟩ : Called).idle = true) := by
    obtain rfl | ⟨rfl, rfl⟩ := ha <;> simp [Called.output, Called.errors, Called.fed, Called.idle]
  let q : Pump := { p with stdout := p.stdout ++ bytes, moved := p.moved || !bytes.isEmpty }
  have hleft : q.Left (tr ++ [⟨.readStdout, a⟩]) :=
    Left.snoc (p := p) (h.atTurn hturn) rfl rfl rfl hidle
  have hbalanced : Balanced input (tr ++ [⟨.readStdout, a⟩]) q :=
    h.toBalanced.snoc (by rw [houtput]) (by rw [herrors, List.append_nil])
      (by rw [hfed]; rfl)
  cases hmode : p.mode with
  | separate =>
    have hnext : p.readOutput bytes = { q with turn := .readStderr } := by
      simp [Pump.readOutput, hmode, q]
    rw [hnext]
    exact ⟨⟨hbalanced.stdout, hbalanced.stderr, hbalanced.fed⟩, hleft⟩
  | combined =>
    have hnext : p.readOutput bytes = q.endRound := by simp [Pump.readOutput, hmode, q]
    rw [hnext]
    exact hbalanced.endRound hleft

/-- Some error output was read, or none. -/
theorem Inv.readErrors {bytes : List UInt8} {a : Ready (List UInt8)} (h : Inv input tr p)
    (hturn : p.turn = .readStderr) (ha : Reads a bytes) :
    Inv input (tr ++ [⟨.readStderr, a⟩]) (p.readErrors bytes) := by
  obtain ⟨houtput, herrors, hfed, hidle⟩ : (⟨.readStderr, a⟩ : Called).output = [] ∧
      (⟨.readStderr, a⟩ : Called).errors = bytes ∧ (⟨.readStderr, a⟩ : Called).fed = [] ∧
      (bytes = [] → (⟨.readStderr, a⟩ : Called).idle = true) := by
    obtain rfl | ⟨rfl, rfl⟩ := ha <;> simp [Called.output, Called.errors, Called.fed, Called.idle]
  refine Balanced.endRound ?_ (Left.snoc (p := p) (h.atTurn hturn) rfl rfl rfl hidle)
  exact h.toBalanced.snoc (by rw [houtput, List.append_nil]) (by rw [herrors])
    (by rw [hfed]; rfl)

/-- The end of the input was signalled. -/
theorem Inv.ended (h : Inv input tr p) (hturn : p.turn = .endInput) :
    Inv input (tr ++ [⟨.endInput, .done ()⟩])
      { p with inputEnded := true, turn := .readStdout } := by
  obtain ⟨hended, hinput⟩ := h.atTurn hturn
  have hdue : p.due = [.ended] := by simp [due, hended, hinput, allOf]
  refine ⟨h.toBalanced.snoc (List.append_nil _).symm (List.append_nil _).symm hdue.symm, ?_⟩
  intro hnot
  cases hnot

/-- Nothing has moved in a round, and the channel tells whether that was the end. -/
theorem Inv.checked {atEnd : Bool} (h : Inv input tr p) (hturn : p.turn = .checkEnd) :
    Inv input (tr ++ [⟨.atEnd, atEnd⟩]) { p with turn := if atEnd then .over else .pauseRound } := by
  refine ⟨h.toBalanced.quiet _ rfl rfl rfl, ?_⟩
  cases atEnd with
  | true => exact ⟨tr, rfl, h.atTurn hturn⟩
  | false => trivial

/-- **What holds between two calls holds after the next**, whatever it is answered. -/
theorem Inv.step (h : Inv input tr p) (hstep : Talks (p.step Program.query) u q) :
    Inv input (tr ++ u) q := by
  unfold Pump.step at hstep
  cases hturn : p.turn with
  | write =>
    rw [hturn] at hstep
    obtain ⟨a, rfl, rfl⟩ := talks_call.1 hstep
    cases a with
    | done count => exact h.wrote hturn
    | wouldBlock => exact h.blocked hturn
    | failed e => exact ⟨h.toBalanced.quiet _ rfl rfl rfl, trivial⟩
  | endInput =>
    rw [hturn] at hstep
    obtain ⟨a, rfl, rfl⟩ := talks_call.1 hstep
    cases a with
    | done => exact h.ended hturn
    | wouldBlock => exact ⟨h.toBalanced.quiet _ rfl rfl rfl, h.atTurn hturn⟩
    | failed e => exact ⟨h.toBalanced.quiet _ rfl rfl rfl, trivial⟩
  | pauseInput =>
    rw [hturn] at hstep
    obtain ⟨a, rfl, rfl⟩ := talks_call.1 hstep
    exact ⟨h.toBalanced.quiet _ rfl rfl rfl, h.atTurn hturn⟩
  | readStdout =>
    rw [hturn] at hstep
    obtain ⟨a, rfl, rfl⟩ := talks_call.1 hstep
    cases a with
    | done bytes => exact h.readOutput hturn (Or.inl rfl)
    | wouldBlock => exact h.readOutput hturn (Or.inr ⟨rfl, rfl⟩)
    | failed e => exact ⟨h.toBalanced.quiet _ rfl rfl rfl, trivial⟩
  | readStderr =>
    rw [hturn] at hstep
    obtain ⟨a, rfl, rfl⟩ := talks_call.1 hstep
    cases a with
    | done bytes => exact h.readErrors hturn (Or.inl rfl)
    | wouldBlock => exact h.readErrors hturn (Or.inr ⟨rfl, rfl⟩)
    | failed e => exact ⟨h.toBalanced.quiet _ rfl rfl rfl, trivial⟩
  | checkEnd =>
    rw [hturn] at hstep
    obtain ⟨a, rfl, rfl⟩ := talks_call.1 hstep
    exact h.checked hturn
  | pauseRound =>
    rw [hturn] at hstep
    obtain ⟨a, rfl, rfl⟩ := talks_call.1 hstep
    exact (h.toBalanced.quiet p.turn rfl rfl rfl).newRound
  | _ =>
    -- The exchange has ended, and no call is made.
    rw [hturn] at hstep
    obtain ⟨rfl, rfl⟩ := talks_pure.1 hstep
    rwa [List.append_nil]

/-- So it holds after any number of calls. -/
theorem Inv.run {calls : Nat} (h : Inv input tr p)
    (hrun : Talks (Pump.run Program.query calls p) u q) : Inv input (tr ++ u) q := by
  induction calls generalizing tr u p with
  | zero =>
    obtain ⟨rfl, rfl⟩ := talks_pure.1 hrun
    rwa [List.append_nil]
  | succ calls ih =>
    obtain ⟨t, p', v, rfl, hstep, hrest⟩ := talks_bind.1 hrun
    rw [← List.append_assoc]
    exact ih (h.step hstep) hrest

theorem inv_start (mode : StderrMode) (stdin : Option (List UInt8)) :
    Inv (stdin.getD []) [] (start mode stdin) :=
  Balanced.newRound ⟨rfl, rfl, rfl⟩

/-! ## When the exchange is over -/

/-- The exchange has broken off in the middle of the input. The channel took none of what was left,
    nothing was read, and then the remote side was seen to have ended its output. -/
def BrokenOff (input : List UInt8) (tr : List Called) : Prop :=
  ∃ rest t, rest ≠ [] ∧ Ssh.fed tr ++ allOf rest = allOf input ∧ tr = t ++ [⟨.atEnd, true⟩] ∧
    Stuck rest t

/-- An exchange that is over is complete, or it has broken off. -/
theorem Inv.over (h : Inv input tr q) (hover : q.turn = .over) :
    Ssh.fed tr = allOf input ∨ BrokenOff input tr := by
  obtain ⟨t, rfl, hmoved, hleft⟩ := h.atTurn hover
  have hfed := h.fed
  cases hended : q.inputEnded with
  | true =>
    simp only [due, hended, if_true, List.append_nil] at hfed
    exact Or.inl hfed
  | false =>
    simp only [due, hended, Bool.false_eq_true, if_false] at hfed
    obtain ⟨hrest, hstuck⟩ := hleft hended
    exact Or.inr ⟨q.input, t, hrest, hfed, rfl, hstuck hmoved⟩

/-- Then the end of the input was not signalled. -/
theorem BrokenOff.ended_notMem (h : BrokenOff input tr) : .ended ∉ Ssh.fed tr := by
  have hcount : ∀ bytes, (allOf bytes).count .ended = 1 := by
    intro bytes
    have hbytes : Fed.ended ∉ bytes.map Fed.byte := by simp
    rw [allOf, List.count_append, List.count_eq_zero.2 hbytes]
    rfl
  obtain ⟨rest, -, -, hfed, -⟩ := h
  have htotal := congrArg (List.count .ended) hfed
  rw [List.count_append, hcount, hcount] at htotal
  exact List.count_eq_zero.1 (by omega)

/-- **What has got across when the exchange is over.** All output was read. All input was written,
    once and in its order, and then its end was signalled, unless the exchange has broken off. It
    does not break off if the remote side ends its output only after it has seen the end of its
    input. -/
theorem over_complete {mode : StderrMode} {stdin : Option (List UInt8)} {packets : List Packet}
    {calls : Nat} (hrun : Talks (Pump.run Program.query calls (start mode stdin)) tr q)
    (hsound : Sound packets mode tr) (hover : q.turn = .over) :
    q.stdout = sentOutput packets mode ∧ q.stderr = sentErrors packets mode ∧
      (Ssh.fed tr = allOf (stdin.getD []) ∨ BrokenOff (stdin.getD []) tr) ∧
      ((∀ t e u, tr = t ++ e :: u → e.sawEnd = true → .ended ∈ Ssh.fed t) →
        Ssh.fed tr = allOf (stdin.getD [])) := by
  have hinv : Inv (stdin.getD []) tr q := (inv_start mode stdin).run hrun
  have hfed := hinv.over hover
  obtain ⟨t, rfl, -⟩ := hinv.atTurn hover
  obtain ⟨hout, herr⟩ := hsound.atEnd t _ [] rfl rfl
  refine ⟨?_, ?_, hfed, fun hpatient => hfed.resolve_right fun hbroken => ?_⟩
  · rw [hinv.stdout, ← hout]
    simp [output, Called.output]
  · rw [hinv.stderr, ← herr]
    simp [errors, Called.errors]
  · have hended : .ended ∈ Ssh.fed t := hpatient t _ [] rfl rfl
    refine hbroken.ended_notMem ?_
    rw [Ssh.fed, List.flatMap_append]
    exact List.mem_append_left _ hended

/-- Input and output in pieces, with calls in between that cannot do anything. -/
def inPieces : List Called :=
  [⟨.write [1, 2], .done 1⟩, ⟨.readStdout, .wouldBlock⟩, ⟨.readStderr, .done [7]⟩,
    ⟨.write [2], .done 1⟩, ⟨.endInput, .wouldBlock⟩, ⟨.pause pollInterval, ()⟩,
    ⟨.endInput, .done ()⟩, ⟨.readStdout, .done [8, 9]⟩, ⟨.readStderr, .wouldBlock⟩,
    ⟨.readStdout, .done []⟩, ⟨.readStderr, .done []⟩]

theorem over_complete_inPieces :
    ∃ q, Talks (Pump.run Program.query 12 (start .separate (some [1, 2])))
      (inPieces ++ [⟨.atEnd, true⟩]) q ∧ q.turn = .over ∧ q.stdout = [8, 9] ∧ q.stderr = [7] ∧
      Ssh.fed (inPieces ++ [⟨.atEnd, true⟩]) = allOf [1, 2] := by
  have hsound : Sound [⟨true, [7]⟩, ⟨false, [8]⟩, ⟨false, [9]⟩] .separate
      (inPieces ++ [⟨.atEnd, true⟩]) := .of_last (by decide) (by decide) (by decide) (by decide)
  have htalks : Talks (Pump.run Program.query 12 (start .separate (some [1, 2])))
      (inPieces ++ [⟨.atEnd, true⟩]) _ :=
    .ask _ (.ask _ (.ask _ (.ask _ (.ask _ (.ask _ (.ask _ (.ask _ (.ask _ (.ask _ (.ask _
      (.ask _ (.done _))))))))))))
  obtain ⟨hout, herr, -, hpatient⟩ := over_complete htalks hsound rfl
  refine ⟨_, htalks, rfl, hout, herr, hpatient fun t e u heq hend => ?_⟩
  rw [eq_of_sawEnd (by decide) heq hend]
  decide

/-- The second byte of an input finds no room, and the remote side has ended its output. -/
def cutOff : List Called :=
  [⟨.write [1, 2], .done 1⟩, ⟨.readStdout, .wouldBlock⟩, ⟨.readStderr, .wouldBlock⟩,
    ⟨.write [2], .wouldBlock⟩, ⟨.readStdout, .done []⟩, ⟨.readStderr, .done []⟩]

/-- **Input is lost.** The remote side never gets the second byte, nor the end of its input. -/
theorem over_incomplete : ¬∀ mode stdin packets calls tr q,
    Talks (Pump.run Program.query calls (start mode stdin)) tr q → Sound packets mode tr →
    q.turn = .over → Ssh.fed tr = allOf (stdin.getD []) ∧ q.stdout = sentOutput packets mode ∧
      q.stderr = sentErrors packets mode := by
  intro hall
  have hsound : Sound [] .separate (cutOff ++ [⟨.atEnd, true⟩]) :=
    .of_last (by decide) (by decide) (by decide) (by decide)
  have htalks : Talks (Pump.run Program.query 7 (start .separate (some [1, 2])))
      (cutOff ++ [⟨.atEnd, true⟩]) _ :=
    .ask _ (.ask _ (.ask _ (.ask _ (.ask _ (.ask _ (.ask _ (.done _)))))))
  obtain ⟨hfed, -⟩ := hall _ _ _ _ _ _ htalks hsound rfl
  exact absurd hfed (by decide)

end Pump

end Reimage.Ssh
