/-
  A link that nobody closes.

  Once such a link has a connection it always has one, though other tasks may replace it. So a
  command that follows another one is handed in without waiting for anything.

  * `Link.Open`: the answers about the connection are those of a link that stays open;
  * `Link.Calls.Runs.open_own`: each of the calls that share an open link gets such answers;
  * `Link.exec_run`, `Link.exec_rests`: what a link hands in, and where it waits;
  * `Link.exec_run_held`, `Link.exec_rests_held`: the same once there is a connection;
  * `Link.HandsFirst`: the first line that is handed in, and over which connection;
  * `Link.restart_lines`, `Link.restart_lines_held`: a restart hands in its command only, and once
    there is a connection, nothing keeps it from that.
-/
import Reimage.Proofs.Drop
import Reimage.Proofs.Link.Lines
import Reimage.Proofs.Link.Slot
import Reimage.Proofs.Link.Success
import Reimage.Proofs.Recalls

namespace Reimage

/-- Where no command line may be handed in, none was. -/
theorem Uttered.lines_eq_nil {tr : List Event} (h : Uttered (fun _ => False) tr) :
    lines tr = [] := by
  refine Reimage.lines_eq_nil fun e he => ?_
  have := h e he
  obtain ⟨q, a⟩ := e
  cases q <;> first | rfl | exact this.elim

/-- A line that was handed in is one of those that may be. -/
theorem Spoken.of_mem_lines {S : String → Prop} {line : String} {tr : List Event}
    (h : Spoken S tr) (hline : line ∈ lines tr) : S line := by
  obtain ⟨⟨q, a⟩, he, hq⟩ := List.mem_filterMap.1 hline
  have hq' := h _ he
  cases q with
  | run =>
    cases hq
    exact hq'
  | start => exact hq'.elim
  | _ => cases hq

theorem Uttered.of_mem_lines {S : String → Prop} {line : String} {tr : List Event}
    (h : Uttered S tr) (hline : line ∈ lines tr) : S line :=
  h.spoken.of_mem_lines hline

theorem Ask.Connects.line?_eq {q : Ask} (h : q.Connects) : q.line? = none := by
  cases q <;> trivial

namespace Link

/-- The current connection as a task knows it after `tr`, where it knew it as `cur` before. -/
def held : (cur : Option Connection) → List Event → Option Connection
  | cur, [] => cur
  | _, ⟨.current, c⟩ :: tr => held c tr
  | _, ⟨.install c, _⟩ :: tr => held (some c) tr
  | cur, _ :: tr => held cur tr

/-- The link is open all the time. A connection that is current stays so until another one is. -/
def Open : (cur : Option Connection) → List Event → Prop
  | _, [] => True
  | cur, ⟨.isClosed, closed⟩ :: tr => closed = false ∧ Open cur tr
  | cur, ⟨.current, c⟩ :: tr => (cur.isSome → c.isSome) ∧ Open c tr
  | _, ⟨.install c, installed⟩ :: tr => installed = true ∧ Open (some c) tr
  | cur, _ :: tr => Open cur tr

variable {l : Link} {cur : Option Connection} {tr : List Event}

theorem held_append (t u : List Event) : held cur (t ++ u) = held (held cur t) u := by
  induction t generalizing cur with
  | nil => rfl
  | cons e t ih =>
    obtain ⟨q, a⟩ := e
    cases q <;> exact ih

theorem open_append {t u : List Event} : Open cur (t ++ u) ↔ Open cur t ∧ Open (held cur t) u := by
  induction t generalizing cur with
  | nil => exact (true_and _).symm ▸ Iff.rfl
  | cons e t ih =>
    obtain ⟨q, a⟩ := e
    cases q
    case isClosed | current | install => exact (and_congr_right fun _ => ih).trans and_assoc.symm
    all_goals exact ih

/-- Whether an answer is one of an open link, whose connection was `cur`. -/
def opens (cur : Option Connection) : Event → Bool
  | ⟨.isClosed, closed⟩ => !closed
  | ⟨.current, c⟩ => !cur.isSome || c.isSome
  | ⟨.install _, installed⟩ => installed
  | _ => true

theorem open_cons {e : Event} :
    Open cur (e :: tr) ↔ opens cur e = true ∧ Open (held cur [e]) tr := by
  obtain ⟨q, a⟩ := e
  cases q with
  | isClosed => simp [Open, opens, held]
  | current => cases cur <;> simp [Open, opens, held]
  | install => simp [Open, opens, held]
  | _ => simp [Open, opens, held]

instance decidableOpen : (cur : Option Connection) → (tr : List Event) → Decidable (Open cur tr)
  | _, [] => .isTrue trivial
  | cur, e :: tr =>
    have : Decidable (Open (held cur [e]) tr) := decidableOpen (held cur [e]) tr
    decidable_of_iff _ open_cons.symm

/-- Once an open link has a connection, it has one from then on. -/
theorem Open.held_isSome (ho : Open cur tr) (hcur : cur.isSome) : (held cur tr).isSome := by
  induction tr generalizing cur with
  | nil => exact hcur
  | cons e tr ih =>
    obtain ⟨q, a⟩ := e
    cases q with
    | isClosed => exact ih ho.2 hcur
    | current => exact ih ho.2 (ho.1 hcur)
    | install => exact ih ho.2 rfl
    | _ => exact ih ho hcur

theorem opens_congr {cur' : Option Connection} (h : cur.isSome = cur'.isSome) (e : Event) :
    opens cur e = opens cur' e := by
  obtain ⟨q, a⟩ := e
  cases q
  case current => simp only [opens, h]
  all_goals rfl

/-- Once there is a connection, each answer may be looked at by itself. -/
theorem open_iff_forall (hcur : cur.isSome) : Open cur tr ↔ ∀ e ∈ tr, opens cur e = true := by
  induction tr generalizing cur with
  | nil => simp [Open]
  | cons e tr ih =>
    rw [open_cons, List.forall_mem_cons]
    refine and_congr_right fun he => ?_
    have hone : Open cur [e] := open_cons.2 ⟨he, trivial⟩
    have hheld : (held cur [e]).isSome := hone.held_isSome hcur
    rw [ih hheld]
    exact forall₂_congr fun e' _ => by rw [opens_congr (hheld.trans hcur.symm) e']

/-- What one call of an open link does in a move. -/
theorem Calls.Step.open_own {s s' : Calls} {m : Move} {i : Nat} (h : s.Step m s')
    (hopen : s.current.closed = false) (hcur : cur.isSome → s.current.connection.isSome) :
    Open cur (m.own i) ∧
      ((held cur (m.own i)).isSome → cur.isSome ∨ s'.current.connection.isSome) := by
  obtain hm | ⟨⟨q, a⟩, rfl, hm⟩ := m.own_eq i
  · rw [hm]
    exact ⟨trivial, Or.inl⟩
  rw [hm]
  cases h with
  | @does _ _ f _ _ hadmits =>
    cases q with
    | isClosed =>
      have ha : a = s.current.closed := hadmits
      exact ⟨⟨ha.trans hopen, trivial⟩, Or.inl⟩
    | current =>
      have ha : a = s.current.connection := hadmits
      exact ⟨⟨fun h => ha ▸ hcur h, trivial⟩, fun h => Or.inr (ha ▸ h)⟩
    | install c =>
      have ha : a = true ∧ (s.current.install c).1.connection = some c := by
        simpa [Shared.Admits, Current.install, hopen] using hadmits
      exact ⟨⟨ha.1, trivial⟩, fun _ => Or.inr (Option.isSome_iff_exists.2 ⟨c, ha.2⟩)⟩
    | _ => exact ⟨trivial, Or.inl⟩

/-- **The answers of an open link.** Where nobody closes a link, each of its calls gets the answers
    of an open one, whatever the others do. -/
theorem Calls.Runs.open_own {s s' : Calls} {i : Nat} {tr : List Move} (h : s.Runs tr s')
    (hopen : s.current.closed = false)
    (hnever : ∀ j e, .does j e ∈ tr → e.question ≠ .closeLink)
    (hcur : cur.isSome → s.current.connection.isSome) : Open cur (own i tr) := by
  induction h generalizing cur with
  | nil => trivial
  | @cons s s' s'' m tr hstep _ ih =>
    have hstays : s'.current.closed = false ∧
        (s.current.connection.isSome → s'.current.connection.isSome) := by
      obtain heq | ⟨j, known, rfl, -⟩ | ⟨j, c, -, -, heq⟩ := hstep.current
      · rw [heq]
        exact ⟨hopen, id⟩
      · exact absurd rfl (hnever j _ (List.mem_cons_self ..))
      · rw [heq]
        exact ⟨rfl, fun _ => rfl⟩
    obtain ⟨hmove, hheld⟩ := hstep.open_own (i := i) hopen hcur
    have hrest : ∀ j e, .does j e ∈ tr → e.question ≠ .closeLink := fun j e he =>
      hnever j e (List.mem_cons_of_mem m he)
    rw [own_cons, open_append]
    refine ⟨hmove, ih hstays.1 hrest fun hsome => ?_⟩
    exact (hheld hsome).elim (fun hsome => hstays.2 (hcur hsome)) id

/-! ## Finding the connection -/

/-- To find its connection a link hands nothing in. -/
theorem connection_lines : l.connection.Only fun q => q.line? = none :=
  l.asks_connection fun _ h => h.line?_eq

theorem install_ok_held {c : Connection} (h : (l.install c).Run tr (some (.ok ()))) :
    held cur tr = some c := by
  obtain ⟨done, u, rfl, h₁⟩ := Task.run_ask_bind_some.1 h
  cases done with
  | true =>
    obtain ⟨rfl, -⟩ := Program.run_pure_some.1 h₁
    rfl
  | false =>
    obtain ⟨_, v, -, h₂⟩ := Task.run_ask_bind_some.1 h₁
    obtain ⟨-, h₃⟩ := Program.run_pure_some.1 h₂
    cases h₃

/-- The connection that a link has found is the current one. -/
theorem connection_ok_held {c : Connection} (h : l.connection.Run tr (some (.ok c))) :
    held cur tr = some c := by
  obtain ⟨closed, t₁, rfl, h₁⟩ := Task.run_ask_bind_some.1 h
  split at h₁
  · simp at h₁
  obtain ⟨first, t₂, rfl, h₂⟩ := Task.run_ask_bind_some.1 h₁
  split at h₂
  · obtain ⟨rfl, hc⟩ := Program.run_pure_some.1 h₂
    cases hc
    rfl
  obtain ⟨_, t₃, rfl, h₃⟩ := Task.run_ask_bind_some.1 h₂
  obtain ⟨second, t₄, rfl, h₄⟩ := Task.run_ask_bind_some.1 h₃
  split at h₄
  · obtain ⟨_, t₅, rfl, h₅⟩ := Task.run_ask_bind_some.1 h₄
    obtain ⟨rfl, hc⟩ := Program.run_pure_some.1 h₅
    cases hc
    rfl
  obtain ⟨dialed, t₅, rfl, h₅⟩ := Task.run_ask_bind_some.1 h₄
  rcases dialed with e | c'
  · obtain ⟨_, t₆, rfl, h₆⟩ := Task.run_ask_bind_some.1 h₅
    obtain ⟨-, h₇⟩ := Program.run_pure_some.1 h₆
    cases h₇
  · obtain ⟨t₆, e | ⟨⟩, t₇, rfl, h₆, h₇⟩ := Program.run_bind_some.1 h₅
    · obtain ⟨_, t₈, rfl, h₈⟩ := Task.run_ask_bind_some.1 h₇
      obtain ⟨-, h₉⟩ := Program.run_pure_some.1 h₈
      cases h₉
    · obtain ⟨_, t₈, rfl, h₈⟩ := Task.run_ask_bind_some.1 h₇
      obtain ⟨rfl, hc⟩ := Program.run_pure_some.1 h₈
      cases hc
      show held second (t₆ ++ [⟨.release, ()⟩]) = some c'
      rw [held_append]
      show held second t₆ = some c'
      exact install_ok_held h₆

/-! ## Running a command -/

/-- The first line that is handed in is `line`, over the connection that is current then. -/
def HandsFirst (cur : Option Connection) (line : String) (tr : List Event) : Prop :=
  ∃ t c stdin mode a u, tr = t ++ ⟨.run c line stdin mode, a⟩ :: u ∧ lines t = [] ∧
    held cur t = some c

theorem HandsFirst.lines_eq {line : String} (h : HandsFirst cur line tr) :
    ∃ rest, lines tr = line :: rest := by
  obtain ⟨t, c, stdin, mode, a, u, rfl, ht, -⟩ := h
  refine ⟨lines u, ?_⟩
  rw [lines_append, ht]
  rfl

theorem HandsFirst.append_right {line : String} {t u : List Event} (h : HandsFirst cur line t) :
    HandsFirst cur line (t ++ u) := by
  obtain ⟨v, c, stdin, mode, a, w, rfl, hv, hc⟩ := h
  exact ⟨v, c, stdin, mode, a, w ++ u, by simp, hv, hc⟩

theorem HandsFirst.append_left {line : String} {t u : List Event} (ht : lines t = [])
    (h : HandsFirst (held cur t) line u) : HandsFirst cur line (t ++ u) := by
  obtain ⟨v, c, stdin, mode, a, w, rfl, hv, hc⟩ := h
  refine ⟨t ++ v, c, stdin, mode, a, w, by simp, ?_, ?_⟩
  · rw [lines_append, ht, hv, List.append_nil]
  · rw [held_append, hc]

section

variable {line command : String} {args : List String} {stdin : Option (List UInt8)}
  {mode : StderrMode}

/-- A command was not handed in, or it was, over a connection that the link has found. -/
theorem exec_run (cur : Option Connection) {r : ExecResult}
    (h : (l.exec line stdin mode).Run tr (some r)) :
    (lines tr = [] ∧ ∃ message, r = .notStarted message) ∨
      ∃ t c a, tr = t ++ [⟨.run c line stdin mode, a⟩] ∧ lines t = [] ∧ (held cur t).isSome ∧
        r = .ofAttempt a := by
  obtain ⟨t, e | c, u, rfl, h₁, h₂⟩ := Program.run_bind_some.1 h
  · obtain ⟨rfl, rfl⟩ := Program.run_pure_some.1 h₂
    rw [List.append_nil]
    exact Or.inl ⟨lines_eq_nil (connection_lines.of_run h₁), e.message, rfl⟩
  · obtain ⟨a, h₃, rfl⟩ := Program.run_bind_pure_some.1 h₂
    cases Task.run_ask_some.1 h₃
    exact Or.inr ⟨t, c, a, rfl, lines_eq_nil (connection_lines.of_run h₁),
      Option.isSome_iff_exists.2 ⟨c, connection_ok_held h₁⟩, rfl⟩

/-- If a command was handed in, that came last, and it went to the current connection. -/
theorem exec_last {o : Option ExecResult} (h : (l.exec line stdin mode).Run tr o) :
    lines tr = [] ∨ ∃ t c a, tr = t ++ [⟨.run c line stdin mode, a⟩] ∧ lines t = [] ∧
      ∀ cur, held cur t = some c := by
  obtain ⟨-, h₁⟩ | ⟨t, e | c, u, rfl, h₁, h₂⟩ := Program.run_bind.1 h
  · exact Or.inl (lines_eq_nil (connection_lines.of_run h₁))
  · obtain ⟨rfl, -⟩ := Program.run_pure.1 h₂
    rw [List.append_nil]
    exact Or.inl (lines_eq_nil (connection_lines.of_run h₁))
  · have ht := lines_eq_nil (connection_lines.of_run h₁)
    obtain ⟨r, h₃, -⟩ := Program.run_bind_pure.1 h₂
    obtain ⟨-, rfl⟩ | ⟨a, rfl, -⟩ := Task.run_ask h₃
    · rw [List.append_nil]
      exact Or.inl ht
    · exact Or.inr ⟨t, c, a, rfl, ht, fun cur => connection_ok_held h₁⟩

/-- A command line is handed in once at most. -/
theorem exec_lines {o : Option ExecResult} (h : (l.exec line stdin mode).Run tr o) :
    lines tr = [] ∨ lines tr = [line] := by
  refine (exec_last h).imp_right ?_
  rintro ⟨t, c, a, rfl, ht, -⟩
  rw [lines_append, ht]
  rfl

/-- What is handed in goes to the current connection. -/
theorem exec_handsFirst (cur : Option Connection) {o : Option ExecResult}
    (h : (l.exec line stdin mode).Run tr o) : lines tr = [] ∨ HandsFirst cur line tr := by
  refine (exec_last h).imp_right ?_
  rintro ⟨t, c, a, rfl, ht, hc⟩
  exact ⟨t, c, stdin, mode, a, [], rfl, ht, hc cur⟩

theorem runCommand_handsFirst (cur : Option Connection) {o : Option (Result String)}
    (h : (l.runCommand command args stdin mode).Run tr o) :
    lines tr = [] ∨ HandsFirst cur (Shell.commandLine command args) tr := by
  obtain ⟨r, h₁, -⟩ := Program.run_bind_pure.1 h
  exact exec_handsFirst cur h₁

theorem runCommand_lines {o : Option (Result String)}
    (h : (l.runCommand command args stdin mode).Run tr o) :
    lines tr = [] ∨ lines tr = [Shell.commandLine command args] := by
  obtain ⟨r, h₁, -⟩ := Program.run_bind_pure.1 h
  exact exec_lines h₁

/-- A command that gave its output was handed in. -/
theorem runCommand_ok_lines {out : String}
    (h : (l.runCommand command args stdin mode).Run tr (some (.ok out))) :
    lines tr = [Shell.commandLine command args] := by
  obtain ⟨r, h₁, hr⟩ := Program.run_bind_pure_some.1 h
  obtain ⟨f, rfl, -⟩ := ExecResult.intoStdout_eq_ok.1 hr.symm
  obtain ⟨-, message, hr⟩ | ⟨t, c, a, rfl, ht, -⟩ := exec_run none h₁
  · cases hr
  · rw [lines_append, ht]
    rfl

/-- A command that gave its output was handed in over a connection that the link has found. -/
theorem runCommand_ok_held {out : String}
    (h : (l.runCommand command args stdin mode).Run tr (some (.ok out))) :
    (held cur tr).isSome := by
  obtain ⟨r, h₁, hr⟩ := Program.run_bind_pure_some.1 h
  obtain ⟨f, rfl, -⟩ := ExecResult.intoStdout_eq_ok.1 hr.symm
  obtain ⟨-, message, hr⟩ | ⟨t, c, a, rfl, -, hheld, -⟩ := exec_run cur h₁
  · cases hr
  · rw [held_append]
    exact hheld

/-- A command waits for its connection, or it is the command that is waited for. -/
theorem exec_rests {q : Ask} (h : (l.exec line stdin mode).Rests tr (some q)) :
    lines tr = [] ∧ (q.line? = none ∨ ∃ c, q = .run c line stdin mode) := by
  obtain ⟨q', hq, h₁⟩ | ⟨t, e | c, u, rfl, h₁, h₂⟩ := Task.rests_bind.1 h
  · obtain ⟨htr, hw⟩ := connection_lines.of_rests h₁
    exact ⟨lines_eq_nil htr, Or.inl (hw q hq.symm)⟩
  · obtain ⟨-, hq⟩ := Task.rests_pure.1 h₂
    cases hq
  · obtain ⟨-, rfl, hq⟩ | ⟨a, v, rfl, h₃⟩ := Task.rests_ask_bind.1 h₂
    · cases hq
      rw [List.append_nil]
      exact ⟨lines_eq_nil (connection_lines.of_run h₁), Or.inr ⟨c, rfl⟩⟩
    · obtain ⟨-, hq⟩ := Task.rests_pure.1 h₃
      cases hq

end

/-! ## Once there is a connection -/

/-- The link finds `c`. -/
def found (c : Connection) : List Event := [⟨.isClosed, false⟩, ⟨.current, some c⟩]

/-- A command is handed in over `c` and gives `a`. -/
def sent (c : Connection) (line : String) (stdin : Option (List UInt8)) (mode : StderrMode)
    (a : Result Finished) : List Event :=
  found c ++ [⟨.run c line stdin mode, a⟩]

section

variable {line command : String} {args : List String} {stdin : Option (List UInt8)}
  {mode : StderrMode}

theorem lines_sent (c : Connection) (a : Result Finished) :
    lines (sent c line stdin mode a) = [line] := rfl

theorem open_found {c : Connection} : Open cur (found c) := ⟨rfl, fun _ => rfl, trivial⟩

theorem open_sent {c : Connection} {a : Result Finished} :
    Open cur (sent c line stdin mode a) :=
  open_append.2 ⟨open_found, trivial⟩

theorem connection_run_held {r : Result Connection} (hcur : cur.isSome) (ho : Open cur tr)
    (h : l.connection.Run tr (some r)) : ∃ c, tr = found c ∧ r = .ok c := by
  obtain ⟨closed, t₁, rfl, h₁⟩ := Task.run_ask_bind_some.1 h
  obtain ⟨rfl, ho⟩ := ho
  obtain ⟨c, t₂, rfl, h₂⟩ := Task.run_ask_bind_some.1 h₁
  obtain ⟨c, rfl⟩ := Option.isSome_iff_exists.1 (ho.1 hcur)
  obtain ⟨rfl, rfl⟩ := Program.run_pure_some.1 h₂
  exact ⟨c, rfl, rfl⟩

/-- A link that has a connection does not wait to find it. -/
theorem not_connection_rests_held {q : Ask} (hcur : cur.isSome) (ho : Open cur tr) :
    ¬l.connection.Rests tr (some q) := by
  intro h
  obtain ⟨hq, -⟩ | ⟨closed, t₁, rfl, h₁⟩ := Task.rests_ask_bind.1 h
  · exact hq
  obtain ⟨rfl, ho⟩ := ho
  obtain ⟨hq, -⟩ | ⟨c, t₂, rfl, h₂⟩ := Task.rests_ask_bind.1 h₁
  · exact hq
  obtain ⟨c, rfl⟩ := Option.isSome_iff_exists.1 (ho.1 hcur)
  obtain ⟨-, hw⟩ := Task.rests_pure.1 h₂
  cases hw

/-- A command that is run is handed in at once. -/
theorem exec_run_held {r : ExecResult} (hcur : cur.isSome) (ho : Open cur tr)
    (h : (l.exec line stdin mode).Run tr (some r)) :
    ∃ c a, tr = sent c line stdin mode a ∧ r = .ofAttempt a := by
  obtain ⟨t, connected, u, rfl, h₁, h₂⟩ := Program.run_bind_some.1 h
  obtain ⟨c, rfl, rfl⟩ := connection_run_held hcur (open_append.1 ho).1 h₁
  obtain ⟨a, h₃, rfl⟩ := Program.run_bind_pure_some.1 h₂
  cases Task.run_ask_some.1 h₃
  exact ⟨c, a, rfl, rfl⟩

/-- Once there is a connection, a command that is run is handed in. -/
theorem runCommand_lines_held {r : Result String} (hcur : cur.isSome) (ho : Open cur tr)
    (h : (l.runCommand command args stdin mode).Run tr (some r)) :
    lines tr = [Shell.commandLine command args] := by
  obtain ⟨x, h₁, -⟩ := Program.run_bind_pure_some.1 h
  obtain ⟨c, a, rfl, -⟩ := exec_run_held hcur ho h₁
  exact lines_sent c a

/-- A command that is waited for was handed in. -/
theorem exec_rests_held {q : Ask} (hcur : cur.isSome) (ho : Open cur tr)
    (h : (l.exec line stdin mode).Rests tr (some q)) :
    ∃ c, tr = found c ∧ q = .run c line stdin mode := by
  obtain ⟨q', -, h₁⟩ | ⟨t, connected, u, rfl, h₁, h₂⟩ := Task.rests_bind.1 h
  · exact absurd h₁ (not_connection_rests_held hcur ho)
  obtain ⟨c, rfl, rfl⟩ := connection_run_held hcur (open_append.1 ho).1 h₁
  obtain ⟨-, rfl, hq⟩ | ⟨a, v, rfl, h₃⟩ := Task.rests_ask_bind.1 h₂
  · cases hq
    exact ⟨c, by rw [List.append_nil], rfl⟩
  · obtain ⟨-, hq⟩ := Task.rests_pure.1 h₃
    cases hq

theorem run_exec_sent (c : Connection) (a : Result Finished) :
    (l.exec line stdin mode).Run (sent c line stdin mode a) (some (.ofAttempt a)) :=
  .ask (t := [⟨.isClosed, false⟩]) ⟨false, rfl, rfl⟩
    (.ask (t := [⟨.current, some c⟩]) ⟨some c, rfl, rfl⟩
      (.ask (t := [⟨.run c line stdin mode, a⟩]) ⟨a, rfl, rfl⟩ (.done _)))

theorem rests_exec_found (c : Connection) :
    (l.exec line stdin mode).Rests (found c) (some (.run c line stdin mode)) :=
  .ask (q := .isClosed) false (.ask (q := .current) (some c) (.waits trivial))

end

/-! ## Restarting -/

theorem deadline_some {d : Duration} {tr : List Event} {t : Instant}
    (h : (Task.deadline d).Run tr (some t)) : ∃ now, tr = [⟨.now, now⟩] := by
  obtain ⟨now, u, rfl, h₁⟩ := Task.run_ask_bind_some.1 h
  split at h₁
  · obtain ⟨rfl, -⟩ := Program.run_pure_some.1 h₁
    exact ⟨now, rfl⟩
  · obtain ⟨never, -⟩ := Task.run_ask_bind_some.1 h₁
    exact never.elim

/-- A restart runs its command and hands in nothing else. -/
theorem restart_run {args : List String} {timeout : Duration} {o : Option (Result String)}
    (h : (l.restart args timeout).Run tr o) :
    lines tr = [] ∨ ∃ t u v r, tr = t ++ (u ++ v) ∧ lines t = [] ∧ lines v = [] ∧
      (l.runCommand "reboot" args).Run u r := by
  have hsilent : ∀ {α : Type} {t : Task α} {u : List Event} {o : Option α},
      t.Utters (fun _ => True) (fun _ => False) → t.Run u o → lines u = [] :=
    fun ht hu => (Task.asked hu ht (knows_true _)).lines_eq_nil
  obtain ⟨-, h₁⟩ | ⟨t, deadline, u, rfl, h₁, h₂⟩ := Program.run_bind.1 h
  · exact Or.inl (hsilent (utters_deadline timeout) h₁)
  have ht := hsilent (utters_deadline timeout) h₁
  rw [lines_append, ht, List.nil_append]
  obtain ⟨-, h₃⟩ | ⟨e, h₃, -⟩ | ⟨v, old, w, rfl, h₃, h₄⟩ := Task.run_andThen.1 h₂
  · exact Or.inl (hsilent l.utters_connection h₃)
  · exact Or.inl (hsilent l.utters_connection h₃)
  have htv : lines (t ++ v) = [] := by
    rw [lines_append, ht, hsilent l.utters_connection h₃, List.append_nil]
  refine Or.inr ?_
  obtain ⟨-, h₅⟩ | ⟨e, h₅, -⟩ | ⟨x, output, y, rfl, h₅, h₆⟩ := Task.run_andThen.1 h₄
  · exact ⟨t ++ v, w, [], none, by simp, htv, rfl, h₅⟩
  · exact ⟨t ++ v, w, [], some (.error e), by simp, htv, rfl, h₅⟩
  · exact ⟨t ++ v, x, y, some (.ok output), by simp, htv, hsilent utters_restarted h₆, h₅⟩

/-- A restart hands in its command, and nothing else, once at most. -/
theorem restart_lines {args : List String} {timeout : Duration} {o : Option (Result String)}
    (h : (l.restart args timeout).Run tr o) :
    lines tr = [] ∨ lines tr = [Shell.commandLine "reboot" args] := by
  obtain htr | ⟨t, u, v, r, rfl, ht, hv, hu⟩ := restart_run h
  · exact Or.inl htr
  · rw [lines_append, lines_append, ht, hv, List.nil_append, List.append_nil]
    exact runCommand_lines hu

/-- It goes to the current connection. -/
theorem restart_handsFirst (cur : Option Connection) {args : List String} {timeout : Duration}
    {o : Option (Result String)} (h : (l.restart args timeout).Run tr o) :
    lines tr = [] ∨ HandsFirst cur (Shell.commandLine "reboot" args) tr := by
  obtain htr | ⟨t, u, v, r, rfl, ht, hv, hu⟩ := restart_run h
  · exact Or.inl htr
  obtain hu | hu := runCommand_handsFirst (held cur t) hu
  · rw [lines_append, lines_append, ht, hu, hv]
    exact Or.inl rfl
  · exact Or.inr (.append_left ht hu.append_right)

/-- **A restart hands in its command**, once there is a connection. Nothing else comes before it. -/
theorem restart_lines_held {args : List String} {timeout : Duration} {r : Result String}
    (hcur : cur.isSome) (ho : Open cur tr) (h : (l.restart args timeout).Run tr (some r)) :
    lines tr = [Shell.commandLine "reboot" args] := by
  refine (restart_lines h).resolve_left fun hnone => ?_
  obtain ⟨t, deadline, u, rfl, h₁, h₂⟩ := Program.run_bind_some.1 h
  obtain ⟨now, rfl⟩ := deadline_some h₁
  obtain ⟨v, connected, w, rfl, h₃, h₄⟩ := Program.run_bind_some.1 h₂
  have hopen : Open cur (v ++ w) := ho
  obtain ⟨hv, hw⟩ := open_append.1 hopen
  obtain ⟨c, rfl, rfl⟩ := connection_run_held hcur hv h₃
  obtain ⟨x, ran, y, rfl, h₅, -⟩ := Program.run_bind_some.1 h₄
  have hran := runCommand_lines_held rfl (open_append.1 hw).1 h₅
  rw [lines_append, lines_append, lines_append, hran] at hnone
  simp at hnone

end Link

end Reimage
