/-
  A configuration that was written as a document is read as that configuration.

  * `Record.read_tree`: the fields of a record that was written are read as they are;
  * `HostTable.ofList_of_perm`: the order in which hosts are written does not count;
  * `value_tree`: so are the parts of a configuration, and the whole;
  * `Config.parse_document`: what is read is refused only if it is not fit for use.
-/
import Reimage.Config.Document
import Reimage.Proofs.Yaml.Node

namespace Reimage

open Yaml (Fault Record Value Tree Node)

/-! ## Scalars -/

namespace Yaml.Value

variable (d : Yaml.Document)

theorem text_tree (s : String) : text d (Tree.text s).node = .ok s := by
  rw [Tree.node]
  rfl

/-- A text that is written plain is not null. -/
theorem not_typed {s : String} (h : Form.ofText s = .plain) : s.isEmpty = false ∧ isNull s = false := by
  simp only [Form.ofText] at h
  split_ifs at h with hfeed hblock hplain
  simp only [isTyped, Bool.and_eq_true, Bool.not_eq_true', Bool.or_eq_false_iff] at hplain
  obtain ⟨⟨⟨⟨⟨⟨⟨hempty, hnull⟩, -⟩, -⟩, -⟩, -⟩, -⟩, -⟩ := hplain
  refine ⟨?_, hnull⟩
  simpa using hempty

theorem text?_tree (s : String) : text? d (Tree.text s).node = .ok (some s) := by
  rw [Tree.node]
  cases h : Form.ofText s with
  | plain =>
    obtain ⟨hempty, hnull⟩ := not_typed h
    simp [text?, Document.resolve, Form.style, hempty, hnull]
  | singleQuoted | doubleQuoted | literal => rfl

theorem text?_null : text? d (Tree.plain "null").node = .ok none := by
  rw [Tree.node]
  rfl

theorem unsigned_tree {limit n : Nat} (h : n < limit) :
    unsigned limit d (Tree.number n).node = .ok n := by
  rw [Tree.number, Tree.node]
  simp only [unsigned, typed, Document.resolve, Option.bind_some, readUnsigned?_toString h]

theorem float_tree {x : Binary64} (h : x.isNaN = false) :
    float d (Tree.plain (floatText x)).node = .ok x := by
  rw [Tree.node]
  simp [float, typed, Document.resolve, readFloat?_floatText h]

/-! ## Records -/

/-- The node of the name of a field. -/
def keyNode (key : String) : Node := .scalar (Form.ofText key).style none key

theorem text_keyNode (key : String) : text d (keyNode key) = .ok key := rfl

/-- The entries of a record are read one by one. -/
theorem mapM_fieldNodes {α β : Type} (read : Node × Node → Except Fault β) (field : α → String × Tree)
    (value : α → β) (h : ∀ a, read (keyNode (field a).1, (field a).2.node) = .ok (value a))
    (as : List α) : (fieldNodes (as.map field)).mapM read = .ok (as.map value) := by
  induction as with
  | nil =>
    rw [List.map_nil, fieldNodes]
    rfl
  | cons a as ih =>
    have ha := h a
    rw [List.map_cons]
    generalize field a = e at ha
    obtain ⟨key, v⟩ := e
    rw [fieldNodes, List.mapM_cons, ← keyNode, ha, ih]
    rfl

/-- A table of texts is read as it was written. -/
theorem pairs_tree (table : List (String × String)) :
    pairs text d (Tree.record (table.map fun e => (e.1, .text e.2))).node = .ok table := by
  have hentries := mapM_fieldNodes (fun e => do Except.ok (← text d e.1, ← text d e.2))
    (fun e => (e.1, .text e.2)) id
    (fun e => by
      simp only [text_keyNode, text_tree]
      rfl) table
  rw [List.map_id] at hentries
  rw [Tree.node]
  exact hentries

end Yaml.Value

/-- The fields of a record that was written. -/
theorem Yaml.Record.read_tree (d : Yaml.Document) {known : List String}
    {fields : List (String × Tree)} (h : repeated? known (fields.map (·.1)) = none) :
    Record.read known d (Tree.record fields).node =
      .ok ⟨d, fields.map fun e => (e.1, e.2.node)⟩ := by
  have hfields := Value.mapM_fieldNodes (fun e => do Except.ok (← Value.text d e.1, e.2)) id
    (fun e => (e.1, e.2.node)) (fun _ => rfl) fields
  have hnames : (fields.map fun e => (e.1, e.2.node)).map (·.1) = fields.map (·.1) := by
    rw [List.map_map]
    rfl
  rw [List.map_id] at hfields
  rw [Record.read, Tree.node]
  simp only [Value.entries, Document.resolve, bind, Except.bind] at hfields ⊢
  rw [hfields]
  simp only [hnames, h]

/-- A field that was written is read as what was written for it. -/
theorem Yaml.Record.optional_of_lookup {α : Type} {r : Record} {name : String} {value : Value α}
    {n : Node} {a default : α} (hlookup : r.fields.lookup name = some n)
    (hvalue : value r.document n = .ok a) : r.optional name value default = .ok a := by
  rw [optional, hlookup]
  exact hvalue

theorem Yaml.Record.required_of_lookup {α : Type} {r : Record} {name : String} {value : Value α}
    {n : Node} {a : α} (hlookup : r.fields.lookup name = some n)
    (hvalue : value r.document n = .ok a) : r.required name value = .ok a := by
  rw [required, hlookup]
  exact hvalue

/-! ## Hosts -/

/-- A new entry comes to the others, wherever its place is. -/
theorem putHost_perm {entries : List (String × String)} {name address : String}
    (h : ∀ e ∈ entries, e.1 ≠ name) :
    (putHost name address entries).Perm ((name, address) :: entries) := by
  induction entries with
  | nil => exact .refl _
  | cons e entries ih =>
    obtain ⟨he, h⟩ := List.forall_mem_cons.1 h
    rw [putHost, if_neg he.symm]
    split_ifs
    · exact .refl _
    · exact ((ih h).cons e).trans (.swap _ _ _)

theorem HostTable.ext {t t' : HostTable} (h : t.entries = t'.entries) : t = t' := by
  cases t
  cases t'
  cases h
  rfl

theorem HostTable.nodup_names (t : HostTable) : (t.entries.map (·.1)).Nodup :=
  List.pairwise_map.2 (t.sorted.imp fun {a b} (hlt : a.1 < b.1) (heq : a.1 = b.1) =>
    String.lt_irrefl _ (heq ▸ hlt))

/-- Entries that are put into a table one by one all get there, if no two have one name. -/
theorem HostTable.foldl_insert {rest : List (String × String)} (t : HostTable)
    (h : ((t.entries ++ rest).map (·.1)).Nodup) :
    (rest.foldl (fun t e => t.insert e.1 e.2) t).entries.Perm (t.entries ++ rest) := by
  induction rest generalizing t with
  | nil => rw [List.foldl_nil, List.append_nil]
  | cons e rest ih =>
    have hne : ∀ f ∈ t.entries, f.1 ≠ e.1 := by
      rw [List.map_append, List.map_cons] at h
      intro f hf
      exact (List.nodup_append.1 h).2.2 f.1 (List.mem_map_of_mem hf) e.1 List.mem_cons_self
    have hinsert : ((t.insert e.1 e.2).entries ++ rest).Perm (t.entries ++ e :: rest) :=
      ((putHost_perm hne).append_right rest).trans List.perm_middle.symm
    exact (ih (t.insert e.1 e.2) ((hinsert.map _).nodup_iff.2 h)).trans hinsert

/-- **The entries of a table make that table, in whatever order they are.** Both are in order, so
    they are equal once they have the same entries. -/
theorem HostTable.ofList_of_perm {t : HostTable} {hosts : List (String × String)}
    (h : hosts.Perm t.entries) : ofList hosts = t := by
  have hperm : (ofList hosts).entries.Perm t.entries :=
    (foldl_insert empty ((h.map _).nodup_iff.2 t.nodup_names)).trans h
  exact HostTable.ext (hperm.eq_of_pairwise
    (fun _ _ _ _ hlt hgt => absurd hgt (String.lt_asymm hlt)) (ofList hosts).sorted t.sorted)

/-! ## Configurations -/

section Parts

variable (d : Yaml.Document)

open Yaml.Value in
theorem DutConfig.value_tree (c : DutConfig) : DutConfig.value d c.tree.node = .ok c := by
  obtain ⟨name, user, port, sshKey, timeoutSecs⟩ := c
  have hnames : Record.repeated? ["name", "user", "port", "ssh_key", "timeout"]
      ["name", "user", "port", "ssh_key", "timeout"] = none := by decide
  rw [value, tree, Yaml.Record.read_tree d hnames]
  simp only [bind, Except.bind, List.map_cons, List.map_nil]
  rw [Yaml.Record.optional_of_lookup rfl (unsigned_tree d port.toNat_lt)]
  simp only
  rw [Yaml.Record.optional_of_lookup rfl (unsigned_tree d timeoutSecs.toNat_lt)]
  simp only
  rw [Yaml.Record.required_of_lookup rfl (text_tree d name)]
  simp only
  rw [Yaml.Record.optional_of_lookup rfl (text_tree d user)]
  simp only
  cases sshKey with
  | none =>
    rw [Yaml.Record.optional_of_lookup rfl (text?_null d)]
    simp
  | some key =>
    rw [Yaml.Record.optional_of_lookup rfl (text?_tree d key)]
    simp

open Yaml.Value in
theorem RetryPolicy.value_tree {p : RetryPolicy} (h : p.multiplier.isNaN = false) :
    RetryPolicy.value d p.tree.node = .ok p := by
  have hnames : Record.repeated? ["max_retries", "initial_delay_ms", "backoff_multiplier", "max_delay_ms"]
      ["max_retries", "initial_delay_ms", "backoff_multiplier", "max_delay_ms"] = none := by decide
  rw [value, tree, Yaml.Record.read_tree d hnames]
  simp only [bind, Except.bind, List.map_cons, List.map_nil]
  rw [Yaml.Record.optional_of_lookup rfl (unsigned_tree d p.maxRetries.toNat_lt)]
  simp only
  rw [Yaml.Record.optional_of_lookup rfl (unsigned_tree d p.initialDelayMs.toNat_lt)]
  simp only
  rw [Yaml.Record.optional_of_lookup rfl (unsigned_tree d p.maxDelayMs.toNat_lt)]
  simp only
  rw [Yaml.Record.optional_of_lookup rfl (float_tree d h)]
  simp

open Yaml.Value in
theorem Config.value_tree {c : Config} {hosts : List (String × String)}
    (h : c.dialRetry.multiplier.isNaN = false) (hhosts : hosts.Perm c.hosts.entries) :
    Config.value d (Tree.record (c.fields hosts)).node = .ok c := by
  have hnames : Record.repeated? fieldNames fieldNames = none := by decide
  rw [value, fields, Yaml.Record.read_tree d hnames]
  simp only [bind, Except.bind, List.map_cons, List.map_nil]
  rw [Yaml.Record.required_of_lookup rfl (DutConfig.value_tree d c.dut)]
  simp only
  rw [Yaml.Record.optional_of_lookup rfl (unsigned_tree d c.chunkSize.toNat_lt)]
  simp only
  rw [Yaml.Record.optional_of_lookup rfl (unsigned_tree d c.rebootTimeoutSecs.toNat_lt)]
  simp only
  rw [Yaml.Record.optional_of_lookup rfl (unsigned_tree d c.firmwareRebootTimeoutSecs.toNat_lt)]
  simp only
  rw [Yaml.Record.optional_of_lookup rfl (pairs_tree d hosts)]
  simp only
  rw [Yaml.Record.optional_of_lookup rfl (text_tree d c.cacheAddress)]
  simp only
  rw [Yaml.Record.optional_of_lookup rfl (text_tree d c.serializerPath)]
  simp only
  rw [Yaml.Record.optional_of_lookup rfl (RetryPolicy.value_tree d h)]
  simp [HostTable.ofList_of_perm hhosts]

end Parts

theorem fits_number (n : Nat) : (Tree.number n).Fits := .plain (Yaml.plain_toString n)

/-- A configuration can be written. -/
theorem Config.fits {c : Config} (hnan : c.dialRetry.multiplier.isNaN = false)
    (hosts : List (String × String)) : (Tree.record (c.fields hosts)).Fits := by
  have hdut : c.dut.tree.Fits := by
    refine .record ?_
    simp only [List.forall_mem_cons, List.not_mem_nil, false_imp_iff, implies_true, and_true]
    refine ⟨.text _, .text _, fits_number _, ?_, fits_number _⟩
    cases c.dut.sshKey with
    | none => exact .plain (Yaml.plain_word (by decide)
        (by simp [Yaml.isPrintable, Yaml.isGap, Yaml.isBreak]) (by decide) (by decide) (by decide))
    | some key => exact .text key
  have hhosts : (Tree.record (hosts.map fun e => (e.1, .text e.2))).Fits :=
    .record (List.forall_mem_map.2 fun e _ => .text e.2)
  have hretry : c.dialRetry.tree.Fits := by
    refine .record ?_
    simp only [List.forall_mem_cons, List.not_mem_nil, false_imp_iff, implies_true, and_true]
    exact ⟨fits_number _, fits_number _, .plain (Yaml.plain_floatText hnan), fits_number _⟩
  refine .record ?_
  simp only [fields, List.forall_mem_cons, List.not_mem_nil, false_imp_iff, implies_true, and_true]
  exact ⟨hdut, hhosts, .text _, .text _, fits_number _, fits_number _, fits_number _, hretry⟩

/-- **A configuration that was written is read as that configuration**, whatever the order of its
    hosts, unless it is not fit for use. -/
theorem Config.parse_document {c : Config} {hosts : List (String × String)}
    (hnan : c.dialRetry.multiplier.isNaN = false) (hhosts : hosts.Perm c.hosts.entries) :
    Config.parse (c.document hosts) = c.validate.map fun _ => c := by
  have hread : readDocument Config.value (c.document hosts) = .ok c := by
    rw [readDocument, document, Yaml.parse_document (fits hnan hosts)]
    exact value_tree _ hnan hhosts
  rw [parse, hread]

end Reimage
