/-
  The numbers of partitions.

  * `Slot.ofRoot_eq_ok`: the slot of a root device is the one whose number the device ends in, and
    white space around the name does not matter;
  * `Layout.digits_device`: the device of a partition ends in the partition's number and in no digit
    of the disk;
  * `Layout.numbered_ofSlot`: the partitions of a layout have the numbers of its two slots, so that
    a partition of the one is none of the other.
-/
import Mathlib.Data.List.DropRight
import Reimage.Partition

namespace Reimage

/-! ## Digits at the end of a text -/

namespace Text

/-- The digits at the end of a text. -/
def endDigits (s : List Char) : List Char := takeEndWhile isDigit s

/-- The number that a text ends in, in decimal. -/
def endNumber? (s : String) : Option Nat :=
  match endDigits s.toList with
  | [] => none
  | digits => some (digits.foldl (fun n c => n * 10 + (c.toNat - '0'.toNat)) 0)

theorem isDigit_of_isBlank {c : Char} (h : isBlank c = true) : isDigit c = false := by
  by_contra hd
  simp only [isDigit, Bool.and_eq_true, decide_eq_true_eq, Bool.not_eq_false] at hd
  have h₁ : 48 ≤ c.toNat := hd.1
  have h₂ : c.toNat ≤ 57 := hd.2
  simp only [isBlank, Bool.or_eq_true, Bool.and_eq_true, decide_eq_true_eq, beq_iff_eq] at h
  omega

theorem endDigits_concat {s : List Char} {c : Char} (h : isDigit c = true) :
    endDigits (s ++ [c]) = endDigits s ++ [c] :=
  List.rtakeWhile_concat_pos isDigit s c h

theorem endDigits_concat_of_not {s : List Char} {c : Char} (h : isDigit c = false) :
    endDigits (s ++ [c]) = [] :=
  List.rtakeWhile_concat_neg isDigit s c (by simp [h])

theorem endDigits_cons_of_not {s : List Char} {c : Char} (h : isDigit c = false) :
    endDigits (c :: s) = endDigits s := by
  induction s using List.reverseRecOn with
  | nil => exact endDigits_concat_of_not (s := []) h
  | append_singleton s d ih =>
    rw [← List.cons_append]
    cases hd : isDigit d
    · rw [endDigits_concat_of_not hd, endDigits_concat_of_not hd]
    · rw [endDigits_concat hd, endDigits_concat hd, ih]

/-- White space in front of a text does not change the digits at its end. -/
theorem endDigits_dropWhile (s : List Char) :
    endDigits (s.dropWhile isBlank) = endDigits s := by
  induction s with
  | nil => rfl
  | cons c s ih =>
    rw [List.dropWhile_cons]
    split
    · rename_i h
      rw [ih, endDigits_cons_of_not (isDigit_of_isBlank h)]
    · rfl

/-- A text that ends in a digit is trimmed in front only. -/
theorem endDigits_trimChars {s : List Char} {c : Char} (h : isDigit c = true) :
    endDigits (trimChars (s ++ [c])) = endDigits (s ++ [c]) := by
  have hb : ¬isBlank c = true := fun hb => by
    rw [isDigit_of_isBlank hb] at h
    cases h
  have hdrop : (s ++ [c]).dropWhile isBlank = s.dropWhile isBlank ++ [c] := by
    rw [List.dropWhile_append]
    split
    · rename_i hs
      rw [List.isEmpty_iff.1 hs, List.dropWhile_cons_of_neg hb, List.nil_append]
    · rfl
  have htrim : trimChars (s ++ [c]) = s.dropWhile isBlank ++ [c] := by
    rw [trimChars, hdrop]
    exact List.rdropWhile_concat_neg isBlank _ c hb
  rw [htrim, endDigits_concat h, endDigits_concat h, endDigits_dropWhile]

/-- White space around a text is removed at once. -/
theorem trimChars_trimChars (s : List Char) : trimChars (trimChars s) = trimChars s := by
  have hfront : (trimChars s).dropWhile isBlank = trimChars s := by
    -- What is left begins as the text without the white space in front of it does.
    have hhead := List.head?_dropWhile_not isBlank s
    obtain ⟨v, hv⟩ : trimChars s <+: s.dropWhile isBlank :=
      List.rdropWhile_prefix isBlank _
    cases h : trimChars s with
    | nil => rfl
    | cons c u =>
      rw [← hv, h] at hhead
      exact List.dropWhile_cons_of_neg (by simpa using hhead)
  rw [trimChars, hfront]
  exact List.rdropWhile_idempotent isBlank _

theorem trim_trim (s : String) : trim (trim s) = trim s := by
  simp [trim, trimChars_trimChars]

end Text

/-! ## Slots -/

namespace Slot

/-- The number of the slot's root partition. -/
def root : Slot → Nat
  | a => 3
  | b => 5

/-- The number of the slot's kernel partition, which is the one before its root. -/
def kernel (s : Slot) : Nat := s.root - 1

theorem root_other (s : Slot) : s.other.root = 8 - s.root := by
  cases s <;> rfl

theorem ofRootNumber_eq_ok {number : String} {s : Slot} :
    ofRootNumber number = .ok s ↔ number = s.rootNumber := by
  unfold ofRootNumber
  split
  · rename_i h
    subst h
    cases s <;> simp [rootNumber]
  · rename_i ha
    split
    · rename_i h
      subst h
      cases s <;> simp [rootNumber]
    · rename_i hb
      cases s <;> simp [ha, hb]

/-- The slot of a root device is the one whose number the device ends in. -/
theorem ofRoot_eq_ok {root : String} {s : Slot} :
    ofRoot root = .ok s ↔
      Text.endDigits (Text.trimChars root.toList) = s.rootNumber.toList := by
  rw [Text.endDigits, ofRoot]
  split
  · rename_i h
    rw [h]
    cases s <;> simp [rootNumber]
  · rw [ofRootNumber_eq_ok]
    constructor
    · intro h
      rw [← h, String.toList_ofList]
    · intro h
      rw [h, String.ofList_toList]

/-- White space around the name of a root device does not matter. -/
theorem ofRoot_trim (root : String) (s : Slot) :
    ofRoot (Text.trim root) = .ok s ↔ ofRoot root = .ok s := by
  simp [ofRoot_eq_ok, Text.trim, Text.trimChars_trimChars]

/-- The number of a root device is the number of its slot. -/
theorem endNumber_of_ofRoot {root : String} {s : Slot} (h : ofRoot root = .ok s) :
    Text.endNumber? (Text.trim root) = some s.root := by
  have h := ofRoot_eq_ok.1 h
  rw [Text.endNumber?, Text.trim, String.toList_ofList, h]
  cases s <;> decide

end Slot

/-! ## Layouts -/

namespace Layout

section

variable (s : Slot) (root disk : String)

theorem ofSlot_activeRoot : (ofSlot s root disk).activeRoot = Text.trim root := by
  rw [ofSlot]

theorem ofSlot_activeKernel :
    (ofSlot s root disk).activeKernel = device (Text.trim disk) s.kernelNumber := by
  rw [ofSlot]

theorem ofSlot_inactiveRoot :
    (ofSlot s root disk).inactiveRoot = device (Text.trim disk) s.other.rootNumber := by
  rw [ofSlot]

theorem ofSlot_inactiveKernel :
    (ofSlot s root disk).inactiveKernel = device (Text.trim disk) s.other.kernelNumber := by
  rw [ofSlot]

end

/-- The device of a partition is its number after a text that ends in no digit. -/
theorem exists_device_eq (disk : String) (d : Char) :
    ∃ front, (device disk (String.ofList [d])).toList = front ++ [d] ∧
      Text.endDigits front = [] := by
  cases h : disk.toList.getLast? with
  | none => exact ⟨[], by simp [device, h], rfl⟩
  | some c =>
    obtain ⟨front, hdisk⟩ := List.getLast?_eq_some_iff.1 h
    cases hc : Text.isDigit c
    · refine ⟨front ++ [c], ?_, Text.endDigits_concat_of_not hc⟩
      simp [device, hc, hdisk]
    -- The separator keeps the digits of the disk apart from the number.
    · refine ⟨front ++ [c] ++ ['p'], ?_, Text.endDigits_concat_of_not (by decide)⟩
      simp [device, hc, hdisk]

/-- The device of a partition ends in the partition's number, and in no digit of the disk. -/
theorem endDigits_device (disk : String) {d : Char} (hd : Text.isDigit d = true) :
    Text.endDigits (device disk (String.ofList [d])).toList = [d] := by
  obtain ⟨front, h, hfront⟩ := exists_device_eq disk d
  rw [h, Text.endDigits_concat hd, hfront, List.nil_append]

theorem endDigits_trim_device (disk : String) {d : Char} (hd : Text.isDigit d = true) :
    Text.endDigits (Text.trimChars (device disk (String.ofList [d])).toList) = [d] := by
  obtain ⟨front, h, hfront⟩ := exists_device_eq disk d
  rw [h, Text.endDigits_trimChars hd, Text.endDigits_concat hd, hfront, List.nil_append]

theorem endNumber_device (disk : String) {d : Char} (hd : Text.isDigit d = true) :
    Text.endNumber? (device disk (String.ofList [d])) = some (d.toNat - '0'.toNat) := by
  rw [Text.endNumber?, endDigits_device disk hd]
  simp

theorem endNumber_rootDevice (disk : String) (s : Slot) :
    Text.endNumber? (device disk s.rootNumber) = some s.root := by
  cases s <;> exact endNumber_device disk (by decide)

theorem endNumber_kernelDevice (disk : String) (s : Slot) :
    Text.endNumber? (device disk s.kernelNumber) = some s.kernel := by
  cases s <;> exact endNumber_device disk (by decide)

/-- The root device of a slot is read back as this slot. -/
theorem ofRoot_rootDevice (disk : String) (s : Slot) :
    Slot.ofRoot (device disk s.rootNumber) = .ok s := by
  rw [Slot.ofRoot_eq_ok]
  cases s <;> exact endDigits_trim_device disk (by decide)

/-- The partitions of `l` have the numbers of slot `s`, which is booted, and of the other slot. -/
structure Numbered (l : Layout) (s : Slot) : Prop where
  activeRoot : Text.endNumber? l.activeRoot = some s.root
  activeKernel : Text.endNumber? l.activeKernel = some s.kernel
  inactiveRoot : Text.endNumber? l.inactiveRoot = some s.other.root
  inactiveKernel : Text.endNumber? l.inactiveKernel = some s.other.kernel

/-- **The layout of the slot that a root device belongs to.** -/
theorem numbered_ofSlot {root : String} {s : Slot} (h : Slot.ofRoot root = .ok s)
    (disk : String) : (ofSlot s root disk).Numbered s where
  activeRoot := by rw [ofSlot_activeRoot, Slot.endNumber_of_ofRoot h]
  activeKernel := by rw [ofSlot_activeKernel, endNumber_kernelDevice]
  inactiveRoot := by rw [ofSlot_inactiveRoot, endNumber_rootDevice]
  inactiveKernel := by rw [ofSlot_inactiveKernel, endNumber_kernelDevice]

/-- No partition that is to be written is one of those that are in use. -/
def Apart (l : Layout) : Prop :=
  ∀ written ∈ [l.inactiveRoot, l.inactiveKernel], ∀ used ∈ [l.activeRoot, l.activeKernel],
    written ≠ used

/-- Partitions with different numbers are different. -/
theorem Numbered.apart {l : Layout} {s : Slot} (h : l.Numbered s) : l.Apart := by
  have hne : ∀ {x y : String} {m n : Nat}, Text.endNumber? x = some m →
      Text.endNumber? y = some n → m ≠ n → x ≠ y := by
    rintro x _ m n hx hy hmn rfl
    rw [hx] at hy
    exact hmn (Option.some.inj hy)
  simp only [Apart, List.mem_cons, List.not_mem_nil, or_false, forall_eq_or_imp, forall_eq]
  refine ⟨⟨hne h.inactiveRoot h.activeRoot ?_, hne h.inactiveRoot h.activeKernel ?_⟩,
    hne h.inactiveKernel h.activeRoot ?_, hne h.inactiveKernel h.activeKernel ?_⟩ <;>
  cases s <;> decide

end Layout

end Reimage
