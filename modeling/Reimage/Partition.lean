/-
  The boot disk and its two slots.

  The disk carries two pairs of partitions: slot A is root 3 with kernel 2, slot B is root 5 with
  kernel 4. An install always writes the slot that is not booted.

  * `Slot.ofRoot` reads the slot off a root device such as `/dev/nvme0n1p3`;
  * `Layout.ofSlot` names the partitions of both slots.
-/
import Reimage.Error
import Reimage.Text.Blank

namespace Reimage

/-- One of the two slots. -/
inductive Slot
  | a
  | b
  deriving DecidableEq, Repr, Inhabited

namespace Slot

def other : Slot → Slot
  | a => b
  | b => a

/-- The number of the slot's root partition. -/
def rootNumber : Slot → String
  | a => "3"
  | b => "5"

/-- The number of the slot's kernel partition. -/
def kernelNumber : Slot → String
  | a => "2"
  | b => "4"

/-- The directory that holds a DLC image for the slot. -/
def dlcName : Slot → String
  | a => "dlc_a"
  | b => "dlc_b"

/-- The letter of the slot. -/
def letter : Slot → String
  | a => "A"
  | b => "B"

/-- The slot with a given root partition number. -/
def ofRootNumber (number : String) : Result Slot :=
  if number = a.rootNumber then .ok a
  else if number = b.rootNumber then .ok b
  else .error (.invalidPartition number)

/-- The slot of a root device, by the digits at the end of its name. -/
def ofRoot (root : String) : Result Slot :=
  match Text.takeEndWhile Text.isDigit (Text.trimChars root.toList) with
  | [] => .error (.invalidPartition ("none found in " ++ root))
  | digits => ofRootNumber (String.ofList digits)

end Slot

/-- The partitions of the booted and of the other slot. -/
structure Layout where
  activeRoot : String
  inactiveRoot : String
  activeKernel : String
  inactiveKernel : String
  deriving DecidableEq, Repr, Inhabited

namespace Layout

/-- The device of a partition. A disk whose name ends in a digit separates the number by a `p`. -/
def device (disk number : String) : String :=
  match disk.toList.getLast? with
  | some c => if Text.isDigit c then disk ++ "p" ++ number else disk ++ number
  | none => number

/-- The layout of `disk` while `slot` is booted from `root`. -/
def ofSlot (slot : Slot) (root disk : String) : Layout :=
  let disk := Text.trim disk
  { activeRoot := Text.trim root
    inactiveRoot := device disk slot.other.rootNumber
    activeKernel := device disk slot.kernelNumber
    inactiveKernel := device disk slot.other.kernelNumber }

/-- The layout of `disk` while it is booted from `root`, whose partition number is `number`. -/
def ofRootNumber (root disk number : String) : Result Layout :=
  (Slot.ofRootNumber number).map fun slot => ofSlot slot root disk

end Layout

end Reimage
