/-
  Where the files of a package are.

  An id that is accepted has no slash, so it is one step of a path. That step goes down into a
  directory of the package's own, unless the id is `.` or `..`.

  * `Plan.target_dlcSlotDir`, `Plan.target_verifiedMark`: where the image and the mark of a package
    are;
  * `Request.validate_places`: which accepted ids stay in the directories of the packages, and that
    no two of them share a directory.
-/
import Reimage.Install.Plan
import Reimage.Proofs.Path

namespace Reimage

open Reimage.Path Plan

/-! ## Accepted ids -/

namespace Request

theorem validDlcId_of_mem {r : Request} (h : r.validate = .ok ()) :
    ∀ id ∈ r.dlcIds, validDlcId id = true := by
  intro id hid
  unfold validate at h
  split at h
  · cases h
  split at h
  · cases h
  · rename_i hfind
    by_contra hinvalid
    have hsome := List.find?_eq_none.1 hfind id hid
    exact hsome (by simpa using hinvalid)

/-- An id that is accepted is not empty and has no slash. -/
theorem plain_of_validDlcId {id : String} (h : validDlcId id = true) :
    id ≠ "" ∧ '/' ∉ id.toList := by
  rw [validDlcId, Bool.and_eq_true, List.all_eq_true] at h
  obtain ⟨hne, hall⟩ := h
  refine ⟨fun hid => ?_, fun hslash => ?_⟩
  · subst hid
    cases hne
  · have hc := hall _ hslash
    simp at hc

end Request

/-! ## Images and marks -/

theorem Slot.dlcName_inj {slot slot' : Slot} : slot.dlcName = slot'.dlcName ↔ slot = slot' := by
  cases slot <;> cases slot' <;> decide

namespace Plan

variable {id : String} {slot : Slot}

theorem target_dlcSlotDir (h : Request.validDlcId id = true) : target (dlcSlotDir id slot) =
    enter ["var", "cache", "dlc"] id ++ ["package", slot.dlcName] := by
  obtain ⟨hne, hslash⟩ := Request.plain_of_validDlcId h
  have hcache : target dlcCacheDir = ["var", "cache", "dlc"] := by decide
  have hpackage : ∀ dir, enter dir dlcPackage = dir ++ ["package"] := fun _ => rfl
  have hslot : ∀ dir, enter dir slot.dlcName = dir ++ [slot.dlcName] := by
    cases slot <;> exact fun _ => rfl
  rw [dlcSlotDir, target_name (by cases slot <;> decide) (by cases slot <;> decide),
    target_name (by decide) (by decide), target_name hslash hne, hcache, hpackage, hslot,
    List.append_assoc]
  rfl

theorem target_verifiedMark (h : Request.validDlcId id = true) : target (verifiedMark id slot) =
    enter ["var", "lib", "dlcservice", "dlc"] id ++ [slot.dlcName, "verified"] := by
  obtain ⟨hne, hslash⟩ := Request.plain_of_validDlcId h
  have hlib : target dlcLibDir = ["var", "lib", "dlcservice", "dlc"] := by decide
  have hverified : ∀ dir, enter dir dlcVerified = dir ++ ["verified"] := fun _ => rfl
  have hslot : ∀ dir, enter dir slot.dlcName = dir ++ [slot.dlcName] := by
    cases slot <;> exact fun _ => rfl
  rw [verifiedMark, target_name (by decide) (by decide),
    target_name (by cases slot <;> decide) (by cases slot <;> decide),
    target_name hslash hne, hlib, hslot, hverified, List.append_assoc]
  rfl

/-- Two packages, or two slots, have different directories. -/
theorem target_dlcSlotDir_inj {id' : String} {slot' : Slot} (h : Request.validDlcId id = true)
    (h' : Request.validDlcId id' = true) :
    target (dlcSlotDir id slot) = target (dlcSlotDir id' slot') ↔ id = id' ∧ slot = slot' := by
  rw [target_dlcSlotDir h, target_dlcSlotDir h']
  refine (enter_append_inj (by decide) ?_).trans ?_
  · rfl
  · simp [Slot.dlcName_inj]

theorem target_verifiedMark_inj {id' : String} {slot' : Slot}
    (h : Request.validDlcId id = true) (h' : Request.validDlcId id' = true) :
    target (verifiedMark id slot) = target (verifiedMark id' slot') ↔
      id = id' ∧ slot = slot' := by
  rw [target_verifiedMark h, target_verifiedMark h']
  refine (enter_append_inj (by decide) ?_).trans ?_
  · rfl
  · simp [Slot.dlcName_inj]

/-- The image and the mark of a package in a slot are in directories of the package's own. -/
structure Placed (id : String) (slot : Slot) : Prop where
  image : target (dlcSlotDir id slot) = ["var", "cache", "dlc", id, "package", slot.dlcName]
  mark : target (verifiedMark id slot) =
    ["var", "lib", "dlcservice", "dlc", id, slot.dlcName, "verified"]

theorem placed_iff (h : Request.validDlcId id = true) :
    Placed id slot ↔ id ≠ "." ∧ id ≠ ".." := by
  constructor
  · rintro ⟨himage, -⟩
    rw [target_dlcSlotDir h] at himage
    obtain ⟨rfl, he⟩ | ⟨rfl, he⟩ | ⟨hdot, hdots, -⟩ := enter_cases ["var", "cache", "dlc"] id
    · simp at himage
    · simp at himage
    · exact ⟨hdot, hdots⟩
  · rintro ⟨hdot, hdots⟩
    refine ⟨?_, ?_⟩
    · rw [target_dlcSlotDir h, enter_of_ne hdot hdots]
      rfl
    · rw [target_verifiedMark h, enter_of_ne hdot hdots]
      rfl

end Plan

/-- **Packages stay in their directories.** In a request that is accepted, the image and the mark of
    a package are in directories of the package's own, in both slots, exactly if the id is neither
    `.` nor `..`. Only `..` leads out of the directories of all packages, one directory above them.
    No two accepted ids have a directory in common, whatever they are. -/
theorem Request.validate_places {r : Request} (h : r.validate = .ok ()) :
    (∀ id ∈ r.dlcIds, ∀ slot : Slot,
      (Placed id slot ↔ id ≠ "." ∧ id ≠ "..") ∧
      (["var", "cache", "dlc"] <+: target (dlcSlotDir id slot) ↔ id ≠ "..") ∧
      (["var", "lib", "dlcservice", "dlc"] <+: target (verifiedMark id slot) ↔ id ≠ "..") ∧
      (id = ".." → target (dlcSlotDir id slot) = ["var", "cache", "package", slot.dlcName] ∧
        target (verifiedMark id slot) = ["var", "lib", "dlcservice", slot.dlcName, "verified"])) ∧
    ∀ id ∈ r.dlcIds, ∀ id' ∈ r.dlcIds, ∀ slot slot' : Slot,
      (target (dlcSlotDir id slot) = target (dlcSlotDir id' slot') ↔ id = id' ∧ slot = slot') ∧
      (target (verifiedMark id slot) = target (verifiedMark id' slot') ↔
        id = id' ∧ slot = slot') := by
  have hvalid := validDlcId_of_mem h
  refine ⟨fun id hid slot => ⟨placed_iff (hvalid id hid), ?_, ?_, ?_⟩,
    fun id hid id' hid' slot slot' => ⟨target_dlcSlotDir_inj (hvalid id hid) (hvalid id' hid'),
      target_verifiedMark_inj (hvalid id hid) (hvalid id' hid')⟩⟩
  · rw [target_dlcSlotDir (hvalid id hid)]
    exact isPrefix_enter (by cases slot <;> decide)
  · rw [target_verifiedMark (hvalid id hid)]
    exact isPrefix_enter (by cases slot <;> decide)
  · rintro rfl
    rw [target_dlcSlotDir (hvalid ".." hid), target_verifiedMark (hvalid ".." hid)]
    exact ⟨rfl, rfl⟩

/-- A request with three packages, two of which go to places of their own kind. -/
def dottedRequest : Request :=
  { imagePath := "gs://bucket/build/R100", dlcIds := ["sample-dlc", ".", ".."] }

/-- The image of an accepted package is written outside the directories of the packages. -/
theorem Request.validate_places_dotted : dottedRequest.validate = .ok () ∧
    Placed "sample-dlc" .b ∧ ¬Placed "." .b ∧
    target (dlcSlotDir ".." .b) = ["var", "cache", "package", "dlc_b"] := by
  have h : dottedRequest.validate = .ok () := rfl
  obtain ⟨hplaces, -⟩ := Request.validate_places h
  refine ⟨h, ?_, ?_, ?_⟩
  · exact (hplaces "sample-dlc" (by decide) .b).1.2 (by decide)
  · exact fun hdot => ((hplaces "." (by decide) .b).1.1 hdot).1 rfl
  · exact ((hplaces ".." (by decide) .b).2.2.2 rfl).1

/-- Validation lets a package leave the directories of the packages. -/
theorem Request.places_escape : ∃ r : Request, r.validate = .ok () ∧ ∃ id ∈ r.dlcIds, ∃ slot,
    ¬["var", "cache", "dlc"] <+: target (dlcSlotDir id slot) ∧
    ¬["var", "lib", "dlcservice", "dlc"] <+: target (verifiedMark id slot) :=
  ⟨{ imagePath := "gs://bucket/build/R100", dlcIds := [".."] }, rfl, "..", by decide, .b,
    by decide, by decide⟩

end Reimage
