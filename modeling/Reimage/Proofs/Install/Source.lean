/-
  The artifacts of an installation can be fetched.

  A request is accepted by the beginning of its image path. Each artifact is fetched from a path
  below it.

  * `accepted_served`: with a proxy, every artifact of an accepted request has an address, unless
    nothing but slashes follow the scheme of the image path. With addresses, no run blames its
    source;
  * `blamed_after_wipe`: without anything after the scheme a request is accepted, and its run fails
    for its source after the device was marked to be wiped.
-/
import Reimage.Proofs.GsPath
import Reimage.Proofs.Install.Blame
import Reimage.Proofs.Install.Success

namespace Reimage

variable {p : Plan}

/-! ## What is accepted -/

/-- An accepted image path begins with the scheme. -/
theorem Request.scheme_isPrefix {r : Request} (h : r.validate = .ok ()) :
    GsPath.scheme.toList <+: r.imagePath.toList := by
  rw [Request.validate] at h
  split at h
  · cases h
  · rename_i hp
    exact List.isPrefixOf_iff_prefix.1 (by simpa using hp)

namespace Plan

theorem names_artifact {a : String} (h : a ∈ p.artifacts) : GsPath.Names a := by
  simp only [artifacts, List.cons_append, List.nil_append, List.mem_cons, List.mem_map] at h
  obtain rfl | rfl | rfl | ⟨id, -, rfl⟩ := h
  · exact ⟨by decide, by decide⟩
  · exact ⟨by decide, by decide⟩
  · exact ⟨by decide, by decide⟩
  · have h : (dlcArtifact id).toList =
        "dlc".toList ++ '/' :: (id ++ "/" ++ dlcPackage ++ "/" ++ dlcImage).toList := by
      simp [dlcArtifact, String.toList_append]
    refine ⟨?_, by simp [h]⟩
    rw [h, Path.components_append]
    exact List.append_ne_nil_of_left_ne_nil (by decide) _

/-- An artifact below an image path with something after the scheme has an address. -/
theorem exists_artifactUrl (hv : p.request.validate = .ok ()) (ha : p.link.cacheAddress ≠ "")
    (hb : ¬ GsPath.Bare p.request.imagePath) {a : String} (h : a ∈ p.artifacts) :
    ∃ url, p.artifactUrl a = .ok url := by
  obtain ⟨path, ht⟩ := GsPath.parse_below (Request.scheme_isPrefix hv) hb (names_artifact h)
  have hend : (CacheProxy.Source.file (p.request.artifact a)).endpoint =
      .ok ("/download/" ++ path.text) := by
    rw [CacheProxy.Source.endpoint, Request.artifact, ht]
    rfl
  exact ⟨_, CacheProxy.url_of_endpoint_ok ha hend⟩

/-- Below an image path with nothing but slashes after the scheme no artifact is a storage
    object. -/
theorem artifactUrl_of_bare (hv : p.request.validate = .ok ())
    (hb : GsPath.Bare p.request.imagePath) {a : String} (h : a ∈ p.artifacts) :
    ∃ text, p.artifactUrl a = .error (.invalidSource text) := by
  obtain ⟨text, ht⟩ := GsPath.parse_below_bare (Request.scheme_isPrefix hv) hb (names_artifact h)
  have hend : (CacheProxy.Source.file (p.request.artifact a)).endpoint =
      .error (.invalidSource text) := by
    rw [CacheProxy.Source.endpoint, Request.artifact, ht]
    rfl
  exact ⟨text, CacheProxy.url_of_endpoint_error hend⟩

end Plan

/-- **What is accepted can be fetched.** With a proxy, the artifacts of a request that was accepted
    have addresses, unless nothing but slashes follow the scheme of its image path: then none has
    one. With addresses, a run blames no source for its failure unless the device has blamed one. -/
theorem accepted_served (hv : p.request.validate = .ok ()) (ha : p.link.cacheAddress ≠ "") :
    (∀ a ∈ p.artifacts, (∃ url, p.artifactUrl a = .ok url) ↔ ¬ GsPath.Bare p.request.imagePath) ∧
    (¬ GsPath.Bare p.request.imagePath → ∀ s tr r, (runFrom p s).Run tr (some r) →
      (∀ e ∈ tr, e.Blameless) → RunFailure.Blameless r) := by
  refine ⟨fun a h => ⟨?_, fun hb => Plan.exists_artifactUrl hv ha hb h⟩, fun hb s tr r h htr => ?_⟩
  · rintro ⟨url, hurl⟩ hb
    obtain ⟨text, ht⟩ := Plan.artifactUrl_of_bare hv hb h
    rw [hurl] at ht
    cases ht
  · have hserved : p.Served := fun a h => Plan.exists_artifactUrl hv ha hb h
    exact runFrom_blameless hserved s tr r h htr

/-! ## A device that cannot be reached -/

/-- A device whose connection is lost when the first partition is written. -/
def losesConnection : Answers Unit
  | .run _ line _ _, s =>
    some (if "curl".toList.isPrefixOf line.toList then .error (.transport "connection lost")
      else .ok { stdout := Text.Utf8.ofString "/dev/sda3\n" }, s)
  | q, s => (obeys q "").map fun r => (r.1, s)

/-- A run that fails for another reason than its source. -/
theorem accepted_served_loses :
    samplePlan.request.validate = .ok () ∧ samplePlan.link.cacheAddress ≠ "" ∧
    (∀ a ∈ samplePlan.artifacts, ∃ url, samplePlan.artifactUrl a = .ok url) ∧
    ∃ tr f, (runFrom samplePlan .init).Run tr (some (.error f)) ∧ (∀ e ∈ tr, e.Blameless) ∧
      Blameless f.error := by
  have hv : samplePlan.request.validate = .ok () := rfl
  have ha : samplePlan.link.cacheAddress ≠ "" := by decide
  have hb : ¬ GsPath.Bare samplePlan.request.imagePath := by decide +kernel
  have hrun := (runFrom samplePlan .init).run_play (f := losesConnection) (none, ())
  have htr : ∀ e ∈ ((runFrom samplePlan .init).play losesConnection (none, ())).1, e.Blameless := by
    decide +kernel
  have hfails : (((runFrom samplePlan .init).play losesConnection (none, ())).2.2.map
      Except.isOk) = some false := by decide +kernel
  obtain ⟨hserved, hblameless⟩ := accepted_served hv ha
  refine ⟨hv, ha, fun a h => (hserved a h).2 hb, ?_⟩
  obtain ⟨f | _, hr, hf⟩ := Option.map_eq_some_iff.1 hfails
  · rw [hr] at hrun
    exact ⟨_, f, hrun, htr, hblameless hb _ _ _ hrun htr f rfl⟩
  · cases hf

/-! ## A request without a bucket -/

/-- A request whose image path is the scheme alone. -/
def barePlan : Plan where
  link := { dut := "dut", cacheAddress := "10.0.0.1:8082" }
  request := { imagePath := "gs://" }

/-- Some event says that the device has taken the mark to be wiped. -/
def wiped (tr : List Event) : Bool :=
  tr.any fun
    | ⟨.run _ line _ _, .ok output⟩ => line == Plan.wipeLine && output.status == 0
    | _ => false

theorem exists_of_wiped {tr : List Event} (h : wiped tr = true) :
    ∃ out, Printed tr Plan.wipeLine out := by
  obtain ⟨⟨q, a⟩, he, h⟩ := List.any_eq_true.1 h
  cases q with
  | run c line stdin mode =>
    cases a with
    | error e => cases h
    | ok output =>
      simp only [Bool.and_eq_true, beq_iff_eq] at h
      obtain ⟨rfl, hstatus⟩ := h
      exact ⟨_, c, stdin, mode, output, he, hstatus, rfl⟩
  | _ => cases h

/-- **A request is accepted that cannot be fetched.** Its image path is the scheme alone. None of
    its artifacts has an address, and on a device that obeys its run blames the source after the
    device was marked to be wiped. -/
theorem blamed_after_wipe :
    barePlan.request.validate = .ok () ∧ barePlan.link.cacheAddress ≠ "" ∧
    (∀ a ∈ barePlan.artifacts, ∃ text, barePlan.artifactUrl a = .error (.invalidSource text)) ∧
    ∃ tr f, (runFrom barePlan .init).Run tr (some (.error f)) ∧ (∀ e ∈ tr, e.Blameless) ∧
      (∃ out, Printed tr Plan.wipeLine out) ∧ f.error.blamesSource = true := by
  have hv : barePlan.request.validate = .ok () := rfl
  have hb : GsPath.Bare barePlan.request.imagePath := by decide +kernel
  have hrun := (runFrom barePlan .init).run_play (f := obeys) (none, "/dev/sda3\n")
  have htr : ∀ e ∈ ((runFrom barePlan .init).play obeys (none, "/dev/sda3\n")).1, e.Blameless := by
    decide +kernel
  have hwiped : wiped ((runFrom barePlan .init).play obeys (none, "/dev/sda3\n")).1 = true := by
    decide +kernel
  have hfails : (((runFrom barePlan .init).play obeys (none, "/dev/sda3\n")).2.2.map fun
      | .ok _ => false
      | .error f => f.error.blamesSource) = some true := by decide +kernel
  refine ⟨hv, by decide, fun a h => Plan.artifactUrl_of_bare hv hb h, ?_⟩
  obtain ⟨f | _, hr, hf⟩ := Option.map_eq_some_iff.1 hfails
  · rw [hr] at hrun
    exact ⟨_, f, hrun, htr, exists_of_wiped hwiped, hf⟩
  · cases hf

end Reimage
