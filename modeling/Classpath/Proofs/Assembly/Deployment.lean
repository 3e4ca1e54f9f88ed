import Classpath.Command.Run
import Classpath.Proofs.Assembly.Rearrangement
import Classpath.Proofs.Files.Replace
import Classpath.Proofs.Model.Roundtrip

namespace Classpath

/-! # The deployment rule

Each deployment dependency belongs into the full deployment list too, and verifying a model fails if
one is missing there. Freezing filters both lists by themselves and by keys, while the rule compares
artifacts with their versions.

1. **Lists**: whether a dependency is excluded is known from its artifact, so no exclusion takes a
   dependency out of the full list alone. What is missing after the filters was missing before.
2. **Verifying**: what decides on the result of the verify command.
3. **Exclusions**: keys and descriptors cannot break the rule. -/

namespace Assembly

/-! ## Lists -/

theorem mem_artifacts_retained {a : Assembly} {x : Artifact} (hx : a.isExcluded x = false)
    (deps : List Dependency) :
    x ∈ (a.retained deps).map Dependency.artifact ↔ x ∈ deps.map Dependency.artifact := by
  simp only [List.mem_map, retained, List.mem_filter]
  constructor
  · rintro ⟨d, ⟨hd, _⟩, rfl⟩
    exact ⟨d, hd, rfl⟩
  · rintro ⟨d, hd, rfl⟩
    exact ⟨d, ⟨hd, by rw [hx]; rfl⟩, rfl⟩

theorem missingDeployment_of_freeze {a : Assembly} {m : Model} (h : a.freeze = .ok m) :
    m.missingDeployment = a.deployment.filter fun d =>
      ¬ a.isExcluded d.artifact ∧ d.artifact ∉ a.fullDeployment.map Dependency.artifact := by
  have hdeployment : m.deployment = a.deployment.filter fun d => !a.isExcluded d.artifact :=
    dependencies_freeze h .deployment
  have hfull : m.fullDeployment = a.retained a.fullDeployment :=
    dependencies_freeze h .fullDeployment
  rw [Model.missingDeployment, hdeployment, hfull, List.filter_filter]
  refine List.filter_congr fun d _ => ?_
  -- What is kept is as much in the filtered list as it is in the list.
  cases hd : a.isExcluded d.artifact with
  | true => simp
  | false => simp [mem_artifacts_retained hd]

end Assembly

/-! ## Verifying -/

namespace Model

/-- Nothing is missing if every deployment artifact is in the full deployment list. -/
theorem missingDeployment_eq_nil_iff (m : Model) :
    m.missingDeployment = [] ↔
      ∀ d ∈ m.deployment, ∃ f ∈ m.fullDeployment, f.artifact = d.artifact := by
  simp [missingDeployment, List.filter_eq_nil_iff]

/-- A file with the text of a model holds the model. -/
theorem load_of_readText {m : Model} (h : m.KeysComplete) {files : FileTree} {path : Path}
    (hfile : files.readText path = .ok m.fileText) : load files path = .ok m := by
  have hdecode : decode m.fileText = .ok m := mapError_eq_ok.1 (ofToml_fileText h)
  rw [load, hfile]
  simp only [ofSource, hdecode, mapError_ok]

end Model

namespace Command

/-- Verifying succeeds if nothing is missing and the fingerprint is the expected one. -/
theorem runVerify_eq_ok_iff {files : FileTree} {path : Path} {m : Model}
    (h : Model.load files path = .ok m) (colours : Bool) (expected : Option String) :
    (runVerify colours files path expected).result = .ok () ↔
      m.missingDeployment = [] ∧ expected.getD m.fingerprint = m.fingerprint := by
  rw [runVerify, h]
  dsimp only
  split
  next hmissing => simp [hmissing]
  next hnone =>
    have hnone : m.missingDeployment = [] := Decidable.not_not.1 hnone
    split
    next hother => simp [Run.failed, hother]
    next hsame => simp [Run.printed, hnone, Decidable.not_not.1 hsame]

end Command

/-! ## Exclusions -/

namespace Assembly

section Laneless

variable {calls : List Call} (h : ∀ call ∈ calls, call.lane? = none) (a : Assembly)
include h

theorem inLane_eq_nil (lane : Lane) : inLane lane calls = [] := by
  refine List.filter_eq_nil_iff.2 fun call hcall => ?_
  rw [h call hcall]
  simp

theorem dependencies_run_laneless (list : DependencyList) :
    (a.run calls).1.dependencies list = a.dependencies list := by
  rw [dependencies_run, flatMap_inLane (fun _ answer hlane => appended_eq_nil answer hlane),
    inLane_eq_nil h]
  exact List.append_nil _

theorem application_run_laneless : (a.run calls).1.application = a.application := by
  rw [application_run, flatMap_inLane (fun _ answer hlane => chosen_eq_nil answer hlane),
    inLane_eq_nil h]
  rfl

end Laneless

/-- The deployment dependencies that a model misses in its full deployment list are, in their order
and as often, those that are not excluded and whose artifact was never in the list.

So if every artifact was there, the model is in order whatever keys and descriptors came before or
come now, and verifying it succeeds wherever it is stored. -/
theorem missingDeployment_freeze (a : Assembly) (h : a.application.isSome = true) :
    (∃ m, a.freeze = .ok m ∧ m.missingDeployment = a.deployment.filter fun d =>
        ¬ a.isExcluded d.artifact ∧ d.artifact ∉ a.fullDeployment.map Dependency.artifact) ∧
      ((∀ d ∈ a.deployment, d.artifact ∈ a.fullDeployment.map Dependency.artifact) →
        ∀ calls : List Call, (∀ call ∈ calls, call.lane? = none) →
          ∃ m, (a.run calls).1.freeze = .ok m ∧ m.missingDeployment = [] ∧
            ∀ files path, Model.load files path = .ok m →
              ∀ colours, ∀ expected ∈ [none, some m.fingerprint],
                (Command.runVerify colours files path expected).result = .ok ()) := by
  constructor
  · rcases exists_freeze h with ⟨m, hm⟩
    exact ⟨m, hm, missingDeployment_of_freeze hm⟩
  · intro hcovered calls hcalls
    have happlication : (a.run calls).1.application.isSome = true := by
      rw [application_run_laneless hcalls]
      exact h
    rcases exists_freeze happlication with ⟨m, hm⟩
    -- The two lists are those from before, and there nothing is missing.
    have hdeployment : (a.run calls).1.deployment = a.deployment :=
      dependencies_run_laneless hcalls a .deployment
    have hfull : (a.run calls).1.fullDeployment = a.fullDeployment :=
      dependencies_run_laneless hcalls a .fullDeployment
    have hnone : m.missingDeployment = [] := by
      rw [missingDeployment_of_freeze hm, hdeployment, hfull, List.filter_eq_nil_iff]
      intro d hd
      simp only [decide_eq_true_eq, not_and, Decidable.not_not]
      exact fun _ => hcovered d hd
    refine ⟨m, hm, hnone, ?_⟩
    intro files path hload colours expected hexpected
    rw [Command.runVerify_eq_ok_iff hload]
    refine ⟨hnone, ?_⟩
    simp only [List.mem_cons, List.not_mem_nil, or_false] at hexpected
    rcases hexpected with rfl | rfl
    · rfl
    · rfl

/-- A dependency that comes twice is in the full list in another version only, one is there with
other flags, and one that is not there is excluded. -/
def versionedCalls : List Call :=
  [.setApplication ⟨.plain "g" "app", "1"⟩,
   .addDependencies .deployment
    [.ofArtifact ⟨.plain "g" "a", "1"⟩, .ofArtifact ⟨.plain "g" "b", "1"⟩,
     .ofArtifact ⟨.plain "g" "c", "1"⟩, .ofArtifact ⟨.plain "g" "a", "1"⟩],
   .addDependencies .fullDeployment
    [.ofArtifact ⟨.plain "g" "a", "2"⟩, ⟨⟨.plain "g" "b", "1"⟩, "test", false, true⟩],
   .addKey .excluded (.plain "g" "c")]

/-- Calls that keep the rule, if with another scope and other flags. -/
def coveredCalls : List Call :=
  [.setApplication ⟨.plain "g" "app", "1"⟩,
   .addDependency .deployment (.ofArtifact ⟨.plain "g" "a", "1"⟩),
   .addDependencies .fullDeployment
    [⟨⟨.plain "g" "a", "1"⟩, "test", false, true⟩, .ofArtifact ⟨.plain "g" "b", "1"⟩]]

/-- Exclusions by a call and by a descriptor, after all lists are there. -/
def lateExclusions : List Call :=
  [.addKey .excluded (.plain "g" "b"), .merge "e" (.ofList [("excluded-artifacts", "g:c")])]

/-- The tree with one model file. -/
def modelTree (m : Model) : FileTree :=
  (FileTree.empty []).plant ["m"] (.file m.fileText.toUTF8)

theorem readText_modelTree (m : Model) : (modelTree m).readText "m" = .ok m.fileText :=
  FileTree.readText_of_find rfl

theorem missingDeployment_freeze_versioned :
    (∃ m, (empty.run versionedCalls).1.freeze = .ok m ∧
      m.missingDeployment =
        [.ofArtifact ⟨.plain "g" "a", "1"⟩, .ofArtifact ⟨.plain "g" "a", "1"⟩]) ∧
      ∃ m, ((empty.run coveredCalls).1.run lateExclusions).1.freeze = .ok m ∧
        m.fullDeployment ≠ (empty.run coveredCalls).1.fullDeployment ∧
        (Command.runVerify false (modelTree m) "m" none).result = .ok () := by
  constructor
  · have happlication : (empty.run versionedCalls).1.application.isSome = true := by decide
    rcases (missingDeployment_freeze _ happlication).1 with ⟨m, hm, hmissing⟩
    refine ⟨m, hm, ?_⟩
    rw [hmissing]
    decide
  · have happlication : (empty.run coveredCalls).1.application.isSome = true := by decide
    have hcovered : ∀ d ∈ (empty.run coveredCalls).1.deployment,
        d.artifact ∈ (empty.run coveredCalls).1.fullDeployment.map Dependency.artifact := by
      decide
    have hlate : ∀ call ∈ lateExclusions, call.lane? = none := by decide
    rcases (missingDeployment_freeze _ happlication).2 hcovered _ hlate with ⟨m, hm, _, hverify⟩
    have hsound : ((empty.run coveredCalls).1.run lateExclusions).1.Sound :=
      (sound_empty.run coveredCalls).run lateExclusions
    have hload : Model.load (modelTree m) "m" = .ok m :=
      Model.load_of_readText (keysComplete_freeze hsound hm) (readText_modelTree m)
    refine ⟨m, hm, ?_, hverify _ _ hload false none (by simp)⟩
    cases hm
    decide

end Assembly

end Classpath
