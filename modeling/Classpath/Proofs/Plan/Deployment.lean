import Classpath.Proofs.Assembly.Deployment
import Classpath.Proofs.Plan.Replay

namespace Classpath.Plan

/-! # The deployment rule of a plan

Which deployment dependencies the model of a plan misses in its full deployment list can be told
from the plan and the descriptors of its extensions, without replaying it. -/

open Descriptor (WellFormed Brings)

/-- The artifacts that the entries of a list name. -/
def named (p : Plan) (list : DependencyList) : List Artifact :=
  (p.dependencies list).filterMap fun e => (Artifact.parse e.artifact).toOption

/-- A build leaves an artifact out if it is the launcher in any form, or if a well-formed descriptor
of an extension excludes its key. -/
def Excludes (p : Plan) (files : FileTree) (x : Artifact) : Prop :=
  (x.key.group = "io.quarkus" ∧ x.key.name = "quarkus-ide-launcher") ∨
    ∃ e ∈ p.extensions, ∃ properties, p.Provides files e properties ∧
      (WellFormed properties ∧ Brings properties .excluded x.key)

instance (p : Plan) (files : FileTree) (x : Artifact) : Decidable (p.Excludes files x) :=
  inferInstanceAs (Decidable (_ ∨ _))

/-- The deployment artifacts, in their order and as often, that are not left out and that the full
deployment list lacks. -/
def unlisted (p : Plan) (files : FileTree) : List Artifact :=
  (p.named .deployment).filter fun x => ¬ p.Excludes files x ∧ x ∉ p.named .fullDeployment

variable {p : Plan} {files : FileTree} {a : Assembly}

/-- What the assembly of a replay leaves out. -/
theorem isExcluded_of_replay (h : (p.replay files []).result = .ok a) (x : Artifact) :
    a.isExcluded x = true ↔ p.Excludes files x := by
  obtain ⟨maps, hreplayed⟩ := replayed_of_replay h
  have hkeys : x.key ∈ a.excluded ↔ ∃ e ∈ p.extensions, ∃ properties,
      p.Provides files e properties ∧
        (WellFormed properties ∧ Brings properties .excluded x.key) :=
    hreplayed.mem_keys_iff .excluded (by decide)
  simp only [Assembly.isExcluded, OrderedSet.contains, Bool.or_eq_true, Bool.and_eq_true,
    decide_eq_true_eq, hkeys]
  exact Iff.rfl

/-- A model that was assembled is a replay that was frozen. -/
theorem assemble_eq_ok {m : Model} (h : (p.assemble files).result = .ok m) :
    ∃ a, (p.replay files []).result = .ok a ∧ a.freeze = .ok m := by
  cases ha : (p.replay files []).result with
  | error failure =>
    simp only [assemble, ha] at h
    exact absurd h (by simp [Replay.failed])
  | ok a =>
    cases hm : a.freeze with
    | error fault =>
      simp only [assemble, ha, hm] at h
      exact absurd h (by simp [Replay.failed])
    | ok frozen =>
      simp only [assemble, ha, hm] at h
      cases h
      exact ⟨a, rfl, hm⟩

theorem artifacts_of_standsFor {es : List Entry} {ds : List Dependency}
    (h : List.Forall₂ StandsFor es ds) :
    ds.map Dependency.artifact = es.filterMap fun e => (Artifact.parse e.artifact).toOption := by
  have hartifacts : List.Forall₂ (fun e x => Artifact.parse e.artifact = .ok x) es
      (ds.map Dependency.artifact) := by
    rw [List.forall₂_map_right_iff]
    exact h.imp fun _ _ hd => hd.1
  exact eq_filterMap_of_beside hartifacts fun _ _ => toOption_eq_some_iff.2

/-- What a model misses in its full deployment list was missing in the plan. -/
theorem missingDeployment_of_replay (h : (p.replay files []).result = .ok a) {m : Model}
    (hm : a.freeze = .ok m) :
    m.missingDeployment.map Dependency.artifact = p.unlisted files := by
  obtain ⟨maps, hreplayed⟩ := replayed_of_replay h
  have hdeployment : a.deployment.map Dependency.artifact = p.named .deployment :=
    artifacts_of_standsFor (hreplayed.dependencies .deployment)
  have hfull : a.fullDeployment.map Dependency.artifact = p.named .fullDeployment :=
    artifacts_of_standsFor (hreplayed.dependencies .fullDeployment)
  rw [Assembly.missingDeployment_of_freeze hm, unlisted, ← hdeployment, List.filter_map, hfull]
  refine congrArg _ (List.filter_congr fun d _ => ?_)
  simp only [isExcluded_of_replay h, Function.comp_apply]

/-- Nothing is missing if every deployment artifact that is not left out is listed. -/
theorem unlisted_eq_nil_iff :
    p.unlisted files = [] ↔
      ∀ x ∈ p.named .deployment, ¬ p.Excludes files x → x ∈ p.named .fullDeployment := by
  simp [unlisted, List.filter_eq_nil_iff]

end Classpath.Plan
