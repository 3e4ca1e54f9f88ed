import Classpath.Artifact.Document
import Classpath.Model

namespace Classpath

/-! # Models as documents

A model is a record in which only the application artifact has to be there. Sets of keys are
sequences of tokens in the order of the set, so equal models are equal documents. -/

open Document (Field Format Read Shape asKeySet asList asTextMap)

namespace OrderedSet

/-- A set of keys as the sequence of their tokens. -/
def toDocument (keys : KeySet) : Document :=
  .sequence (keys.toList.map fun k => .text k.token)

end OrderedSet

namespace OrderedMap

/-- A map of texts as a table. -/
def toDocument (m : OrderedMap String String) : Document :=
  .table (m.entries.map fun e => (e.1, .text e.2))

end OrderedMap

namespace Model

def shape (format : Format) : Shape :=
  { name := "AppModel"
    fields :=
      [.defaulted "parent_first_artifacts" asKeySet,
       .defaulted "runner_parent_first_artifacts" asKeySet,
       .defaulted "lesser_priority_artifacts" asKeySet,
       .defaulted "local_project_artifacts" asKeySet,
       .needed "app_artifact" (Artifact.ofDocument format),
       .defaulted "platform_properties" asTextMap,
       .defaulted "runtime_deps" (asList (Dependency.ofDocument format)),
       .defaulted "deployment_deps" (asList (Dependency.ofDocument format)),
       .defaulted "full_deployment_deps" (asList (Dependency.ofDocument format))]
    closed := false }

def ofDocument (format : Format) (d : Document) : Read Model := do
  let fields ← (shape format).read format d
  let parentFirst ← fields.getD "parent_first_artifacts" asKeySet ∅
  let runnerParentFirst ← fields.getD "runner_parent_first_artifacts" asKeySet ∅
  let lesserPriority ← fields.getD "lesser_priority_artifacts" asKeySet ∅
  let localProject ← fields.getD "local_project_artifacts" asKeySet ∅
  let application ← fields.need "app_artifact" (Artifact.ofDocument format)
  let properties ← fields.getD "platform_properties" asTextMap ∅
  let runtime ← fields.getD "runtime_deps" (asList (Dependency.ofDocument format)) []
  let deployment ← fields.getD "deployment_deps" (asList (Dependency.ofDocument format)) []
  let fullDeployment ← fields.getD "full_deployment_deps" (asList (Dependency.ofDocument format)) []
  return { parentFirst, runnerParentFirst, lesserPriority, localProject, application, properties,
           runtime, deployment, fullDeployment }

def dependencyItems (deps : List Dependency) : Document :=
  .sequence (deps.map Dependency.toDocument)

def toDocument (m : Model) : Document :=
  .table
    [("parent_first_artifacts", m.parentFirst.toDocument),
     ("runner_parent_first_artifacts", m.runnerParentFirst.toDocument),
     ("lesser_priority_artifacts", m.lesserPriority.toDocument),
     ("local_project_artifacts", m.localProject.toDocument),
     ("app_artifact", m.application.toDocument),
     ("platform_properties", m.properties.toDocument),
     ("runtime_deps", dependencyItems m.runtime),
     ("deployment_deps", dependencyItems m.deployment),
     ("full_deployment_deps", dependencyItems m.fullDeployment)]

end Model

end Classpath
