import Classpath.Artifact
import Classpath.OrderedMap
import Classpath.Properties

namespace Classpath

/-! # Application models

What a build hands to the two class loaders: the application artifact, three dependency lists in
resolver order, four sets of keys and the platform properties. A model is a plain value; whoever
reads it asks where a key belongs and in which order isolated dependencies are searched. -/

abbrev KeySet := OrderedSet Key

structure Model where
  parentFirst : KeySet
  runnerParentFirst : KeySet
  lesserPriority : KeySet
  localProject : KeySet
  application : Artifact
  properties : PropertyMap
  runtime : List Dependency
  deployment : List Dependency
  fullDeployment : List Dependency
deriving Repr, DecidableEq

namespace Model

/-- The application artifact and the sizes of the lists and sets. -/
def display (m : Model) : String :=
  let runtime := m.runtime.length
  let deployment := m.deployment.length
  let full := m.fullDeployment.length
  let parentFirst := m.parentFirst.size
  let runner := m.runnerParentFirst.size
  let lesser := m.lesserPriority.size
  let project := m.localProject.size
  s!"{m.application.token} (runtime: {runtime}, deployment: {deployment}, " ++
    s!"full deployment: {full}, parent-first: {parentFirst}, runner parent-first: {runner}, " ++
    s!"lesser-priority: {lesser}, local project: {project})"

/-! ## Placement -/

/-- The two class loading contexts of a model. -/
inductive Context where
  | augmentation
  | runner
deriving Repr, DecidableEq

namespace Context

def all : List Context :=
  [.augmentation, .runner]

def name : Context → String
  | .augmentation => "augmentation"
  | .runner => "runner"

end Context

/-- Which loader serves a key: the parent, or the isolated loader early or late. -/
inductive Placement where
  | parentFirst
  | isolated
  | lesserPriority
deriving Repr, DecidableEq

def Placement.name : Placement → String
  | .parentFirst => "parent-first"
  | .isolated => "isolated"
  | .lesserPriority => "lesser-priority"

/-- The keys that a context takes from its parent first. -/
def parentFirstIn (m : Model) : Context → KeySet
  | .augmentation => m.parentFirst
  | .runner => m.runnerParentFirst

/-- Where a key belongs in a context; parent-first goes before lesser priority. -/
def placement (m : Model) (key : Key) (context : Context) : Placement :=
  if key ∈ m.parentFirstIn context then .parentFirst
  else if key ∈ m.lesserPriority then .lesserPriority
  else .isolated

/-- The order in which the isolated loader of a context searches some dependencies: those of lesser
priority last, and those that come from the parent not at all. -/
def searchOrder (m : Model) (deps : List Dependency) (context : Context) : List Dependency :=
  let kept := deps.filter fun d => m.placement d.key context ≠ .parentFirst
  kept.filter (fun d => m.placement d.key context ≠ .lesserPriority) ++
    kept.filter fun d => m.placement d.key context = .lesserPriority

/-! ## The deployment rule -/

/-- The deployment dependencies whose artifact the full deployment list lacks. A model whose
producer kept the deployment rule has none. -/
def missingDeployment (m : Model) : List Dependency :=
  m.deployment.filter fun d => d.artifact ∉ m.fullDeployment.map Dependency.artifact

end Model

end Classpath
