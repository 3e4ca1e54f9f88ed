import Classpath.Descriptor
import Classpath.Model

namespace Classpath

/-! # Assemblies

An assembly gathers what a model is made from:

1. **State**: the application artifact, three dependency lists, five key sets and the properties.
   Lists only grow at the end, sets absorb what they have, and a later property wins.
2. **Calls**: each way to change an assembly is a value of `Call`; `Assembly.apply` answers one call
   and `Assembly.run` a list of them. A call either takes effect as a whole or leaves the assembly
   as it was.
3. **Freezing**: `Assembly.freeze` makes the model. Excluded dependencies are left out only here, so
   it does not matter whether a key was excluded before or after the dependency came. -/

structure Assembly where
  application : Option Artifact
  runtime : List Dependency
  deployment : List Dependency
  fullDeployment : List Dependency
  parentFirst : KeySet
  runnerParentFirst : KeySet
  excluded : KeySet
  lesserPriority : KeySet
  localProject : KeySet
  properties : PropertyMap
deriving Repr, DecidableEq

/-- The three dependency lists. -/
inductive DependencyList where
  | runtime
  | deployment
  | fullDeployment
deriving Repr, DecidableEq

/-- How faults name an entry of the list. -/
def DependencyList.argument : DependencyList → String
  | .runtime => "runtime dependency"
  | .deployment => "deployment dependency"
  | .fullDeployment => "full deployment dependency"

/-- The five key sets. -/
inductive KeyGroup where
  | parentFirst
  | runnerParentFirst
  | excluded
  | lesserPriority
  | localProject
deriving Repr, DecidableEq

/-- How faults name a member of the set. -/
def KeyGroup.argument : KeyGroup → String
  | .parentFirst => "parent-first artifact"
  | .runnerParentFirst => "runner parent-first artifact"
  | .excluded => "excluded artifact"
  | .lesserPriority => "lesser-priority artifact"
  | .localProject => "local project artifact"

/-- The set that a descriptor's class of keys goes to. -/
def Classification.group : Classification → KeyGroup
  | .parentFirst => .parentFirst
  | .runnerParentFirst => .runnerParentFirst
  | .excluded => .excluded
  | .lesserPriority => .lesserPriority

namespace Assembly

def empty : Assembly :=
  ⟨none, [], [], [], ∅, ∅, ∅, ∅, ∅, ∅⟩

instance : Inhabited Assembly := ⟨empty⟩

/-! ## Lists and sets by name -/

def dependencies (a : Assembly) : DependencyList → List Dependency
  | .runtime => a.runtime
  | .deployment => a.deployment
  | .fullDeployment => a.fullDeployment

/-- Appends to one list. -/
def append (a : Assembly) (list : DependencyList) (deps : List Dependency) : Assembly :=
  match list with
  | .runtime => { a with runtime := a.runtime ++ deps }
  | .deployment => { a with deployment := a.deployment ++ deps }
  | .fullDeployment => { a with fullDeployment := a.fullDeployment ++ deps }

def keys (a : Assembly) : KeyGroup → KeySet
  | .parentFirst => a.parentFirst
  | .runnerParentFirst => a.runnerParentFirst
  | .excluded => a.excluded
  | .lesserPriority => a.lesserPriority
  | .localProject => a.localProject

/-- Adds keys to one set. -/
def insertKeys (a : Assembly) (group : KeyGroup) (keys : List Key) : Assembly :=
  match group with
  | .parentFirst => { a with parentFirst := a.parentFirst.insertAll keys }
  | .runnerParentFirst => { a with runnerParentFirst := a.runnerParentFirst.insertAll keys }
  | .excluded => { a with excluded := a.excluded.insertAll keys }
  | .lesserPriority => { a with lesserPriority := a.lesserPriority.insertAll keys }
  | .localProject => { a with localProject := a.localProject.insertAll keys }

/-! ## Checked changes -/

/-- Succeeds if the test does on each value, and fails as it does on the first bad one. -/
def checkAll {α : Type} (test : α → Except Fault Unit) : List α → Except Fault Unit
  | [] => .ok ()
  | x :: xs =>
    match test x with
    | .error fault => .error fault
    | .ok () => checkAll test xs

/-- Sets the application artifact, in place of an earlier one. -/
def setApplication (a : Assembly) (artifact : Artifact) : Except Fault Assembly :=
  (artifact.check "application artifact").map fun _ => { a with application := some artifact }

/-- Adds properties; the last value of a key wins. -/
def addProperties (a : Assembly) (entries : List (String × String)) : Assembly :=
  { a with properties := a.properties.insertAll entries }

/-- Appends resolved dependencies to a list, all or none. -/
def addDependencies (a : Assembly) (list : DependencyList) (deps : List Dependency) :
    Except Fault Assembly :=
  (checkAll (fun d => d.artifact.check list.argument) deps).map fun _ => a.append list deps

def addDependency (a : Assembly) (list : DependencyList) (dep : Dependency) :
    Except Fault Assembly :=
  a.addDependencies list [dep]

/-- Adds complete keys to a set, all or none. -/
def addKeys (a : Assembly) (group : KeyGroup) (keys : List Key) : Except Fault Assembly :=
  (checkAll (Key.check group.argument) keys).map fun _ => a.insertKeys group keys

def addKey (a : Assembly) (group : KeyGroup) (key : Key) : Except Fault Assembly :=
  a.addKeys group [key]

/-! ## Descriptors -/

/-- Puts each key into the set of its class. -/
def assign (a : Assembly) (assignments : List Descriptor.Assignment) : Assembly :=
  assignments.foldl (fun a x => a.insertKeys x.1.group [x.2]) a

/-- What is reported for a key that a descriptor brings. -/
def assignmentEvents (source : String) : Descriptor.Assignment → List Event
  | (.excluded, key) => [⟨.debug, s!"Extension {source} is excluding {key.token}"⟩]
  | (.lesserPriority, key) =>
    [⟨.debug, s!"Extension {source} is making {key.token} a lesser priority artifact"⟩]
  | _ => []

/-- The outcome of merging a descriptor: the assembly, the record of a rejection, the events. -/
structure Merged where
  assembly : Assembly
  rejected : Option Diagnostic
  events : List Event
deriving Repr, DecidableEq

/-- Merges the descriptor of an extension, all of it or, after a malformed token, nothing. -/
def merge (a : Assembly) (source : String) (properties : PropertyMap) : Merged :=
  match Descriptor.assignments properties with
  | .error rejection =>
    let diagnostic := Diagnostic.ofRejection source rejection
    ⟨a, some diagnostic, [diagnostic.event]⟩
  | .ok assignments =>
    ⟨a.assign assignments, none, assignments.flatMap (assignmentEvents source)⟩

/-! ## Freezing -/

/-- The launcher that only starts development tools and is part of no model. -/
def launcherGroup : String := "io.quarkus"
def launcherName : String := "quarkus-ide-launcher"

/-- Whether freezing leaves an artifact out: the launcher in any form, and every excluded key. -/
def isExcluded (a : Assembly) (artifact : Artifact) : Bool :=
  (artifact.key.group = launcherGroup && artifact.key.name = launcherName) ||
    a.excluded.contains artifact.key

/-- The dependencies that stay, in their order. -/
def retained (a : Assembly) (deps : List Dependency) : List Dependency :=
  deps.filter fun d => !a.isExcluded d.artifact

/-- The model of an assembly. It has everything but the excluded dependencies and the excluded set
itself, and there is none without an application artifact. -/
def freeze (a : Assembly) : Except Fault Model :=
  match a.application with
  | none => .error (.incompleteModel "no application artifact was set")
  | some application =>
    .ok
      { parentFirst := a.parentFirst
        runnerParentFirst := a.runnerParentFirst
        lesserPriority := a.lesserPriority
        localProject := a.localProject
        application := application
        properties := a.properties
        runtime := a.retained a.runtime
        deployment := a.retained a.deployment
        fullDeployment := a.retained a.fullDeployment }

/-- What is reported when a model comes to be. -/
def frozenEvent (m : Model) : Event :=
  ⟨.debug, s!"Created application model {m.display}"⟩

/-! ## Runs -/

inductive Call where
  | setApplication (artifact : Artifact)
  | addProperties (entries : List (String × String))
  | addDependency (list : DependencyList) (dep : Dependency)
  | addDependencies (list : DependencyList) (deps : List Dependency)
  | addKey (group : KeyGroup) (key : Key)
  | addKeys (group : KeyGroup) (keys : List Key)
  | merge (source : String) (properties : PropertyMap)
deriving Repr, DecidableEq

/-- What a caller sees of a call. -/
inductive Answer where
  | done
  | refused (fault : Fault)
  | applied
  | rejected (diagnostic : Diagnostic)
deriving Repr, DecidableEq

/-- The assembly after a call that may fail, and the answer. -/
def settle (a : Assembly) : Except Fault Assembly → Assembly × Answer
  | .ok next => (next, .done)
  | .error fault => (a, .refused fault)

/-- The assembly after a call, and the answer. -/
def apply (a : Assembly) : Call → Assembly × Answer
  | .setApplication artifact => a.settle (a.setApplication artifact)
  | .addProperties entries => (a.addProperties entries, .done)
  | .addDependency list dep => a.settle (a.addDependency list dep)
  | .addDependencies list deps => a.settle (a.addDependencies list deps)
  | .addKey group key => a.settle (a.addKey group key)
  | .addKeys group keys => a.settle (a.addKeys group keys)
  | .merge source properties =>
    let merged := a.merge source properties
    match merged.rejected with
    | none => (merged.assembly, .applied)
    | some diagnostic => (merged.assembly, .rejected diagnostic)

/-- The assembly after some calls, and their answers in order. -/
def run (a : Assembly) : List Call → Assembly × List Answer
  | [] => (a, [])
  | call :: calls =>
    let (next, answer) := a.apply call
    let (last, answers) := next.run calls
    (last, answer :: answers)

/-- The diagnostics among some answers, in order. -/
def Answer.diagnostics (answers : List Answer) : List Diagnostic :=
  answers.filterMap fun
    | .rejected diagnostic => some diagnostic
    | _ => none

end Assembly

end Classpath
