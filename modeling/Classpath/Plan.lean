import Classpath.Files.Path
import Classpath.Model.Document
import Classpath.Toml.Reader
import Classpath.Toml.Writer

namespace Classpath

/-! # Assembly plans

A plan describes one build: the root artifact, the resolved dependencies, and the descriptors of the
extensions in the order in which they are merged. A plan holds tokens as they are written; whether
they name anything shows when the plan is replayed. Plans are closed records, so a misspelt field is
a problem and not a default. -/

open Document (Field Format Read Shape asBoolean asList asOptional asPath asText asTextMap)

/-- A dependency entry of a plan. -/
structure Plan.Entry where
  artifact : String
  scope : Option String
  direct : Bool
  isOptional : Bool
deriving Repr, DecidableEq

/-- An extension entry of a plan, which is to have one of properties and descriptor. -/
structure Plan.Extension where
  name : String
  properties : Option PropertyMap
  /-- The path of a property file. -/
  descriptor : Option Path
deriving Repr, DecidableEq

structure Plan where
  application : String
  localProject : List String
  properties : PropertyMap
  runtime : List Plan.Entry
  deployment : List Plan.Entry
  fullDeployment : List Plan.Entry
  extensions : List Plan.Extension
  /-- What faults call the plan. -/
  source : String
  /-- Where relative paths of descriptors start. -/
  base : Path
deriving Repr, DecidableEq

/-- The entry with its value, if there is one. -/
def Document.entry? (name : String) (value : Option Document) : List (String × Document) :=
  value.toList.map fun d => (name, d)

/-! ## Entries -/

namespace Plan.Entry

def shape : Shape :=
  { name := "PlanDependency"
    fields :=
      [.needed "artifact" asText, .defaulted "scope" (asOptional asText),
       .defaulted "direct" asBoolean, .defaulted "optional" asBoolean]
    closed := true }

def ofDocument (format : Format) (d : Document) : Read Entry := do
  let fields ← shape.read format d
  let artifact ← fields.need "artifact" asText
  let scope ← fields.getD "scope" (asOptional asText) none
  let direct ← fields.getD "direct" asBoolean true
  let isOptional ← fields.getD "optional" asBoolean false
  return { artifact, scope, direct, isOptional }

def toDocument (e : Entry) : Document :=
  .table (("artifact", .text e.artifact) ::
    Document.entry? "scope" (e.scope.map .text) ++
    [("direct", .boolean e.direct), ("optional", .boolean e.isOptional)])

end Plan.Entry

namespace Plan.Extension

def shape : Shape :=
  { name := "PlanExtension"
    fields :=
      [.needed "name" asText, .defaulted "properties" (asOptional asTextMap),
       .defaulted "descriptor" (asOptional asPath)]
    closed := true }

def ofDocument (format : Format) (d : Document) : Read Extension := do
  let fields ← shape.read format d
  let name ← fields.need "name" asText
  let properties ← fields.getD "properties" (asOptional asTextMap) none
  let descriptor ← fields.getD "descriptor" (asOptional asPath) none
  return { name, properties, descriptor }

def toDocument (e : Extension) : Document :=
  .table (("name", .text e.name) ::
    Document.entry? "properties" (e.properties.map OrderedMap.toDocument) ++
    Document.entry? "descriptor" (e.descriptor.map .text))

end Plan.Extension

/-! ## Plans -/

namespace Plan

def shape (format : Format) : Shape :=
  { name := "AssemblyPlan"
    fields :=
      [.needed "app_artifact" asText, .defaulted "local_project_artifacts" (asList asText),
       .defaulted "platform_properties" asTextMap,
       .defaulted "runtime_deps" (asList (Entry.ofDocument format)),
       .defaulted "deployment_deps" (asList (Entry.ofDocument format)),
       .defaulted "full_deployment_deps" (asList (Entry.ofDocument format)),
       .defaulted "extensions" (asList (Extension.ofDocument format))]
    closed := true }

def ofDocument (format : Format) (source : String) (base : Path) (d : Document) : Read Plan := do
  let fields ← (shape format).read format d
  let application ← fields.need "app_artifact" asText
  let localProject ← fields.getD "local_project_artifacts" (asList asText) []
  let properties ← fields.getD "platform_properties" asTextMap ∅
  let runtime ← fields.getD "runtime_deps" (asList (Entry.ofDocument format)) []
  let deployment ← fields.getD "deployment_deps" (asList (Entry.ofDocument format)) []
  let fullDeployment ← fields.getD "full_deployment_deps" (asList (Entry.ofDocument format)) []
  let extensions ← fields.getD "extensions" (asList (Extension.ofDocument format)) []
  return { application, localProject, properties, runtime, deployment, fullDeployment, extensions,
           source, base }

def entryItems (entries : List Entry) : Document :=
  .sequence (entries.map Entry.toDocument)

/-- The entries of a plan's document; where the plan came from is not part of it. -/
def entries (p : Plan) : List (String × Document) :=
  [("app_artifact", .text p.application),
   ("local_project_artifacts", .sequence (p.localProject.map .text)),
   ("platform_properties", p.properties.toDocument),
   ("runtime_deps", entryItems p.runtime),
   ("deployment_deps", entryItems p.deployment),
   ("full_deployment_deps", entryItems p.fullDeployment),
   ("extensions", .sequence (p.extensions.map Extension.toDocument))]

def toDocument (p : Plan) : Document :=
  .table p.entries

/-! ## Texts -/

def toToml (p : Plan) : String :=
  Toml.write p.entries

/-- The plan in a text from a named source. -/
def parse (text source : String) (base : Path) : Except Fault Plan :=
  let refused (problem : Document.Problem) : Fault :=
    .invalidPlan source (problem.message .toml)
  match Toml.read text with
  | .error flaw => .error (refused (.unreadable flaw))
  | .ok entries => (ofDocument .toml source base (.table entries)).mapError refused

end Plan

end Classpath
