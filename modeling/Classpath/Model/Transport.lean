import Classpath.Digest.Sha256
import Classpath.Model.Document
import Classpath.Toml.Reader
import Classpath.Toml.Writer

namespace Classpath.Model

/-! # Models as texts

A model travels as a TOML text with a format version and the model itself. The version is looked at
first, so a text of another version is refused whatever else it holds. The fingerprint of a model is
the hash of its text, and equal models have equal texts. -/

open Document (Field Problem Read Shape asOptional asWord32)

/-- The version that is written, and the only one that is read. -/
def formatVersion : Nat := 1

/-- The line that a file has above the text. -/
def fileHeader : String := "# Generated application model - DO NOT EDIT\n"

/-! ## Writing -/

/-- The text of a model. -/
def toToml (m : Model) : String :=
  Toml.write [("format_version", .integer formatVersion), ("model", m.toDocument)]

/-- The content of a model file. -/
def fileText (m : Model) : String :=
  fileHeader ++ m.toToml

/-! ## Reading -/

/-- Why a text holds no model. -/
inductive Flaw where
  | problem (p : Problem)
  | missingVersion
  | otherVersion (found : Nat)
deriving Repr, DecidableEq

def Flaw.message : Flaw → String
  | .problem p => p.message .toml
  | .missingVersion => "missing format_version"
  | .otherVersion found =>
    s!"format version {found} does not match supported version {formatVersion}"

/-- The record of which only the version is known. -/
def headerShape : Shape :=
  ⟨"Header", [.defaulted "format_version" asWord32], false⟩

/-- The version that a document states, if it states one. -/
def readVersion (entries : List (String × Document)) : Read (Option Nat) := do
  let fields ← headerShape.read .toml (.table entries)
  fields.getD "format_version" (fun d => (asWord32 d).map some) none

/-- The record that holds the model. -/
def bodyShape : Shape :=
  ⟨"Body", [.needed "model" (ofDocument .toml)], false⟩

def readBody (entries : List (String × Document)) : Read Model := do
  let fields ← bodyShape.read .toml (.table entries)
  fields.need "model" (ofDocument .toml)

/-- The model in the entries of a document. -/
def ofEntries (entries : List (String × Document)) : Except Flaw Model :=
  match readVersion entries with
  | .error p => .error (.problem p)
  | .ok none => .error .missingVersion
  | .ok (some version) =>
    if version = formatVersion then (readBody entries).mapError .problem
    else .error (.otherVersion version)

/-- The model in a text. -/
def decode (text : String) : Except Flaw Model :=
  match Toml.read text with
  | .error flaw => .error (.problem (.unreadable flaw))
  | .ok entries => ofEntries entries

/-- The model in a text from a named source. -/
def ofSource (source text : String) : Except Fault Model :=
  (decode text).mapError fun flaw => .unreadableModel source flaw.message

/-- The model in a text without a source of its own. -/
def ofToml (text : String) : Except Fault Model :=
  ofSource "<string>" text

/-! ## Fingerprints -/

/-- The hash of the text, after the name of the hash function. -/
def fingerprint (m : Model) : String :=
  "sha256:" ++ Digest.sha256Hex m.toToml.toUTF8.data.toList

def hasFingerprint (m : Model) (expected : String) : Bool :=
  m.fingerprint = expected

end Classpath.Model
