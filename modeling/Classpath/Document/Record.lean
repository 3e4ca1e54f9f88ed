import Classpath.Document
import Classpath.Fault
import Classpath.Key
import Classpath.OrderedMap
import Classpath.Text.Quoted

namespace Classpath.Document

/-! # Records in documents

A record is a table with known fields, or a sequence with the values of its fields in declaration
order. Tables are read entry by entry, and the first entry that does not fit is the problem that is
reported; only then are missing fields looked for. -/

/-! ## Problems -/

/-- The format from which a document was read. -/
inductive Format where
  | toml
  | json
deriving Repr, DecidableEq

/-- How problems show floating point numbers: TOML ones by places, whatever their size, JSON ones
with an exponent below `10 ^ -5` and from `10 ^ 16` on. -/
def Format.numberStyle : Format → Decimal.Style
  | .toml => ⟨.away, none⟩
  | .json => ⟨.even, some (-4, 16)⟩

/-- What stands where something else is expected. -/
inductive Found where
  | float (value : Decimal.Binary64)
  | other (name : String)
deriving Repr, DecidableEq

/-- Why a text holds no document, or a document not what it should hold. -/
inductive Problem where
  | unreadable (flaw : TextFlaw)
  | missingField (field : String)
  | unknownField (field : String) (known : List String)
  | wrongType (found : Found) (expected : String)
  | wrongValue (found expected : String)
  | wrongLength (found : Nat) (expected : String)
  /-- A text is no token of what it should name. -/
  | token (fault : Fault)
deriving Repr, DecidableEq

/-- A name between grave accents. -/
def inGraves (name : String) : String :=
  s!"\x60{name}\x60"

/-- How a problem names what it found. -/
def Found.text (format : Format) : Found → String
  | .float value => s!"floating point {inGraves (value.text format.numberStyle)}"
  | .other name => name

def Problem.message (format : Format) : Problem → String
  | .unreadable flaw => flaw.message
  | .missingField field => s!"missing field {inGraves field}"
  | .unknownField field known =>
    let names := Text.join ", " (known.map inGraves)
    s!"unknown field {inGraves field}, expected one of {names}"
  | .wrongType found expected => s!"invalid type: {found.text format}, expected {expected}"
  | .wrongValue found expected => s!"invalid value: {found}, expected {expected}"
  | .wrongLength found expected => s!"invalid length {found}, expected {expected}"
  | .token fault => fault.message

abbrev Read (α : Type) := Except Problem α

/-- The text of an integer. -/
def integerText (n : Int) : String :=
  if n < 0 then s!"-{n.natAbs}" else s!"{n.natAbs}"

/-- How a problem names an integer, with its width if that is out of the ordinary. -/
def integerLabel (n : Int) : String :=
  let name := s!"integer {inGraves (integerText n)}"
  if fitsWord n then name
  else if n < Nat.pow 2 127 then s!"{name} as i128"
  else s!"{name} as u128"

/-- The word for a truth value. -/
def booleanText (value : Bool) : String :=
  if value then "true" else "false"

/-- The problem with a document where something else is expected. -/
def mismatch (d : Document) (expected : String) : Problem :=
  match d with
  | .null => .wrongType (.other "null") expected
  | .boolean value => .wrongType (.other s!"boolean {inGraves (booleanText value)}") expected
  | .integer n => .wrongType (.other (integerLabel n)) expected
  | .float value => .wrongType (.float value) expected
  | .unreadable => .unreadable .malformed
  | .text value => .wrongType (.other s!"string {Text.quoted value}") expected
  | .sequence _ => .wrongType (.other "sequence") expected
  | .table _ => .wrongType (.other "map") expected

/-! ## Plain values -/

def asText : Document → Read String
  | .text value => .ok value
  | d => .error (d.mismatch "a string")

def asPath : Document → Read String
  | .text value => .ok value
  | d => .error (d.mismatch "path string")

def asBoolean : Document → Read Bool
  | .boolean value => .ok value
  | d => .error (d.mismatch "a boolean")

/-- A natural number below `2 ^ 32`. -/
def asWord32 : Document → Read Nat
  | .integer n =>
    if 0 ≤ n ∧ n < Nat.pow 2 32 then .ok n.toNat
    else if fitsWord n then .error (.wrongValue (integerLabel n) "u32")
    else .error (.wrongType (.other (integerLabel n)) "u32")
  | d => .error (d.mismatch "u32")

def asKey : Document → Read Key
  | .text value => (Key.parse value).mapError .token
  | d => .error (d.mismatch "a string")

/-- A value where a null stands for none. -/
def asOptional {α : Type} (read : Document → Read α) : Document → Read (Option α)
  | .null => .ok none
  | d => (read d).map some

/-! ## Sequences and maps -/

/-- Reads each item, and stops at the first that does not fit. -/
def readItems {α : Type} (read : Document → Read α) : List Document → Read (List α)
  | [] => .ok []
  | d :: ds =>
    match read d with
    | .error problem => .error problem
    | .ok x =>
      match readItems read ds with
      | .error problem => .error problem
      | .ok xs => .ok (x :: xs)

def asList {α : Type} (read : Document → Read α) : Document → Read (List α)
  | .sequence items => readItems read items
  | d => .error (d.mismatch "a sequence")

def asKeySet (d : Document) : Read (OrderedSet Key) :=
  (asList asKey d).map .ofList

/-- Reads each entry as a text, and stops at the first that is none. -/
def readTexts : List (String × Document) → Read (List (String × String))
  | [] => .ok []
  | (key, d) :: es =>
    match asText d with
    | .error problem => .error problem
    | .ok value =>
      match readTexts es with
      | .error problem => .error problem
      | .ok others => .ok ((key, value) :: others)

def asTextMap : Document → Read (OrderedMap String String)
  | .table entries => (readTexts entries).map .ofList
  | d => .error (d.mismatch "a map")

/-! ## Records -/

/-- A field: its name, whether a record may lack it, and the test that its value has to pass. -/
structure Field where
  name : String
  required : Bool
  test : Document → Read Unit

/-- A field that has to be there. -/
def Field.needed {α : Type} (name : String) (read : Document → Read α) : Field :=
  ⟨name, true, fun d => (read d).map fun _ => ()⟩

/-- A field with a default. -/
def Field.defaulted {α : Type} (name : String) (read : Document → Read α) : Field :=
  ⟨name, false, fun d => (read d).map fun _ => ()⟩

/-- A kind of record. -/
structure Shape where
  name : String
  fields : List Field
  /-- Whether a field that is not known is a problem. -/
  closed : Bool

/-- The values of the fields that are there, under their names. -/
abbrev Fields := List (String × Document)

namespace Shape

def fieldNames (s : Shape) : List String :=
  s.fields.map Field.name

/-- How a problem says that a sequence is no record of this kind. -/
def expectation (s : Shape) : String :=
  s!"struct {s.name}"

def sizedExpectation (s : Shape) : String :=
  let count := s.fields.length
  let noun := if count = 1 then "element" else "elements"
  s!"struct {s.name} with {count} {noun}"

/-- Tests an entry of a table: a field by its own test, anything else by whether it is allowed. -/
def testEntry (s : Shape) (entry : String × Document) : Read Unit :=
  match s.fields.find? (·.name = entry.1) with
  | some field => field.test entry.2
  | none =>
    if s.closed then .error (.unknownField entry.1 s.fieldNames)
    else if entry.2.isReadable then .ok ()
    else .error (.unreadable .malformed)

/-- Tests the entries of a table in their order. -/
def testEntries (s : Shape) : List (String × Document) → Read Unit
  | [] => .ok ()
  | e :: es =>
    match s.testEntry e with
    | .error problem => .error problem
    | .ok () => s.testEntries es

/-- The first required field, in declaration order, that a table lacks. -/
def missing? (s : Shape) (entries : List (String × Document)) : Option String :=
  (s.fields.find? fun f => f.required && (OrderedMap.lookIn f.name entries).isNone).map Field.name

/-- Pairs the fields with the items of a sequence, from the field at an index on. -/
def readSequence (s : Shape) (format : Format) (size : Nat) :
    Nat → List Field → List Document → Read Fields
  | _, [], [] => .ok []
  | _, [], _ :: _ =>
    match format with
    | .toml => .ok []
    | .json => .error (.wrongLength size "fewer elements in array")
  | index, field :: fields, [] =>
    if field.required then .error (.wrongLength index s.sizedExpectation)
    else s.readSequence format size (index + 1) fields []
  | index, field :: fields, item :: items =>
    match field.test item with
    | .error problem => .error problem
    | .ok () => ((field.name, item) :: ·) <$> s.readSequence format size (index + 1) fields items

/-- The fields of a record, each of which passes its test. -/
def read (s : Shape) (format : Format) : Document → Read Fields
  | .table entries =>
    match s.testEntries entries with
    | .error problem => .error problem
    | .ok () =>
      match s.missing? entries with
      | some field => .error (.missingField field)
      | none => .ok entries
  | .sequence items => s.readSequence format items.length 0 s.fields items
  | d => .error (d.mismatch s.expectation)

end Shape

namespace Fields

/-- The value of a field that has to be there. -/
def need {α : Type} (fields : Fields) (name : String) (read : Document → Read α) : Read α :=
  match OrderedMap.lookIn name fields with
  | some d => read d
  | none => .error (.missingField name)

/-- The value of a field, or its default. -/
def getD {α : Type} (fields : Fields) (name : String) (read : Document → Read α) (default : α) :
    Read α :=
  match OrderedMap.lookIn name fields with
  | some d => read d
  | none => .ok default

end Fields

end Classpath.Document
