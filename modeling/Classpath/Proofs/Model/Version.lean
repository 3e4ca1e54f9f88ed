import Classpath.Model.Transport
import Classpath.Proofs.Records
import Classpath.Proofs.Toml.Order
import Mathlib.Control.Monad.Basic

namespace Classpath

/-! # The version of a text

A text is asked for its version before anything is made of its model. The first pass over the
document knows one field and walks through all others, so it is the version alone that decides what
becomes of a document whose other numbers all have values. -/

open Document (Problem Shape asWord32)
open OrderedMap (lookIn)

namespace Model

/-! ## The first pass -/

variable {text : String} {entries : List (String × Document)}

/-- The first pass tests the version and walks through everything else. -/
theorem headerShape_testEntry (e : String × Document) :
    headerShape.testEntry e =
      if e.1 = "format_version" then (asWord32 e.2).map fun _ => ()
      else if e.2.isReadable then .ok () else .error (.unreadable .malformed) := by
  by_cases hname : e.1 = "format_version"
  · simp [headerShape, Shape.testEntry, Document.Field.defaulted, hname]
  · have hother : "format_version" ≠ e.1 := fun h => hname h.symm
    simp [headerShape, Shape.testEntry, Document.Field.defaulted, hname, hother]

theorem readVersion_eq_bind (entries : List (String × Document)) :
    readVersion entries = (headerShape.testEntries entries).bind fun _ =>
      (lookIn "format_version" entries).elim (.ok none) fun d => (asWord32 d).map some := by
  have hmissing : headerShape.missing? entries = none := by
    simp [headerShape, Shape.missing?, Document.Field.defaulted]
  rw [readVersion, Shape.read]
  cases headerShape.testEntries entries with
  | error p => rfl
  | ok _ =>
    dsimp only
    rw [hmissing]
    cases hlook : lookIn "format_version" entries <;>
      simp [bind, Except.bind, Document.Fields.getD, hlook]

/-- A version that was found is that of the document. -/
theorem lookIn_of_readVersion {version : Nat} (h : readVersion entries = .ok (some version)) :
    lookIn "format_version" entries = some (.integer version) := by
  rw [readVersion_eq_bind] at h
  obtain ⟨_, -, h⟩ := bind_eq_ok.1 h
  cases hlook : lookIn "format_version" entries with
  | none => simp [hlook] at h
  | some d =>
    rw [hlook, Option.elim_some] at h
    obtain ⟨n, hn, hversion⟩ := map_eq_ok.1 h
    cases hversion
    rw [(Document.asWord32_eq_ok_iff.1 hn).1]

/-- The first pass comes down to the field that it knows. -/
theorem readVersion_eq (hkeys : (entries.map Prod.fst).Nodup)
    (hreadable : ∀ e ∈ entries, e.1 ≠ "format_version" → e.2.isReadable = true) :
    readVersion entries =
      (lookIn "format_version" entries).elim (.ok none) fun d => (asWord32 d).map some := by
  have hothers : ∀ e ∈ entries, e.1 ≠ "format_version" → headerShape.testEntry e = .ok () := by
    intro e he hname
    rw [headerShape_testEntry, if_neg hname, if_pos (hreadable e he hname)]
  rw [readVersion_eq_bind, Shape.testEntries_of_others hkeys hothers]
  cases lookIn "format_version" entries with
  | none => rfl
  | some d =>
    rw [Option.elim_some, Option.elim_some, headerShape_testEntry, if_pos rfl]
    cases asWord32 d <;> rfl

/-- A document holds a model if both passes find what they look for. -/
theorem ofEntries_eq_ok_iff {m : Model} :
    ofEntries entries = .ok m ↔
      readVersion entries = .ok (some formatVersion) ∧ readBody entries = .ok m := by
  rw [ofEntries]
  cases readVersion entries with
  | error p => simp
  | ok version =>
    cases version with
    | none => simp
    | some version =>
      by_cases hversion : version = formatVersion
      · simp [hversion]
      · simp [hversion]

/-! ## Texts -/

theorem ofToml_of_read (h : Toml.read text = .ok entries) :
    ofToml text =
      (ofEntries entries).mapError fun flaw => .unreadableModel "<string>" flaw.message := by
  rw [ofToml, ofSource, decode, h]

theorem otherVersion_message (n : Nat) : (Flaw.otherVersion n).message =
    s!"format version {n} does not match supported version 1" := by
  have hend : " does not match supported version " ++ toString formatVersion =
      " does not match supported version 1" := by decide
  exact String.append_assoc.trans (congrArg _ hend)

/-- Only a text of the one version holds a model. -/
theorem lookIn_of_ofToml {m : Model} (h : ofToml text = .ok m) :
    ∃ entries, Toml.read text = .ok entries ∧
      lookIn "format_version" entries = some (.integer formatVersion) := by
  have hdecode : decode text = .ok m := mapError_eq_ok.1 h
  rw [decode] at hdecode
  split at hdecode
  next => exact absurd hdecode (by simp)
  next entries hentries =>
    exact ⟨entries, hentries, lookIn_of_readVersion (ofEntries_eq_ok_iff.1 hdecode).1⟩

/-- A document of another version is refused. -/
theorem ofToml_of_other (h : Toml.read text = .ok entries)
    (hother : lookIn "format_version" entries ≠ some (.integer formatVersion)) :
    ∃ reason, ofToml text = .error (.unreadableModel "<string>" reason) := by
  have htoml := ofToml_of_read h
  cases hentries : ofEntries entries with
  | error flaw => exact ⟨flaw.message, by rw [htoml, hentries]; rfl⟩
  | ok m =>
    rw [hentries, mapError_ok] at htoml
    obtain ⟨es, hes, hversion⟩ := lookIn_of_ofToml htoml
    cases h.symm.trans hes
    exact absurd hversion hother

/-- A text holds a model only if it is a document of version 1, and a document of another version is
refused. If every other number in the document has a value, the version alone makes the reason: it
is missing, it is another one, or it is no word; only in version 1 is the model looked at. -/
theorem version_decides (text : String) :
    (∀ m, ofToml text = .ok m → ∃ entries, Toml.read text = .ok entries ∧
      lookIn "format_version" entries = some (.integer 1)) ∧
    ∀ entries, Toml.read text = .ok entries →
      (lookIn "format_version" entries ≠ some (.integer 1) →
        ∃ reason, ofToml text = .error (.unreadableModel "<string>" reason)) ∧
      ((∀ e ∈ entries, e.1 ≠ "format_version" → e.2.isReadable = true) →
        (lookIn "format_version" entries = none →
          ofToml text = .error (.unreadableModel "<string>" "missing format_version")) ∧
        (∀ n : Nat, n < Nat.pow 2 32 → n ≠ 1 → lookIn "format_version" entries = some (.integer n) →
          ofToml text = .error (.unreadableModel "<string>"
            s!"format version {n} does not match supported version 1")) ∧
        (∀ d, lookIn "format_version" entries = some d →
          (∀ n : Nat, n < Nat.pow 2 32 → d ≠ .integer n) → ∃ p, asWord32 d = .error p ∧
            ofToml text = .error (.unreadableModel "<string>" (p.message .toml))) ∧
        (lookIn "format_version" entries = some (.integer 1) →
          ofToml text = (readBody entries).mapError fun p =>
            .unreadableModel "<string>" (p.message .toml))) := by
  refine ⟨fun m hm => lookIn_of_ofToml hm, fun entries hentries => ⟨ofToml_of_other hentries, ?_⟩⟩
  intro hreadable
  have hkeys : (entries.map Prod.fst).Nodup := (Toml.read_sorted hentries).nodup_keys
  have hversion := readVersion_eq hkeys hreadable
  have htoml := ofToml_of_read hentries
  rw [ofEntries] at htoml
  refine ⟨fun hnone => ?_, fun n hn hne hsome => ?_, fun d hsome hword => ?_, fun hone => ?_⟩
  · rw [hnone, Option.elim_none] at hversion
    rw [htoml, hversion]
    rfl
  · have hn : asWord32 (.integer n) = .ok n := Document.asWord32_eq_ok_iff.2 ⟨rfl, hn⟩
    rw [hsome, Option.elim_some, hn] at hversion
    have hother : n ≠ formatVersion := hne
    rw [htoml, hversion, ← otherVersion_message]
    dsimp only [Except.map]
    rw [if_neg hother]
    rfl
  · cases hd : asWord32 d with
    | ok n =>
      obtain ⟨hinteger, hn⟩ := Document.asWord32_eq_ok_iff.1 hd
      exact absurd hinteger (hword n hn)
    | error p =>
      rw [hsome, Option.elim_some, hd] at hversion
      refine ⟨p, rfl, ?_⟩
      rw [htoml, hversion]
      rfl
  · have hn : asWord32 (.integer 1) = .ok 1 := Document.asWord32_eq_ok_iff.2 ⟨rfl, by decide⟩
    rw [hone, Option.elim_some, hn] at hversion
    have hsame : 1 = formatVersion := rfl
    rw [htoml, hversion]
    dsimp only [Except.map]
    rw [if_pos hsame]
    cases readBody entries <;> rfl

/-- A document of version 2 whose model is no table. -/
theorem version_decides_second :
    Toml.read "format_version = 2\nmodel = 7\n" =
        .ok [("format_version", .integer 2), ("model", .integer 7)] ∧
      ofToml "format_version = 2\nmodel = 7\n" = .error (.unreadableModel "<string>"
        "format version 2 does not match supported version 1") := by
  have hread : Toml.read "format_version = 2\nmodel = 7\n" =
      .ok [("format_version", .integer 2), ("model", .integer 7)] := by decide +kernel
  have hreadable : ∀ e ∈ [("format_version", Document.integer 2), ("model", .integer 7)],
      e.1 ≠ "format_version" → e.2.isReadable = true := by decide
  have hother := ((version_decides _).2 _ hread).2 hreadable
  exact ⟨hread, hother.2.1 2 (by decide) (by decide) rfl⟩

/-- A document of version 2 with a number that has no value. -/
def hugeText : String :=
  "format_version = 2\n[model]\nx = 10000000000000000000000000000000000000000\n"

/-- Walking through a document, the first pass comes upon the number before it has the version. -/
theorem ofToml_hugeText :
    Toml.read hugeText =
        .ok [("format_version", .integer 2), ("model", .table [("x", .unreadable)])] ∧
      ofToml hugeText = .error (.unreadableModel "<string>" "toml syntax error") ∧
      ofToml hugeText ≠ .error (.unreadableModel "<string>"
        "format version 2 does not match supported version 1") := by
  decide +kernel

end Model

end Classpath
