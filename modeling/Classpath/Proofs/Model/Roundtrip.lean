import Classpath.Model.Transport
import Classpath.Proofs.Records
import Classpath.Proofs.Tokens

namespace Classpath

/-! # Models read back

A model comes back from its text if its keys come back from their tokens: all that a model holds
besides keys is texts, truth values and the order of lists, and texts of any kind can be written. -/

open Document (Format asBoolean asKey asKeySet asList asText asTextMap inOrder ordered ordered_table)
open Toml (IsPlain Writable WritableTable)

/-! ## Artifacts and dependencies -/

theorem readCoordinates_inOrder {entries : List (String × Document)} {a : Artifact}
    (hkeys : (entries.map Prod.fst).Nodup) (h : ∀ e ∈ a.entries, e ∈ entries) :
    readCoordinates (inOrder entries) = .ok a := by
  have htext {name value : String} (hmem : (name, .text value) ∈ a.entries) :
      Document.Fields.need (inOrder entries) name asText = .ok value :=
    Document.Fields.need_inOrder hkeys (h (name, .text value) hmem) (Document.asText_ordered value)
  have hdefaulted {name value : String} (hmem : (name, .text value) ∈ a.entries)
      (default : String) :
      Document.Fields.getD (inOrder entries) name asText default = .ok value :=
    Document.Fields.getD_inOrder hkeys (h (name, .text value) hmem) (Document.asText_ordered value)
      default
  have hgroup : ("group", Document.text a.key.group) ∈ a.entries := by simp [Artifact.entries]
  have hname : ("name", Document.text a.key.name) ∈ a.entries := by simp [Artifact.entries]
  have hclassifier : ("classifier", Document.text a.key.classifier) ∈ a.entries := by
    simp [Artifact.entries]
  have hpackaging : ("type", Document.text a.key.packaging) ∈ a.entries := by
    simp [Artifact.entries]
  have hversion : ("version", Document.text a.version) ∈ a.entries := by simp [Artifact.entries]
  rw [readCoordinates, htext hgroup, htext hname, hdefaulted hclassifier, hdefaulted hpackaging,
    htext hversion]
  rfl

namespace Artifact

theorem nodup_keys (a : Artifact) : (a.entries.map Prod.fst).Nodup := by
  simp [entries]

/-- An artifact is read back from its record. -/
theorem ofDocument_ordered (format : Format) (a : Artifact) :
    ofDocument format a.toDocument.ordered = .ok a := by
  have hread : shape.read format (.table (inOrder a.entries)) = .ok (inOrder a.entries) := by
    refine Document.Shape.read_inOrder format a.nodup_keys ?_ ?_
    · simp [entries, shape, coordinateFields, Document.Shape.testEntry, Document.Field.needed,
        Document.Field.defaulted, ordered, asText, Except.map]
    · simp [entries, shape, coordinateFields, Document.Field.needed, Document.Field.defaulted]
  rw [toDocument, ordered_table, ofDocument, hread]
  exact readCoordinates_inOrder a.nodup_keys fun _ he => he

theorem writable_toDocument (room : Nat) (a : Artifact) : Writable (room + 1) a.toDocument := by
  refine Writable.table a.nodup_keys fun e he => Writable.plain ?_
  simp only [entries, List.mem_cons, List.not_mem_nil, or_false] at he
  rcases he with rfl | rfl | rfl | rfl | rfl <;> exact trivial

end Artifact

namespace Dependency

/-- The entries of the record of a dependency. -/
def entries (d : Dependency) : List (String × Document) :=
  d.artifact.entries ++
    [("scope", .text d.scope), ("direct", .boolean d.direct), ("optional", .boolean d.isOptional)]

theorem nodup_keys (d : Dependency) : (d.entries.map Prod.fst).Nodup := by
  simp [entries, Artifact.entries]

/-- A dependency is read back from its record. -/
theorem ofDocument_ordered (format : Format) (d : Dependency) :
    ofDocument format d.toDocument.ordered = .ok d := by
  have hread : shape.read format (.table (inOrder d.entries)) = .ok (inOrder d.entries) := by
    refine Document.Shape.read_inOrder format d.nodup_keys ?_ ?_
    · simp [entries, Artifact.entries, shape, coordinateFields, Document.Shape.testEntry,
        Document.Field.needed, Document.Field.defaulted, ordered, asText, asBoolean, Except.map]
    · simp [entries, Artifact.entries, shape, coordinateFields, Document.Field.needed,
        Document.Field.defaulted]
  have hartifact : readCoordinates (inOrder d.entries) = .ok d.artifact :=
    readCoordinates_inOrder d.nodup_keys fun _ he => List.mem_append_left _ he
  have hscope : ("scope", Document.text d.scope) ∈ d.entries := by simp [entries]
  have hdirect : ("direct", Document.boolean d.direct) ∈ d.entries := by simp [entries]
  have hoptional : ("optional", Document.boolean d.isOptional) ∈ d.entries := by simp [entries]
  have hdocument : d.toDocument = .table d.entries := rfl
  rw [hdocument, ordered_table, ofDocument, hread]
  have hscope : Document.Fields.getD (inOrder d.entries) "scope" asText defaultScope =
      .ok d.scope :=
    Document.Fields.getD_inOrder d.nodup_keys hscope (Document.asText_ordered d.scope) _
  have hdirect : Document.Fields.getD (inOrder d.entries) "direct" asBoolean false =
      .ok d.direct :=
    Document.Fields.getD_inOrder d.nodup_keys hdirect (Document.asBoolean_ordered d.direct) _
  have hoptional : Document.Fields.getD (inOrder d.entries) "optional" asBoolean false =
      .ok d.isOptional :=
    Document.Fields.getD_inOrder d.nodup_keys hoptional (Document.asBoolean_ordered d.isOptional) _
  simp only [bind, Except.bind, hartifact, hscope, hdirect, hoptional]
  rfl

theorem isPlain_entries (d : Dependency) : ∀ e ∈ d.entries, IsPlain Toml.nestingLimit e.2 := by
  intro e he
  simp only [entries, Artifact.entries, List.mem_append, List.mem_cons, List.not_mem_nil,
    or_false] at he
  rcases he with (rfl | rfl | rfl | rfl | rfl) | rfl | rfl | rfl <;> exact trivial

end Dependency

/-! ## Sets, maps and lists -/

namespace OrderedSet

theorem isPlain_toDocument (keys : KeySet) : IsPlain Toml.nestingLimit keys.toDocument := by
  intro d hd
  rcases List.mem_map.1 hd with ⟨k, _, rfl⟩
  exact trivial

/-- A set of complete keys is read back from the tokens. -/
theorem asKeySet_ordered {keys : KeySet} (h : ∀ k ∈ keys, k.Complete) :
    asKeySet keys.toDocument.ordered = .ok keys := by
  have hkeys : Document.readItems asKey (keys.toList.map fun k => .text k.token) =
      .ok keys.toList := by
    refine Document.readItems_map fun k hk => ?_
    rw [asKey, Key.parse_token (h k hk)]
    rfl
  rw [(isPlain_toDocument keys).facts.2.2.2, asKeySet, toDocument, asList, hkeys]
  exact congrArg Except.ok (ofList_toList keys)

/-- Every set of keys that was read holds complete keys. -/
theorem complete_of_asKeySet {d : Document} {keys : KeySet} (h : asKeySet d = .ok keys) :
    ∀ k ∈ keys, k.Complete := by
  obtain ⟨values, hlist, rfl⟩ := map_eq_ok.1 h
  intro k hk
  cases d with
  | sequence items =>
    rcases Document.mem_of_readItems hlist k (mem_ofList.1 hk) with ⟨item, hitem⟩
    cases item with
    | text token => exact Key.complete_of_parse (mapError_eq_ok.1 hitem)
    | _ => exact absurd hitem (by simp [asKey])
  | _ => exact absurd hlist (by simp [asList])

end OrderedSet

namespace OrderedMap

theorem nodup_keys_texts (m : OrderedMap String String) :
    ((m.entries.map fun e => (e.1, Document.text e.2)).map Prod.fst).Nodup := by
  rw [List.map_map]
  exact m.nodup_keys

/-- A map is in order already. -/
theorem ordered_toDocument (m : OrderedMap String String) : m.toDocument.ordered = m.toDocument := by
  have hvalues : Document.orderedEntries (m.entries.map fun e => (e.1, .text e.2)) =
      m.entries.map fun e => (e.1, .text e.2) := by
    rw [Document.orderedEntries_eq_map, List.map_map]
    rfl
  rw [toDocument, ordered_table, inOrder, hvalues, ← map_entries_ofList Document.text,
    ofList_entries]

theorem asTextMap_ordered (m : OrderedMap String String) :
    asTextMap m.toDocument.ordered = .ok m := by
  rw [ordered_toDocument, toDocument, asTextMap, Document.readTexts_map]
  exact congrArg Except.ok (ofList_entries m)

theorem writable_toDocument (room : Nat) (m : OrderedMap String String) :
    Writable (room + 1) m.toDocument := by
  refine Writable.table m.nodup_keys_texts fun e he => Writable.plain ?_
  rcases List.mem_map.1 he with ⟨x, _, rfl⟩
  exact trivial

end OrderedMap

namespace Model

theorem asList_ordered (format : Format) (deps : List Dependency) :
    asList (Dependency.ofDocument format) (dependencyItems deps).ordered = .ok deps :=
  Document.asList_ordered fun d _ => d.ofDocument_ordered format

theorem writable_dependencyItems (room : Nat) (deps : List Dependency) :
    Writable (room + 1) (dependencyItems deps) := by
  have htables : dependencyItems deps = .sequence ((deps.map Dependency.entries).map .table) := by
    rw [dependencyItems, List.map_map]
    rfl
  rw [htables]
  refine Writable.items ?_ ?_
  · intro t ht
    rcases List.mem_map.1 ht with ⟨d, _, rfl⟩
    exact d.nodup_keys
  · intro t ht e he
    rcases List.mem_map.1 ht with ⟨d, _, rfl⟩
    exact Writable.plain (d.isPlain_entries e he)

/-! ## Models -/

/-- The keys of all four sets are complete. -/
def KeysComplete (m : Model) : Prop :=
  ∀ keys ∈ [m.parentFirst, m.runnerParentFirst, m.lesserPriority, m.localProject],
    ∀ k ∈ keys, k.Complete

/-- The entries of the record of a model. -/
def entries (m : Model) : List (String × Document) :=
  [("parent_first_artifacts", m.parentFirst.toDocument),
   ("runner_parent_first_artifacts", m.runnerParentFirst.toDocument),
   ("lesser_priority_artifacts", m.lesserPriority.toDocument),
   ("local_project_artifacts", m.localProject.toDocument),
   ("app_artifact", m.application.toDocument),
   ("platform_properties", m.properties.toDocument),
   ("runtime_deps", dependencyItems m.runtime),
   ("deployment_deps", dependencyItems m.deployment),
   ("full_deployment_deps", dependencyItems m.fullDeployment)]

theorem nodup_keys (m : Model) : (m.entries.map Prod.fst).Nodup := by
  simp [entries]

theorem writable_toDocument (room : Nat) (m : Model) : Writable (room + 2) m.toDocument := by
  refine Writable.table m.nodup_keys fun e he => ?_
  simp only [List.mem_cons, List.not_mem_nil, or_false] at he
  rcases he with rfl | rfl | rfl | rfl | rfl | rfl | rfl | rfl | rfl
  · exact Writable.plain (OrderedSet.isPlain_toDocument m.parentFirst)
  · exact Writable.plain (OrderedSet.isPlain_toDocument m.runnerParentFirst)
  · exact Writable.plain (OrderedSet.isPlain_toDocument m.lesserPriority)
  · exact Writable.plain (OrderedSet.isPlain_toDocument m.localProject)
  · exact m.application.writable_toDocument room
  · exact m.properties.writable_toDocument room
  · exact writable_dependencyItems room m.runtime
  · exact writable_dependencyItems room m.deployment
  · exact writable_dependencyItems room m.fullDeployment

/-- Each entry of a model's record passes the test of its field. -/
theorem testEntry_ordered (format : Format) {m : Model} (h : m.KeysComplete) :
    ∀ e ∈ m.entries, (shape format).testEntry (e.1, e.2.ordered) = .ok () := by
  have hsets : ∀ keys ∈ [m.parentFirst, m.runnerParentFirst, m.lesserPriority, m.localProject],
      asKeySet keys.toDocument.ordered = .ok keys :=
    fun keys hkeys => OrderedSet.asKeySet_ordered (h keys hkeys)
  simp only [List.mem_cons, List.not_mem_nil, or_false, forall_eq_or_imp, forall_eq] at hsets
  rcases hsets with ⟨hparentFirst, hrunner, hlesser, hlocal⟩
  intro e he
  simp only [entries, List.mem_cons, List.not_mem_nil, or_false] at he
  rcases he with rfl | rfl | rfl | rfl | rfl | rfl | rfl | rfl | rfl <;>
    simp [shape, Document.Shape.testEntry, Document.Field.needed, Document.Field.defaulted,
      Except.map, hparentFirst, hrunner, hlesser, hlocal, Artifact.ofDocument_ordered,
      OrderedMap.asTextMap_ordered, asList_ordered]

/-- A model with complete keys is read back from its record. -/
theorem ofDocument_ordered (format : Format) {m : Model} (h : m.KeysComplete) :
    ofDocument format m.toDocument.ordered = .ok m := by
  have hread : (shape format).read format (.table (inOrder m.entries)) =
      .ok (inOrder m.entries) := by
    refine Document.Shape.read_inOrder format m.nodup_keys (m.testEntry_ordered format h) ?_
    simp [shape, entries, Document.Field.needed, Document.Field.defaulted]
  -- The nine fields are of four kinds; each kind is read back in one way.
  have hset {name : String} {keys : KeySet} (hmem : (name, keys.toDocument) ∈ m.entries)
      (hkeys : keys ∈ [m.parentFirst, m.runnerParentFirst, m.lesserPriority, m.localProject]) :
      Document.Fields.getD (inOrder m.entries) name asKeySet ∅ = .ok keys :=
    Document.Fields.getD_inOrder m.nodup_keys hmem (OrderedSet.asKeySet_ordered (h keys hkeys)) ∅
  have hlist {name : String} {deps : List Dependency}
      (hmem : (name, dependencyItems deps) ∈ m.entries) :
      Document.Fields.getD (inOrder m.entries) name (asList (Dependency.ofDocument format)) [] =
        .ok deps :=
    Document.Fields.getD_inOrder m.nodup_keys hmem (asList_ordered format deps) []
  have happlication : Document.Fields.need (inOrder m.entries) "app_artifact"
      (Artifact.ofDocument format) = .ok m.application := by
    refine Document.Fields.need_inOrder m.nodup_keys ?_ (m.application.ofDocument_ordered format)
    simp [entries]
  have hproperties : Document.Fields.getD (inOrder m.entries) "platform_properties" asTextMap ∅ =
      .ok m.properties := by
    refine Document.Fields.getD_inOrder m.nodup_keys ?_ m.properties.asTextMap_ordered ∅
    simp [entries]
  have hparentFirst : Document.Fields.getD (inOrder m.entries) "parent_first_artifacts" asKeySet ∅ =
      .ok m.parentFirst := hset (by simp [entries]) (by simp)
  have hrunner : Document.Fields.getD (inOrder m.entries) "runner_parent_first_artifacts"
      asKeySet ∅ = .ok m.runnerParentFirst := hset (by simp [entries]) (by simp)
  have hlesser : Document.Fields.getD (inOrder m.entries) "lesser_priority_artifacts" asKeySet ∅ =
      .ok m.lesserPriority := hset (by simp [entries]) (by simp)
  have hlocal : Document.Fields.getD (inOrder m.entries) "local_project_artifacts" asKeySet ∅ =
      .ok m.localProject := hset (by simp [entries]) (by simp)
  have hruntime : Document.Fields.getD (inOrder m.entries) "runtime_deps"
      (asList (Dependency.ofDocument format)) [] = .ok m.runtime := hlist (by simp [entries])
  have hdeployment : Document.Fields.getD (inOrder m.entries) "deployment_deps"
      (asList (Dependency.ofDocument format)) [] = .ok m.deployment := hlist (by simp [entries])
  have hfull : Document.Fields.getD (inOrder m.entries) "full_deployment_deps"
      (asList (Dependency.ofDocument format)) [] = .ok m.fullDeployment :=
    hlist (by simp [entries])
  have hdocument : m.toDocument = .table m.entries := rfl
  rw [hdocument, ordered_table, ofDocument, hread]
  simp only [bind, Except.bind, hparentFirst, hrunner, hlesser, hlocal, happlication, hproperties,
    hruntime, hdeployment, hfull]
  rfl

/-- Every model that was read has complete keys. -/
theorem keysComplete_of_ofDocument {format : Format} {d : Document} {m : Model}
    (h : ofDocument format d = .ok m) : m.KeysComplete := by
  -- A set is either missing and empty, or each of its keys came from a token.
  have hset {fields : Document.Fields} {name : String} {keys : KeySet}
      (hkeys : fields.getD name asKeySet ∅ = .ok keys) : ∀ k ∈ keys, k.Complete := by
    rcases Document.Fields.getD_eq_ok hkeys with rfl | ⟨d, hd⟩
    · intro k hk
      exact absurd hk OrderedSet.not_mem_empty
    · exact OrderedSet.complete_of_asKeySet hd
  rw [ofDocument] at h
  obtain ⟨fields, _, h⟩ := bind_eq_ok.1 h
  obtain ⟨parentFirst, hparentFirst, h⟩ := bind_eq_ok.1 h
  obtain ⟨runner, hrunner, h⟩ := bind_eq_ok.1 h
  obtain ⟨lesser, hlesser, h⟩ := bind_eq_ok.1 h
  obtain ⟨localProject, hlocal, h⟩ := bind_eq_ok.1 h
  obtain ⟨application, _, h⟩ := bind_eq_ok.1 h
  obtain ⟨properties, _, h⟩ := bind_eq_ok.1 h
  obtain ⟨runtime, _, h⟩ := bind_eq_ok.1 h
  obtain ⟨deployment, _, h⟩ := bind_eq_ok.1 h
  obtain ⟨fullDeployment, _, h⟩ := bind_eq_ok.1 h
  cases h
  intro keys hkeys
  simp only [List.mem_cons, List.not_mem_nil, or_false] at hkeys
  rcases hkeys with rfl | rfl | rfl | rfl
  · exact hset hparentFirst
  · exact hset hrunner
  · exact hset hlesser
  · exact hset hlocal

/-! ## Texts -/

/-- The entries of the document that holds a model. -/
def envelope (m : Model) : List (String × Document) :=
  [("format_version", .integer formatVersion), ("model", m.toDocument)]

theorem nodup_envelope (m : Model) : (m.envelope.map Prod.fst).Nodup := by
  simp [envelope]

/-- Every model has a text. -/
theorem writable_envelope (m : Model) : WritableTable m.envelope := by
  refine ⟨m.nodup_envelope, fun e he => ?_⟩
  simp only [envelope, List.mem_cons, List.not_mem_nil, or_false] at he
  rcases he with rfl | rfl
  · have hfits : Document.fitsDoubleWord formatVersion = true := rfl
    exact Writable.plain hfits
  -- A model takes two levels of headers, and paths may have 80.
  · exact m.writable_toDocument 78

theorem asWord32_version :
    Document.asWord32 (Document.integer formatVersion).ordered = .ok formatVersion := by
  rfl

theorem readVersion_inOrder (m : Model) : readVersion (inOrder m.envelope) =
    .ok (some formatVersion) := by
  have hmodel : m.toDocument.ordered.isReadable = true :=
    Document.isReadable_ordered (m.writable_toDocument 0)
  have hread : headerShape.read .toml (.table (inOrder m.envelope)) = .ok (inOrder m.envelope) := by
    refine Document.Shape.read_inOrder .toml m.nodup_envelope ?_ ?_
    · simp [envelope, headerShape, Document.Shape.testEntry, Document.Field.defaulted,
        asWord32_version, hmodel, Except.map]
    · simp [headerShape, Document.Field.defaulted]
  have hversion : Document.Fields.getD (inOrder m.envelope) "format_version"
      (fun d => (Document.asWord32 d).map some) none = .ok (some formatVersion) := by
    refine Document.Fields.getD_inOrder m.nodup_envelope List.mem_cons_self ?_ none
    rw [asWord32_version]
    rfl
  rw [readVersion, hread]
  exact hversion

theorem readBody_inOrder {m : Model} (h : m.KeysComplete) :
    readBody (inOrder m.envelope) = .ok m := by
  have hmodel : ofDocument .toml m.toDocument.ordered = .ok m := m.ofDocument_ordered .toml h
  have hversion : (Document.integer formatVersion).ordered.isReadable = true := rfl
  have hread : bodyShape.read .toml (.table (inOrder m.envelope)) = .ok (inOrder m.envelope) := by
    refine Document.Shape.read_inOrder .toml m.nodup_envelope ?_ ?_
    · simp [envelope, bodyShape, Document.Shape.testEntry, Document.Field.needed, hmodel,
        hversion, Except.map]
    · simp [envelope, bodyShape, Document.Field.needed]
  rw [readBody, hread]
  exact Document.Fields.need_inOrder m.nodup_envelope (by simp [envelope]) hmodel

theorem ofEntries_inOrder {m : Model} (h : m.KeysComplete) :
    ofEntries (inOrder m.envelope) = .ok m := by
  rw [ofEntries, m.readVersion_inOrder, readBody_inOrder h]
  rfl

/-- A model with complete keys is read back from its text. -/
theorem ofToml_toToml {m : Model} (h : m.KeysComplete) : ofToml m.toToml = .ok m := by
  have hread : Toml.read m.toToml = .ok (inOrder m.envelope) := Toml.read_write m.writable_envelope
  rw [ofToml, ofSource, decode, hread]
  dsimp only
  rw [ofEntries_inOrder h]
  rfl

/-- And so it is from the content of its file. -/
theorem ofToml_fileText {m : Model} (h : m.KeysComplete) : ofToml m.fileText = .ok m := by
  have hcomment : ∀ c ∈ " Generated application model - DO NOT EDIT".toList,
      Toml.isControl c = false := by
    have hall : " Generated application model - DO NOT EDIT".toList.all
        (fun c => !Toml.isControl c) = true := rfl
    simpa using List.all_eq_true.1 hall
  have hheader : fileHeader =
      String.ofList ('#' :: " Generated application model - DO NOT EDIT".toList ++ ['\n']) := by
    decide
  have hread : Toml.read m.fileText = .ok (inOrder m.envelope) := by
    rw [fileText, hheader]
    exact Toml.read_below_comment m.writable_envelope hcomment
  rw [ofToml, ofSource, decode, hread]
  dsimp only
  rw [ofEntries_inOrder h]
  rfl

/-- Whatever text a model was read from, its keys are complete. -/
theorem keysComplete_of_ofToml {text : String} {m : Model} (h : ofToml text = .ok m) :
    m.KeysComplete := by
  have hdecode : decode text = .ok m := mapError_eq_ok.1 h
  -- Of all ways through the reader only the one with the right version ends with a model.
  rw [decode] at hdecode
  split at hdecode
  next => exact absurd hdecode (by simp)
  next entries _ =>
    rw [ofEntries] at hdecode
    split at hdecode
    next => exact absurd hdecode (by simp)
    next => exact absurd hdecode (by simp)
    next =>
      split at hdecode
      next =>
        have hbody : readBody entries = .ok m := mapError_eq_ok.1 hdecode
        obtain ⟨fields, _, hfields⟩ := bind_eq_ok.1 hbody
        obtain ⟨d, hd⟩ := Document.Fields.need_eq_ok hfields
        exact keysComplete_of_ofDocument hd
      next => exact absurd hdecode (by simp)

end Model

end Classpath
