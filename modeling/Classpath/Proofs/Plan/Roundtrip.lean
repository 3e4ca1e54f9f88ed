import Classpath.Plan
import Classpath.Proofs.Model.Roundtrip

namespace Classpath

/-! # Plans read back

A plan holds texts, truth values, property maps and lists of these, and nothing is asked of any of
them. So each plan comes back from its text. Fields that may be missing are left out when they are,
and a property map without entries is something else than none.

1. **Entries**: dependencies, with and without a scope.
2. **Extensions**: property maps and paths of descriptors, both of which may be missing.
3. **Plans**: the record and its text. -/

open Document (Format asBoolean asList asOptional asPath asText asTextMap inOrder ordered
  ordered_table)
open Toml (IsPlain Writable WritableTable)

namespace Document

@[simp] theorem entry?_none (name : String) : entry? name none = [] :=
  rfl

@[simp] theorem entry?_some (name : String) (d : Document) : entry? name (some d) = [(name, d)] :=
  rfl

theorem mem_entry? {name key : String} {value : Option Document} {d : Document} :
    (key, d) ∈ entry? name value ↔ key = name ∧ value = some d := by
  cases value with
  | none => simp
  | some x =>
    rw [entry?_some, List.mem_singleton, Prod.mk.injEq, Option.some.injEq]
    exact and_congr_right fun _ => eq_comm

end Document

namespace Plan

/-! ## Entries -/

namespace Entry

/-- The entries of the record of a dependency entry. -/
def entries (e : Entry) : List (String × Document) :=
  ("artifact", .text e.artifact) :: Document.entry? "scope" (e.scope.map .text) ++
    [("direct", .boolean e.direct), ("optional", .boolean e.isOptional)]

theorem nodup_keys (e : Entry) : (e.entries.map Prod.fst).Nodup := by
  unfold entries
  cases e.scope with
  | none => simp
  | some scope => simp

theorem mem_entries {e : Entry} {key : String} {d : Document} :
    (key, d) ∈ e.entries ↔ key = "artifact" ∧ d = .text e.artifact ∨
      key = "scope" ∧ e.scope.map Document.text = some d ∨
      key = "direct" ∧ d = .boolean e.direct ∨ key = "optional" ∧ d = .boolean e.isOptional := by
  unfold entries
  rw [List.cons_append, List.mem_cons, List.mem_append, Document.mem_entry?, List.mem_cons,
    List.mem_singleton, Prod.mk.injEq, Prod.mk.injEq, Prod.mk.injEq]

theorem isPlain_entries (e : Entry) : ∀ x ∈ e.entries, IsPlain Toml.nestingLimit x.2 := by
  rintro ⟨key, d⟩ hd
  rcases mem_entries.1 hd with ⟨_, rfl⟩ | ⟨_, hscope⟩ | ⟨_, rfl⟩ | ⟨_, rfl⟩
  · exact trivial
  · obtain ⟨scope, _, rfl⟩ := Option.map_eq_some_iff.1 hscope
    exact trivial
  · exact trivial
  · exact trivial

/-- An entry is read back from its record. -/
theorem ofDocument_ordered (format : Format) (e : Entry) :
    ofDocument format e.toDocument.ordered = .ok e := by
  have hread : shape.read format (.table (inOrder e.entries)) = .ok (inOrder e.entries) := by
    refine Document.Shape.read_inOrder format e.nodup_keys ?_ ?_
    · rintro ⟨key, d⟩ hd
      rcases mem_entries.1 hd with ⟨rfl, rfl⟩ | ⟨rfl, hscope⟩ | ⟨rfl, rfl⟩ | ⟨rfl, rfl⟩
      · rfl
      · obtain ⟨scope, _, rfl⟩ := Option.map_eq_some_iff.1 hscope
        rfl
      · rfl
      · rfl
    · simp [entries, shape, Document.Field.needed, Document.Field.defaulted]
  have hartifact : Document.Fields.need (inOrder e.entries) "artifact" asText = .ok e.artifact :=
    Document.Fields.need_inOrder e.nodup_keys (by simp [entries])
      (Document.asText_ordered e.artifact)
  have hscope : Document.Fields.getD (inOrder e.entries) "scope" (asOptional asText) none =
      .ok e.scope := by
    refine Document.Fields.getD_inOrder_optional Document.text e.nodup_keys
      (fun d => ?_) ?_
    · simp [mem_entries]
    · intro scope _
      rfl
  have hflag (name : String) (value : Bool) (hmem : (name, .boolean value) ∈ e.entries)
      (default : Bool) :
      Document.Fields.getD (inOrder e.entries) name asBoolean default = .ok value :=
    Document.Fields.getD_inOrder e.nodup_keys hmem (Document.asBoolean_ordered value) default
  have hdirect := hflag "direct" e.direct (by simp [entries]) true
  have hoptional := hflag "optional" e.isOptional (by simp [entries]) false
  have hdocument : e.toDocument = .table e.entries := rfl
  rw [hdocument, ordered_table, ofDocument, hread]
  simp only [bind, Except.bind, hartifact, hscope, hdirect, hoptional]
  rfl

end Entry

/-! ## Extensions -/

namespace Extension

/-- The entries of the record of an extension. -/
def entries (e : Extension) : List (String × Document) :=
  ("name", .text e.name) ::
    Document.entry? "properties" (e.properties.map OrderedMap.toDocument) ++
    Document.entry? "descriptor" (e.descriptor.map .text)

theorem mem_entries {e : Extension} {key : String} {d : Document} :
    (key, d) ∈ e.entries ↔ key = "name" ∧ d = .text e.name ∨
      key = "properties" ∧ e.properties.map OrderedMap.toDocument = some d ∨
      key = "descriptor" ∧ e.descriptor.map Document.text = some d := by
  unfold entries
  rw [List.cons_append, List.mem_cons, List.mem_append, Document.mem_entry?, Document.mem_entry?,
    Prod.mk.injEq]

theorem nodup_keys (e : Extension) : (e.entries.map Prod.fst).Nodup := by
  unfold entries
  cases e.properties <;> cases e.descriptor <;> simp

theorem writable_entries (room : Nat) (e : Extension) :
    ∀ x ∈ e.entries, Writable (room + 1) x.2 := by
  rintro ⟨key, d⟩ hd
  rcases mem_entries.1 hd with ⟨_, rfl⟩ | ⟨_, hproperties⟩ | ⟨_, hdescriptor⟩
  · exact Writable.plain trivial
  · obtain ⟨m, _, rfl⟩ := Option.map_eq_some_iff.1 hproperties
    exact m.writable_toDocument room
  · obtain ⟨path, _, rfl⟩ := Option.map_eq_some_iff.1 hdescriptor
    exact Writable.plain trivial

theorem asOptional_properties (m : PropertyMap) :
    asOptional asTextMap m.toDocument.ordered = .ok (some m) := by
  have htable := m.asTextMap_ordered
  rw [OrderedMap.ordered_toDocument] at htable ⊢
  unfold OrderedMap.toDocument at htable ⊢
  rw [asOptional, htable]
  · rfl
  · intro h
    cases h

/-- An extension is read back from its record. -/
theorem ofDocument_ordered (format : Format) (e : Extension) :
    ofDocument format e.toDocument.ordered = .ok e := by
  have hread : shape.read format (.table (inOrder e.entries)) = .ok (inOrder e.entries) := by
    refine Document.Shape.read_inOrder format e.nodup_keys ?_ ?_
    · rintro ⟨key, d⟩ hd
      rcases mem_entries.1 hd with ⟨rfl, rfl⟩ | ⟨rfl, hproperties⟩ | ⟨rfl, hdescriptor⟩
      · rfl
      · obtain ⟨m, _, rfl⟩ := Option.map_eq_some_iff.1 hproperties
        simp [shape, Document.Shape.testEntry, Document.Field.needed, Document.Field.defaulted,
          asOptional_properties, Except.map]
      · obtain ⟨path, _, rfl⟩ := Option.map_eq_some_iff.1 hdescriptor
        rfl
    · simp [entries, shape, Document.Field.needed, Document.Field.defaulted]
  have hname : Document.Fields.need (inOrder e.entries) "name" asText = .ok e.name :=
    Document.Fields.need_inOrder e.nodup_keys (by simp [entries]) (Document.asText_ordered e.name)
  have hproperties : Document.Fields.getD (inOrder e.entries) "properties" (asOptional asTextMap)
      none = .ok e.properties := by
    refine Document.Fields.getD_inOrder_optional OrderedMap.toDocument e.nodup_keys
      (fun d => ?_) ?_
    · simp [mem_entries]
    · intro m _
      exact asOptional_properties m
  have hdescriptor : Document.Fields.getD (inOrder e.entries) "descriptor" (asOptional asPath)
      none = .ok e.descriptor := by
    refine Document.Fields.getD_inOrder_optional Document.text e.nodup_keys
      (fun d => ?_) ?_
    · simp [mem_entries]
    · intro path _
      rfl
  have hdocument : e.toDocument = .table e.entries := rfl
  rw [hdocument, ordered_table, ofDocument, hread]
  simp only [bind, Except.bind, hname, hproperties, hdescriptor]
  rfl

end Extension

/-! ## Plans -/

theorem nodup_keys (p : Plan) : (p.entries.map Prod.fst).Nodup := by
  simp [entries]

theorem asList_entries (format : Format) (es : List Entry) :
    asList (Entry.ofDocument format) (entryItems es).ordered = .ok es :=
  Document.asList_ordered fun e _ => e.ofDocument_ordered format

theorem asList_extensions (format : Format) (es : List Extension) :
    asList (Extension.ofDocument format) (Document.sequence (es.map Extension.toDocument)).ordered =
      .ok es :=
  Document.asList_ordered fun e _ => e.ofDocument_ordered format

theorem asList_texts (values : List String) :
    asList asText (Document.sequence (values.map Document.text)).ordered = .ok values :=
  Document.asList_ordered fun value _ => Document.asText_ordered value

theorem writable_entryItems (room : Nat) (es : List Entry) :
    Writable (room + 1) (entryItems es) := by
  have htables : entryItems es = .sequence ((es.map Entry.entries).map .table) := by
    rw [entryItems, List.map_map]
    rfl
  rw [htables]
  refine Writable.items ?_ ?_
  · intro t ht
    rcases List.mem_map.1 ht with ⟨e, _, rfl⟩
    exact e.nodup_keys
  · intro t ht x hx
    rcases List.mem_map.1 ht with ⟨e, _, rfl⟩
    exact Writable.plain (e.isPlain_entries x hx)

theorem writable_extensions (room : Nat) (es : List Extension) :
    Writable (room + 2) (.sequence (es.map Extension.toDocument)) := by
  have htables : Document.sequence (es.map Extension.toDocument) =
      .sequence ((es.map Extension.entries).map .table) := by
    rw [List.map_map]
    rfl
  rw [htables]
  refine Writable.items ?_ ?_
  · intro t ht
    rcases List.mem_map.1 ht with ⟨e, _, rfl⟩
    exact e.nodup_keys
  · intro t ht x hx
    rcases List.mem_map.1 ht with ⟨e, _, rfl⟩
    exact e.writable_entries room x hx

/-- Every plan has a text. -/
theorem writable_entries (p : Plan) : WritableTable p.entries := by
  refine ⟨p.nodup_keys, fun x hx => ?_⟩
  have htexts : IsPlain Toml.nestingLimit (.sequence (p.localProject.map Document.text)) := by
    intro d hd
    rcases List.mem_map.1 hd with ⟨_, _, rfl⟩
    exact trivial
  simp only [entries, List.mem_cons, List.not_mem_nil, or_false] at hx
  rcases hx with rfl | rfl | rfl | rfl | rfl | rfl | rfl
  · exact Writable.plain trivial
  · exact Writable.plain htexts
  · exact p.properties.writable_toDocument 79
  · exact writable_entryItems 79 p.runtime
  · exact writable_entryItems 79 p.deployment
  · exact writable_entryItems 79 p.fullDeployment
  -- Extensions have property maps below them and so take two levels of headers of 80.
  · exact writable_extensions 78 p.extensions

theorem testEntry_ordered (format : Format) (p : Plan) :
    ∀ x ∈ p.entries, (shape format).testEntry (x.1, x.2.ordered) = .ok () := by
  intro x hx
  simp only [entries, List.mem_cons, List.not_mem_nil, or_false] at hx
  rcases hx with rfl | rfl | rfl | rfl | rfl | rfl | rfl <;>
    simp [shape, Document.Shape.testEntry, Document.Field.needed, Document.Field.defaulted,
      Except.map, Document.asText_ordered, OrderedMap.asTextMap_ordered, asList_entries,
      asList_extensions, asList_texts]

/-- A plan is read back from its record, under whatever source and base are given then. -/
theorem ofDocument_ordered (format : Format) (p : Plan) (source : String) (base : Path) :
    ofDocument format source base p.toDocument.ordered = .ok { p with source, base } := by
  have hread : (shape format).read format (.table (inOrder p.entries)) =
      .ok (inOrder p.entries) := by
    refine Document.Shape.read_inOrder format p.nodup_keys (p.testEntry_ordered format) ?_
    simp [shape, entries, Document.Field.needed, Document.Field.defaulted]
  have hentries {name : String} {es : List Entry} (hmem : (name, entryItems es) ∈ p.entries) :
      Document.Fields.getD (inOrder p.entries) name (asList (Entry.ofDocument format)) [] =
        .ok es :=
    Document.Fields.getD_inOrder p.nodup_keys hmem (asList_entries format es) []
  have happlication : Document.Fields.need (inOrder p.entries) "app_artifact" asText =
      .ok p.application :=
    Document.Fields.need_inOrder p.nodup_keys (by simp [entries])
      (Document.asText_ordered p.application)
  have hlocal : Document.Fields.getD (inOrder p.entries) "local_project_artifacts"
      (asList asText) [] = .ok p.localProject :=
    Document.Fields.getD_inOrder p.nodup_keys (by simp [entries]) (asList_texts p.localProject) []
  have hproperties : Document.Fields.getD (inOrder p.entries) "platform_properties" asTextMap ∅ =
      .ok p.properties :=
    Document.Fields.getD_inOrder p.nodup_keys (by simp [entries]) p.properties.asTextMap_ordered ∅
  have hruntime : Document.Fields.getD (inOrder p.entries) "runtime_deps"
      (asList (Entry.ofDocument format)) [] = .ok p.runtime := hentries (by simp [entries])
  have hdeployment : Document.Fields.getD (inOrder p.entries) "deployment_deps"
      (asList (Entry.ofDocument format)) [] = .ok p.deployment := hentries (by simp [entries])
  have hfull : Document.Fields.getD (inOrder p.entries) "full_deployment_deps"
      (asList (Entry.ofDocument format)) [] = .ok p.fullDeployment := hentries (by simp [entries])
  have hextensions : Document.Fields.getD (inOrder p.entries) "extensions"
      (asList (Extension.ofDocument format)) [] = .ok p.extensions :=
    Document.Fields.getD_inOrder p.nodup_keys (by simp [entries])
      (asList_extensions format p.extensions) []
  rw [toDocument, ordered_table, ofDocument, hread]
  simp only [bind, Except.bind, happlication, hlocal, hproperties, hruntime, hdeployment, hfull,
    hextensions]
  rfl

/-- A plan is read back from its text. -/
theorem parse_toToml (p : Plan) (source : String) (base : Path) :
    parse p.toToml source base = .ok { p with source, base } := by
  have hread : Toml.read p.toToml = .ok (inOrder p.entries) := Toml.read_write p.writable_entries
  have hrecord := p.ofDocument_ordered .toml source base
  rw [toDocument, ordered_table] at hrecord
  rw [parse, hread]
  dsimp only
  rw [hrecord, mapError_ok]

/-- A plan keeps where it came from. -/
theorem source_of_parse {text source : String} {base : Path} {p : Plan}
    (h : parse text source base = .ok p) : p.source = source ∧ p.base = base := by
  unfold parse at h
  dsimp only at h
  split at h
  next => exact absurd h (by simp)
  next entries _ =>
    have hrecord := mapError_eq_ok.1 h
    unfold ofDocument at hrecord
    obtain ⟨_, _, h⟩ := bind_eq_ok.1 hrecord
    obtain ⟨_, _, h⟩ := bind_eq_ok.1 h
    obtain ⟨_, _, h⟩ := bind_eq_ok.1 h
    obtain ⟨_, _, h⟩ := bind_eq_ok.1 h
    obtain ⟨_, _, h⟩ := bind_eq_ok.1 h
    obtain ⟨_, _, h⟩ := bind_eq_ok.1 h
    obtain ⟨_, _, h⟩ := bind_eq_ok.1 h
    obtain ⟨_, _, h⟩ := bind_eq_ok.1 h
    cases h
    exact ⟨rfl, rfl⟩

/-- Every plan that was read has a text, and what is read from this text is the plan again. -/
theorem written_plan_read_back {text source : String} {base : Path} {p : Plan}
    (h : parse text source base = .ok p) :
    WritableTable p.entries ∧ parse p.toToml source base = .ok p := by
  obtain ⟨hsource, hbase⟩ := source_of_parse h
  have hread := p.parse_toToml source base
  subst hsource
  subst hbase
  exact ⟨p.writable_entries, hread⟩

/-- A plan that no build could replay: texts that are no tokens, an empty scope, and extensions with
an empty property map, with a path alone, and with both. -/
def sparse : Plan where
  application := "no token\n"
  localProject := ["", "'''"]
  properties := ∅
  runtime := [⟨"a", some "", true, false⟩, ⟨"", none, false, true⟩]
  deployment := []
  fullDeployment := []
  extensions :=
    [⟨"", some ∅, none⟩, ⟨"\"", none, some "../x y"⟩,
     ⟨"b", some (.ofList [("k.1", "\\"), ("", "\t")]), some ""⟩]
  source := "plan.toml"
  base := "dir"

def sparseText : String :=
  "app_artifact = \"no token\\n\"\nlocal_project_artifacts = ['', \"'''\"]\n" ++
    "runtime_deps = [\x7bartifact = 'a', scope = ''\x7d, " ++
    "\x7bartifact = '', direct = false, optional = true\x7d]\n" ++
    "[[extensions]]\nname = ''\nproperties = \x7b\x7d\n" ++
    "[[extensions]]\nname = '\"'\ndescriptor = '../x y'\n" ++
    "[[extensions]]\nname = 'b'\ndescriptor = ''\n" ++
    "[extensions.properties]\n'k.1' = '\\'\n'' = \"\\t\"\n"

theorem written_plan_read_back_sparse :
    parse sparseText "plan.toml" "dir" = .ok sparse ∧ sparse.toToml ≠ sparseText ∧
      parse sparse.toToml "plan.toml" "dir" = .ok sparse := by
  have hread : parse sparseText "plan.toml" "dir" = .ok sparse := by decide +kernel
  exact ⟨hread, by decide +kernel, (written_plan_read_back hread).2⟩

end Plan

end Classpath
