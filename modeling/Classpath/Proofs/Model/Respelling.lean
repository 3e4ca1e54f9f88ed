import Classpath.Proofs.Key.Canonical
import Classpath.Proofs.Model.Version
import Classpath.Proofs.Respelling
import Mathlib.Data.List.Forall2

namespace Classpath

/-! # Models spelled in another way

A model can be spelled in many ways: fields in any order, defaults written out or left out, keys
named by any of their tokens in any order and any number of times, and fields beside those that are
known. What is read depends on none of this.

1. **Keys**: tokens that spell the same coordinates, and lists of them that name the same keys.
2. **Records**: how artifacts, dependencies, models and whole documents may be spelled.
3. **Texts**: a text that says what a text of a model says is a text of this model. -/

open Document (Regular Respects Respelled Spelling asKeySet asList asTextMap)
open OrderedMap (lookIn)

/-! ## Keys -/

namespace Key

/-- The coordinates that a token spells, with the default where it leaves one out or empty. -/
def spelled (token : String) : List String :=
  let segments := Text.split ':' token
  [segments.getD 0 "", segments.getD 1 "", segments.getD 2 "", packagingOf (segments.getD 3 "")]

/-- Another token, of at most four segments too, that spells the same coordinates. -/
def SameToken (token other : String) : Prop :=
  (Text.split ':' other).length ≤ 4 ∧ spelled token = spelled other

instance (token other : String) : Decidable (SameToken token other) :=
  inferInstanceAs (Decidable (_ ∧ _))

theorem spelled_of_parse {token : String} {k : Key} (h : parse token = .ok k) :
    spelled token = k.coordinates := by
  obtain ⟨rest, hsegments, -, -, -, hclassifier, hpackaging⟩ :=
    ofSegments_eq_ok_iff.1 (ofSegments_of_parse h)
  simp [spelled, hsegments, coordinates, hclassifier, hpackaging]

theorem parse_of_sameToken {token other : String} {k : Key} (h : SameToken token other)
    (hk : parse token = .ok k) : parse other = .ok k := by
  obtain ⟨hlength, hsame⟩ := h
  rw [spelled_of_parse hk, coordinates, spelled] at hsame
  obtain ⟨-, -, -, hgroup, hname, -⟩ := ofSegments_eq_ok_iff.1 (ofSegments_of_parse hk)
  refine mapError_eq_ok.2 (ofSegments_eq_ok_iff.2 ?_)
  -- Group and name are not empty, so both of their segments are there.
  cases hsegments : Text.split ':' other with
  | nil => simp_all
  | cons group segments =>
    cases segments with
    | nil => simp_all
    | cons name rest =>
      simp only [hsegments, List.getD_cons_zero, List.getD_cons_succ, List.cons.injEq] at hsame
      obtain ⟨rfl, rfl, hclassifier, hpackaging, -⟩ := hsame
      rw [hsegments, List.length_cons, List.length_cons] at hlength
      exact ⟨rest, rfl, by omega, hgroup, hname, hclassifier, hpackaging⟩

end Key

/-- A sequence of tokens that name the same keys, in any order and any number of times. -/
def SameKeys (d e : Document) : Prop :=
  ∃ tokens others : List String, d = .sequence (tokens.map .text) ∧
    e = .sequence (others.map .text) ∧
    (∀ token ∈ tokens, ∃ other ∈ others, Key.SameToken token other) ∧
    ∀ other ∈ others, ∃ token ∈ tokens, Key.SameToken token other

theorem asKeySet_texts {tokens : List String} {keys : KeySet} :
    asKeySet (.sequence (tokens.map .text)) = .ok keys ↔
      (∀ token ∈ tokens, ∃ k, Key.parse token = .ok k) ∧
        ∀ k, k ∈ keys ↔ ∃ token ∈ tokens, Key.parse token = .ok k := by
  have hkey (token : String) (k : Key) :
      Document.asKey (.text token) = .ok k ↔ Key.parse token = .ok k := mapError_eq_ok
  have hnamed (k : Key) :
      k ∈ OrderedSet.ofList ((tokens.map Document.text).filterMap fun d =>
        (Document.asKey d).toOption) ↔ ∃ token ∈ tokens, Key.parse token = .ok k := by
    simp [List.mem_filterMap, toOption_eq_some_iff, hkey]
  rw [asKeySet, asList, Document.readItems_eq_mapM, map_eq_ok]
  simp only [mapM_eq_ok_iff, List.forall_mem_map, isOk_iff, hkey]
  constructor
  · rintro ⟨_, ⟨hparse, rfl⟩, rfl⟩
    exact ⟨hparse, hnamed⟩
  · rintro ⟨hparse, hkeys⟩
    exact ⟨_, ⟨hparse, rfl⟩, OrderedSet.ext fun k => (hnamed k).trans (hkeys k).symm⟩

theorem respects_asKeySet : Respects asKeySet SameKeys := by
  rintro _ _ keys ⟨tokens, others, rfl, rfl, hthere, hback⟩ - hkeys
  obtain ⟨hnamed, hmem⟩ := asKeySet_texts.1 hkeys
  refine asKeySet_texts.2 ⟨fun other hother => ?_, fun k => ⟨fun hk => ?_, ?_⟩⟩
  · obtain ⟨token, htoken, hsame⟩ := hback other hother
    obtain ⟨k, hk⟩ := hnamed token htoken
    exact ⟨k, Key.parse_of_sameToken hsame hk⟩
  · obtain ⟨token, htoken, hparse⟩ := (hmem k).1 hk
    obtain ⟨other, hother, hsame⟩ := hthere token htoken
    exact ⟨other, hother, Key.parse_of_sameToken hsame hparse⟩
  · rintro ⟨other, hother, hparse⟩
    obtain ⟨token, htoken, hsame⟩ := hback other hother
    -- The token names some key, and then the other one names the same.
    obtain ⟨k', hk'⟩ := hnamed token htoken
    have heq : k' = k := Except.ok.inj ((Key.parse_of_sameToken hsame hk').symm.trans hparse)
    exact (hmem k).2 ⟨token, htoken, heq ▸ hk'⟩

/-! ## Records -/

/-- A table of the same texts in another order. -/
def SameTexts (d e : Document) : Prop :=
  ∃ entries others : List (String × String), d = .table (entries.map fun x => (x.1, .text x.2)) ∧
    e = .table (others.map fun x => (x.1, .text x.2)) ∧ entries.Perm others

theorem respects_asTextMap : Respects asTextMap SameTexts := by
  rintro _ _ m ⟨entries, others, rfl, rfl, hperm⟩ hregular hm
  rw [asTextMap, Document.readTexts_map] at hm ⊢
  have hkeys : (others.map Prod.fst).Nodup := by
    have hnodup := hregular.sorted.nodup_keys
    rw [List.map_map] at hnodup
    exact hnodup
  cases hm
  exact congrArg Except.ok (OrderedMap.ofList_perm hkeys hperm.symm)

/-- How the fields of an artifact may be spelled. -/
def Artifact.spelling : List Spelling :=
  [⟨"group", none, Eq⟩, ⟨"name", none, Eq⟩, ⟨"classifier", some (.text ""), Eq⟩,
   ⟨"type", some (.text Key.defaultPackaging), Eq⟩, ⟨"version", none, Eq⟩]

/-- How the fields of a dependency may be spelled. -/
def Dependency.spelling : List Spelling :=
  Artifact.spelling ++
    [⟨"scope", some (.text Dependency.defaultScope), Eq⟩,
     ⟨"direct", some (.boolean false), Eq⟩, ⟨"optional", some (.boolean false), Eq⟩]

/-- A sequence of dependencies that say the same, in the same order. -/
def SameDependencies (d e : Document) : Prop :=
  ∃ items others : List Document, d = .sequence items ∧ e = .sequence others ∧
    List.Forall₂ (Respelled Dependency.spelling) items others

namespace Model

/-- How the fields of a model may be spelled. -/
def spelling : List Spelling :=
  [⟨"parent_first_artifacts", some (.sequence []), SameKeys⟩,
   ⟨"runner_parent_first_artifacts", some (.sequence []), SameKeys⟩,
   ⟨"lesser_priority_artifacts", some (.sequence []), SameKeys⟩,
   ⟨"local_project_artifacts", some (.sequence []), SameKeys⟩,
   ⟨"app_artifact", none, Respelled Artifact.spelling⟩,
   ⟨"platform_properties", some (.table []), SameTexts⟩,
   ⟨"runtime_deps", some (.sequence []), SameDependencies⟩,
   ⟨"deployment_deps", some (.sequence []), SameDependencies⟩,
   ⟨"full_deployment_deps", some (.sequence []), SameDependencies⟩]

/-- How the document of a model may be spelled. -/
def documentSpelling : List Spelling :=
  [⟨"format_version", none, Eq⟩, ⟨"model", none, Respelled spelling⟩]

end Model

/-! ## Artifacts and dependencies -/

theorem Artifact.fits_coordinates :
    List.Forall₂ Spelling.Fits Artifact.spelling coordinateFields := by
  have htext {default : Option Document} (name : String)
      (hdefault : ∀ d, default = some d → ∃ x, Document.asText d = .ok x) :
      Spelling.Fits ⟨name, default, Eq⟩ (.defaulted name Document.asText) :=
    Spelling.fits_defaulted name (Document.respects_eq _) hdefault
  have hneeded (name : String) : Spelling.Fits ⟨name, none, Eq⟩ (.needed name Document.asText) :=
    Spelling.fits_needed name (Document.respects_eq _)
  refine .cons (hneeded _) (.cons (hneeded _) (.cons (htext _ ?_) (.cons (htext _ ?_)
    (.cons (hneeded _) .nil))))
  · rintro _ ⟨⟩
    exact ⟨_, rfl⟩
  · rintro _ ⟨⟩
    exact ⟨_, rfl⟩

theorem readCoordinates_respelled {fields : List Spelling}
    (hfields : ∀ g ∈ Artifact.spelling, g ∈ fields) {found others : Document.Fields}
    (h : found.Respelled fields others) {a : Artifact} (ha : readCoordinates found = .ok a) :
    readCoordinates others = .ok a := by
  have hneed {name : String} {x : String} (hg : ⟨name, none, Eq⟩ ∈ Artifact.spelling)
      (hx : found.need name Document.asText = .ok x) :
      others.need name Document.asText = .ok x :=
    h.need (hfields _ hg) (Document.respects_eq _) rfl hx
  have hgetD {name default x : String} (hg : ⟨name, some (.text default), Eq⟩ ∈ Artifact.spelling)
      (hx : found.getD name Document.asText default = .ok x) :
      others.getD name Document.asText default = .ok x := by
    refine h.getD (hfields _ hg) (Document.respects_eq _) ?_ hx
    rintro _ ⟨⟩
    rfl
  rw [readCoordinates] at ha ⊢
  obtain ⟨group, hgroup, ha⟩ := bind_eq_ok.1 ha
  obtain ⟨name, hname, ha⟩ := bind_eq_ok.1 ha
  obtain ⟨classifier, hclassifier, ha⟩ := bind_eq_ok.1 ha
  obtain ⟨packaging, hpackaging, ha⟩ := bind_eq_ok.1 ha
  obtain ⟨version, hversion, ha⟩ := bind_eq_ok.1 ha
  rw [hneed (by simp [Artifact.spelling]) hgroup, hneed (by simp [Artifact.spelling]) hname,
    hgetD (by simp [Artifact.spelling]) hclassifier, hgetD (by simp [Artifact.spelling]) hpackaging,
    hneed (by simp [Artifact.spelling]) hversion]
  exact ha

theorem respects_artifact : Respects (Artifact.ofDocument .toml) (Respelled Artifact.spelling) := by
  intro d e a hsame he ha
  obtain ⟨found, hfound, ha⟩ := bind_eq_ok.1 ha
  obtain ⟨others, hothers, hfields⟩ := Document.Shape.read_respelled rfl Artifact.fits_coordinates
    (by simp [Artifact.spelling]) hsame he hfound
  exact bind_eq_ok.2 ⟨others, hothers, readCoordinates_respelled (fun _ hg => hg) hfields ha⟩

theorem Dependency.fits :
    List.Forall₂ Spelling.Fits Dependency.spelling Dependency.shape.fields := by
  have hscope : Spelling.Fits ⟨"scope", some (.text Dependency.defaultScope), Eq⟩
      (.defaulted "scope" Document.asText) := by
    refine Spelling.fits_defaulted _ (Document.respects_eq _) ?_
    rintro _ ⟨⟩
    exact ⟨_, rfl⟩
  have hflag (name : String) : Spelling.Fits ⟨name, some (.boolean false), Eq⟩
      (.defaulted name Document.asBoolean) := by
    refine Spelling.fits_defaulted _ (Document.respects_eq _) ?_
    rintro _ ⟨⟩
    exact ⟨_, rfl⟩
  exact List.rel_append Artifact.fits_coordinates
    (.cons hscope (.cons (hflag _) (.cons (hflag _) .nil)))

theorem respects_dependency :
    Respects (Dependency.ofDocument .toml) (Respelled Dependency.spelling) := by
  intro d e x hsame he hx
  obtain ⟨found, hfound, hx⟩ := bind_eq_ok.1 hx
  obtain ⟨others, hothers, hfields⟩ := Document.Shape.read_respelled rfl Dependency.fits
    (by simp [Dependency.spelling, Artifact.spelling]) hsame he hfound
  obtain ⟨artifact, hartifact, hx⟩ := bind_eq_ok.1 hx
  obtain ⟨scope, hscope, hx⟩ := bind_eq_ok.1 hx
  obtain ⟨direct, hdirect, hx⟩ := bind_eq_ok.1 hx
  obtain ⟨isOptional, hoptional, hx⟩ := bind_eq_ok.1 hx
  have hcoordinates : ∀ g ∈ Artifact.spelling, g ∈ Dependency.spelling :=
    fun g hg => List.mem_append_left _ hg
  have hflag {name : String} {value : Bool}
      (hg : ⟨name, some (.boolean false), Eq⟩ ∈ Dependency.spelling)
      (hvalue : found.getD name Document.asBoolean false = .ok value) :
      others.getD name Document.asBoolean false = .ok value := by
    refine hfields.getD hg (Document.respects_eq _) ?_ hvalue
    rintro _ ⟨⟩
    rfl
  have hscope : others.getD "scope" Document.asText Dependency.defaultScope = .ok scope := by
    have hg : ⟨"scope", some (.text Dependency.defaultScope), Eq⟩ ∈ Dependency.spelling := by
      simp [Dependency.spelling]
    refine hfields.getD hg (Document.respects_eq _) ?_ hscope
    rintro _ ⟨⟩
    rfl
  refine bind_eq_ok.2 ⟨others, hothers, ?_⟩
  rw [readCoordinates_respelled hcoordinates hfields hartifact, hscope,
    hflag (by simp [Dependency.spelling]) hdirect, hflag (by simp [Dependency.spelling]) hoptional]
  exact hx

theorem respects_dependencies :
    Respects (asList (Dependency.ofDocument .toml)) SameDependencies := by
  rintro _ _ deps ⟨items, others, rfl, rfl, hsame⟩ hregular hdeps
  exact Document.readItems_of_forall₂ respects_dependency hsame hregular.item hdeps

/-! ## Models -/

namespace Model

theorem fits_spelling : List.Forall₂ Spelling.Fits spelling (shape .toml).fields := by
  have hset (name : String) : Spelling.Fits ⟨name, some (.sequence []), SameKeys⟩
      (.defaulted name asKeySet) := by
    refine Spelling.fits_defaulted _ respects_asKeySet ?_
    rintro _ ⟨⟩
    exact ⟨_, rfl⟩
  have hproperties : Spelling.Fits ⟨"platform_properties", some (.table []), SameTexts⟩
      (.defaulted "platform_properties" asTextMap) := by
    refine Spelling.fits_defaulted _ respects_asTextMap ?_
    rintro _ ⟨⟩
    exact ⟨_, rfl⟩
  have hlist (name : String) : Spelling.Fits ⟨name, some (.sequence []), SameDependencies⟩
      (.defaulted name (asList (Dependency.ofDocument .toml))) := by
    refine Spelling.fits_defaulted _ respects_dependencies ?_
    rintro _ ⟨⟩
    exact ⟨_, rfl⟩
  exact .cons (hset _) (.cons (hset _) (.cons (hset _) (.cons (hset _)
    (.cons (Spelling.fits_needed _ respects_artifact) (.cons hproperties
      (.cons (hlist _) (.cons (hlist _) (.cons (hlist _) .nil))))))))

theorem respects_model : Respects (ofDocument .toml) (Respelled spelling) := by
  intro d e m hsame he hm
  obtain ⟨found, hfound, hm⟩ := bind_eq_ok.1 hm
  obtain ⟨others, hothers, hfields⟩ := Document.Shape.read_respelled rfl fits_spelling
    (by simp [spelling]) hsame he hfound
  have hset {name : String} {keys : KeySet}
      (hg : ⟨name, some (.sequence []), SameKeys⟩ ∈ spelling)
      (hkeys : found.getD name asKeySet ∅ = .ok keys) : others.getD name asKeySet ∅ = .ok keys := by
    refine hfields.getD hg respects_asKeySet ?_ hkeys
    rintro _ ⟨⟩
    rfl
  have hlist {name : String} {deps : List Dependency}
      (hg : ⟨name, some (.sequence []), SameDependencies⟩ ∈ spelling)
      (hdeps : found.getD name (asList (Dependency.ofDocument .toml)) [] = .ok deps) :
      others.getD name (asList (Dependency.ofDocument .toml)) [] = .ok deps := by
    refine hfields.getD hg respects_dependencies ?_ hdeps
    rintro _ ⟨⟩
    rfl
  have hproperties {properties : PropertyMap}
      (hg : ⟨"platform_properties", some (.table []), SameTexts⟩ ∈ spelling)
      (h : found.getD "platform_properties" asTextMap ∅ = .ok properties) :
      others.getD "platform_properties" asTextMap ∅ = .ok properties := by
    refine hfields.getD hg respects_asTextMap ?_ h
    rintro _ ⟨⟩
    rfl
  have happlication {application : Artifact}
      (hg : ⟨"app_artifact", none, Respelled Artifact.spelling⟩ ∈ spelling)
      (h : found.need "app_artifact" (Artifact.ofDocument .toml) = .ok application) :
      others.need "app_artifact" (Artifact.ofDocument .toml) = .ok application :=
    hfields.need hg respects_artifact rfl h
  obtain ⟨parentFirst, hparentFirst, hm⟩ := bind_eq_ok.1 hm
  obtain ⟨runner, hrunner, hm⟩ := bind_eq_ok.1 hm
  obtain ⟨lesser, hlesser, hm⟩ := bind_eq_ok.1 hm
  obtain ⟨localProject, hlocal, hm⟩ := bind_eq_ok.1 hm
  obtain ⟨application, happ, hm⟩ := bind_eq_ok.1 hm
  obtain ⟨properties, hprops, hm⟩ := bind_eq_ok.1 hm
  obtain ⟨runtime, hruntime, hm⟩ := bind_eq_ok.1 hm
  obtain ⟨deployment, hdeployment, hm⟩ := bind_eq_ok.1 hm
  obtain ⟨fullDeployment, hfull, hm⟩ := bind_eq_ok.1 hm
  refine bind_eq_ok.2 ⟨others, hothers, ?_⟩
  rw [hset (by simp [spelling]) hparentFirst, hset (by simp [spelling]) hrunner,
    hset (by simp [spelling]) hlesser, hset (by simp [spelling]) hlocal,
    happlication (by simp [spelling]) happ, hproperties (by simp [spelling]) hprops,
    hlist (by simp [spelling]) hruntime, hlist (by simp [spelling]) hdeployment,
    hlist (by simp [spelling]) hfull]
  exact hm

/-! ## Texts -/

/-- Both passes find the same in a document that says the same. -/
theorem ofEntries_respelled {entries others : List (String × Document)} {m : Model}
    (h : (Document.table entries).Respelled documentSpelling (.table others))
    (hothers : (Document.table others).Regular) (hm : ofEntries entries = .ok m) :
    ofEntries others = .ok m := by
  cases h with
  | table h =>
    obtain ⟨hversion, hbody⟩ := ofEntries_eq_ok_iff.1 hm
    refine ofEntries_eq_ok_iff.2 ⟨?_, ?_⟩
    · have hlook := lookIn_of_readVersion hversion
      have hsame := Spelling.respelled_eq_iff.1
        (h ⟨"format_version", none, Eq⟩ (by simp [documentSpelling]))
      rw [readVersion_eq hothers.sorted.nodup_keys fun e he _ => (hothers.entry e he).readable,
        ← hsame, hlook]
      rfl
    · obtain ⟨found, hfound, hneed⟩ := bind_eq_ok.1 hbody
      have hfits : List.Forall₂ Spelling.Fits [⟨"model", none, Respelled spelling⟩]
          bodyShape.fields := .cons (Spelling.fits_needed _ respects_model) .nil
      have hmodel : (Document.table entries).Respelled [⟨"model", none, Respelled spelling⟩]
          (.table others) :=
        .table fun g hg => h g (List.mem_cons_of_mem _ hg)
      obtain ⟨found', hfound', hfields⟩ := Document.Shape.read_respelled rfl hfits
        (by simp) hmodel hothers hfound
      exact bind_eq_ok.2 ⟨found', hfound',
        hfields.need List.mem_cons_self respects_model rfl hneed⟩

/-- A text that says in another way what the text of a model says, with a value for each number, is
a text of this model, and so it leads to the same bytes and to the same fingerprint when it is
written again. -/
theorem respelling_leaves_no_trace {text other : String} {entries others : List (String × Document)}
    {m : Model} (htext : Toml.read text = .ok entries) (hother : Toml.read other = .ok others)
    (hreadable : (Document.table others).isReadable = true)
    (hsame : (Document.table entries).Respelled documentSpelling (.table others))
    (hm : ofToml text = .ok m) :
    ∃ m', ofToml other = .ok m' ∧ m' = m ∧ m'.toToml = m.toToml ∧
      m'.fingerprint = m.fingerprint := by
  have hregular : (Document.table others).Regular := ⟨Toml.read_sorted hother, hreadable⟩
  rw [ofToml_of_read htext] at hm
  have hentries : ofEntries others = .ok m :=
    ofEntries_respelled hsame hregular (mapError_eq_ok.1 hm)
  refine ⟨m, ?_, rfl, rfl, rfl⟩
  rw [ofToml_of_read hother, hentries]
  rfl

/-! ### One model in two texts -/

/-- A text of a model. -/
def terse : String :=
  "format_version=1\n[model]\nparent_first_artifacts=['g:a','g:b']\n" ++
    "runtime_deps=[\x7bgroup='g',name='a',version='1'\x7d]\n" ++
    "[model.app_artifact]\ngroup='g'\nname='n'\nversion='1'\n"

/-- The same model, with fields and tables moved, defaults written out, tokens spelled out, moved
and repeated, and unknown fields on all four levels, one of them with a given value. -/
def verbose (w : String) : String :=
  "w=" ++ w ++ "\nformat_version=1\n[model.app_artifact]\nx=2\nversion='1'\nname='n'\n" ++
    "type='jar'\ngroup='g'\n[model]\n" ++
    "runtime_deps=[\x7bversion='1',y=3,direct=false,name='a',group='g'\x7d]\n" ++
    "z=4\nparent_first_artifacts=['g:b:','g:a::jar','g:b']\n"

def terseEntries : List (String × Document) :=
  [("format_version", .integer 1),
   ("model", .table
     [("app_artifact", .table
       [("group", .text "g"), ("name", .text "n"), ("version", .text "1")]),
      ("parent_first_artifacts", .sequence [.text "g:a", .text "g:b"]),
      ("runtime_deps", .sequence [.table
        [("group", .text "g"), ("name", .text "a"), ("version", .text "1")]])])]

def verboseEntries (w : Document) : List (String × Document) :=
  [("format_version", .integer 1),
   ("model", .table
     [("app_artifact", .table
       [("group", .text "g"), ("name", .text "n"), ("type", .text "jar"), ("version", .text "1"),
        ("x", .integer 2)]),
      ("parent_first_artifacts", .sequence [.text "g:b:", .text "g:a::jar", .text "g:b"]),
      ("runtime_deps", .sequence [.table
        [("direct", .boolean false), ("group", .text "g"), ("name", .text "a"),
         ("version", .text "1"), ("y", .integer 3)]]),
      ("z", .integer 4)]),
   ("w", w)]

theorem terse_respelled (w : Document) :
    (Document.table terseEntries).Respelled documentSpelling (.table (verboseEntries w)) := by
  have hartifact : Respelled Artifact.spelling
      (.table [("group", .text "g"), ("name", .text "n"), ("version", .text "1")])
      (.table [("group", .text "g"), ("name", .text "n"), ("type", .text "jar"),
        ("version", .text "1"), ("x", .integer 2)]) := by
    refine .table ?_
    simp only [Artifact.spelling, List.forall_mem_cons]
    exact ⟨.same rfl, .same rfl, .missing, .added rfl, .same rfl, by simp⟩
  have hdependency : Respelled Dependency.spelling
      (.table [("group", .text "g"), ("name", .text "a"), ("version", .text "1")])
      (.table [("direct", .boolean false), ("group", .text "g"), ("name", .text "a"),
        ("version", .text "1"), ("y", .integer 3)]) := by
    refine .table ?_
    simp only [Dependency.spelling, Artifact.spelling, List.cons_append, List.nil_append,
      List.forall_mem_cons]
    exact ⟨.same rfl, .same rfl, .missing, .missing, .same rfl, .missing, .added rfl, .missing,
      by simp⟩
  have hkeys : SameKeys (.sequence [.text "g:a", .text "g:b"])
      (.sequence [.text "g:b:", .text "g:a::jar", .text "g:b"]) :=
    ⟨["g:a", "g:b"], ["g:b:", "g:a::jar", "g:b"], rfl, rfl, by decide, by decide⟩
  refine .table ?_
  simp only [documentSpelling, List.forall_mem_cons]
  refine ⟨.same rfl, .same (.table ?_), by simp⟩
  simp only [spelling, List.forall_mem_cons]
  exact ⟨.same hkeys, .missing, .missing, .missing, .same hartifact, .missing,
    .same ⟨_, _, rfl, rfl, .cons hdependency .nil⟩, .missing, .missing, by simp⟩

/-- The model of both texts. -/
def told : Model where
  parentFirst := .ofList [.plain "g" "a", .plain "g" "b"]
  runnerParentFirst := ∅
  lesserPriority := ∅
  localProject := ∅
  application := ⟨.plain "g" "n", "1"⟩
  properties := ∅
  runtime := [⟨⟨.plain "g" "a", "1"⟩, "compile", false, false⟩]
  deployment := []
  fullDeployment := []

theorem read_terse : Toml.read terse = .ok terseEntries := by
  decide +kernel

theorem ofToml_terse : ofToml terse = .ok told := by
  rw [ofToml_of_read read_terse]
  decide +kernel

theorem respelling_leaves_no_trace_verbose :
    ofToml terse = .ok told ∧ ofToml (verbose "1") = .ok told := by
  have hverbose : Toml.read (verbose "1") = .ok (verboseEntries (.integer 1)) := by decide +kernel
  obtain ⟨m, hm, rfl, -⟩ := respelling_leaves_no_trace read_terse hverbose (by decide)
    (terse_respelled _) ofToml_terse
  exact ⟨ofToml_terse, hm⟩

/-- A text in which an unknown field holds a number without a value says the same, but both passes
come upon the number. -/
theorem ofToml_verbose_huge :
    ofToml terse = .ok told ∧
      (∃ others, Toml.read (verbose "10000000000000000000000000000000000000000") = .ok others ∧
        (Document.table terseEntries).Respelled documentSpelling (.table others)) ∧
      ofToml (verbose "10000000000000000000000000000000000000000") =
        .error (.unreadableModel "<string>" "toml syntax error") := by
  have hverbose : Toml.read (verbose "10000000000000000000000000000000000000000") =
      .ok (verboseEntries .unreadable) := by decide +kernel
  refine ⟨ofToml_terse, ⟨_, hverbose, terse_respelled _⟩, ?_⟩
  rw [ofToml_of_read hverbose]
  decide +kernel

end Model

end Classpath
