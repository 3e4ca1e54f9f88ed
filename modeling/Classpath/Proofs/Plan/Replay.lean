import Classpath.Proofs.Assembly.Merging

namespace Classpath.Plan

/-! # What a replay comes to

1. **Findings**: the entries of a plan in the order in which they are looked at, each with the
   failure that it causes, if it causes one. A replay fails as the first of them.
2. **Foundation**: the checks of the assembly are passed by everything that came from a token, so
   nothing but the tokens can make it fail.
3. **Extensions**: merging goes on as long as there are property maps. -/

open Descriptor (WellFormed Brings)
open Assembly (Reports merges mergedInTurn)

/-! ## Findings -/

/-- The entries of the three dependency lists of a plan. -/
def dependencies (p : Plan) : DependencyList → List Entry
  | .runtime => p.runtime
  | .deployment => p.deployment
  | .fullDeployment => p.fullDeployment

/-- The fault of an entry of the plan, if its token names nothing. -/
def offence {α : Type} (p : Plan) (entry : String) (outcome : Except Fault α) : Option Fault :=
  (failure? outcome).map fun fault => .invalidPlan p.source s!"{entry}: {fault.message}"

/-- The faults of the entries of a list, from the entry with an index on. -/
def offences {α β : Type} (p : Plan) (list : String) (read : α → Except Fault β) (index : Nat)
    (xs : List α) : List (Option Fault) :=
  (xs.zipIdx index).map fun x => p.offence s!"{list}[{x.2}]" (read x.1)

/-- The faults of all tokens. -/
def tokenOffences (p : Plan) : List (Option Fault) :=
  let artifact (e : Entry) := Artifact.parse e.artifact
  [p.offence "app_artifact" (Artifact.parse p.application)] ++
    (p.offences "local_project_artifacts" Key.parse 0 p.localProject ++
      (p.offences "runtime_deps" artifact 0 p.runtime ++
        (p.offences "deployment_deps" artifact 0 p.deployment ++
          p.offences "full_deployment_deps" artifact 0 p.fullDeployment)))

/-- The failure of an extension that has no property map, or may have two: the file may be
unreadable, or the plan may say too much or too little. -/
def shortcoming (p : Plan) (files : FileTree) (e : Extension) : Option Failure :=
  match e.properties, e.descriptor with
  | some _, none => none
  | none, some path =>
    (failure? (files.readText (p.base.join path))).map fun fault =>
      { contexts :=
          [s!"Cannot load descriptor of extension '{e.name}'",
           s!"Failed to read extension descriptor: {p.base.join path}"]
        cause := .system fault.kind fault.message }
  | some _, some _ =>
    some ⟨[], .fault (.invalidPlan p.source
      s!"extension '{e.name}' sets both 'properties' and 'descriptor'")⟩
  | none, none =>
    some ⟨[], .fault (.invalidPlan p.source
      s!"extension '{e.name}' needs either 'properties' or 'descriptor'")⟩

/-- The failures of all entries: those of the tokens, then those of the extensions. -/
def findings (p : Plan) (files : FileTree) : List (Option Failure) :=
  p.tokenOffences.map (Option.map fun fault => ⟨[], .fault fault⟩) ++
    p.extensions.map (p.shortcoming files)

theorem offences_cons {α β : Type} (p : Plan) (list : String) (read : α → Except Fault β)
    (index : Nat) (x : α) (xs : List α) :
    p.offences list read index (x :: xs) =
      p.offence s!"{list}[{index}]" (read x) :: p.offences list read (index + 1) xs :=
  rfl

/-! ## Foundation -/

theorem readEntries_eq_ok {α β : Type} {p : Plan} {list : String} {read : α → Except Fault β}
    {index : Nat} {xs : List α} {ys : List β} (h : p.readEntries list read index xs = .ok ys) :
    List.Forall₂ (fun x y => read x = .ok y) xs ys := by
  induction xs generalizing index ys with
  | nil =>
    cases h
    exact List.Forall₂.nil
  | cons x xs ih =>
    rw [readEntries] at h
    split at h
    next => exact absurd h (by simp)
    next y hy =>
      split at h
      next => exact absurd h (by simp)
      next zs hzs =>
        cases h
        exact List.Forall₂.cons hy (ih hzs)

theorem failure?_readEntries {α β : Type} (p : Plan) (list : String) (read : α → Except Fault β)
    (index : Nat) (xs : List α) :
    failure? (p.readEntries list read index xs) =
      (p.offences list read index xs).findSome? id := by
  induction xs generalizing index with
  | nil => rfl
  | cons x xs ih =>
    rw [offences_cons, List.findSome?_cons, ← ih, readEntries]
    cases hx : read x with
    | error fault => rfl
    | ok y =>
      have hnone : p.offence s!"{list}[{index}]" (Except.ok y) = none := rfl
      rw [hnone]
      dsimp only [id]
      cases p.readEntries list read (index + 1) xs <;> rfl

/-- An entry of a dependency list fails as its token does. -/
theorem offences_dependency (p : Plan) (list : String) (index : Nat) (es : List Entry) :
    p.offences list Entry.dependency index es =
      p.offences list (fun e => Artifact.parse e.artifact) index es := by
  simp only [offences, offence, Entry.dependency, failure?_map]

/-- The assembly of what the tokens of a plan stand for. -/
def founded (p : Plan) (root : Artifact) (keys : List Key)
    (runtime deployment fullDeployment : List Dependency) : Assembly :=
  ((((({ Assembly.empty with application := some root }).addProperties
    p.properties.entries).insertKeys .localProject keys).append .runtime runtime).append
      .deployment deployment).append .fullDeployment fullDeployment

/-- What holds of everything that can stand beside something holds of all that stand there. -/
theorem forall_of_beside {α β : Type} {R : α → β → Prop} {P : β → Prop} {xs : List α}
    {ys : List β} (h : List.Forall₂ R xs ys) (hR : ∀ x y, R x y → P y) : ∀ y ∈ ys, P y := by
  induction h with
  | nil =>
    intro y hy
    exact absurd hy List.not_mem_nil
  | cons hx _ ih =>
    intro z hz
    rcases List.mem_cons.1 hz with rfl | hz
    · exact hR _ _ hx
    · exact ih z hz

/-- What stands beside something is read off it. -/
theorem eq_filterMap_of_beside {α β : Type} {R : α → β → Prop} {f : α → Option β} {xs : List α}
    {ys : List β} (h : List.Forall₂ R xs ys) (hR : ∀ x y, R x y → f x = some y) :
    ys = xs.filterMap f := by
  induction h with
  | nil => rfl
  | cons hx _ ih => rw [List.filterMap_cons_some (hR _ _ hx), ← ih]

theorem complete_of_readEntries {p : Plan} {list : String} {index : Nat} {tokens : List String}
    {keys : List Key} (h : p.readEntries list Key.parse index tokens = .ok keys) :
    ∀ k ∈ keys, k.Complete :=
  forall_of_beside (readEntries_eq_ok h) fun _ _ => Key.complete_of_parse

theorem resolved_of_dependency {e : Entry} {d : Dependency} (h : e.dependency = .ok d) :
    d.artifact.Resolved := by
  obtain ⟨a, ha, rfl⟩ := map_eq_ok.1 h
  exact Artifact.resolved_of_parse ha

theorem resolved_of_readEntries {p : Plan} {list : String} {index : Nat} {es : List Entry}
    {deps : List Dependency} (h : p.readEntries list Entry.dependency index es = .ok deps) :
    ∀ d ∈ deps, d.artifact.Resolved :=
  forall_of_beside (readEntries_eq_ok h) fun _ _ => resolved_of_dependency

/-- No check of the assembly ever fails on the way: the foundation is a chain of readings. -/
theorem foundation_eq (p : Plan) :
    p.foundation =
      ((Artifact.parse p.application).mapError (p.entryFault "app_artifact")).bind fun root =>
        (p.readEntries "local_project_artifacts" Key.parse 0 p.localProject).bind fun keys =>
          (p.readEntries "runtime_deps" Entry.dependency 0 p.runtime).bind fun runtime =>
            (p.readEntries "deployment_deps" Entry.dependency 0 p.deployment).bind fun deployment =>
              (p.readEntries "full_deployment_deps" Entry.dependency 0 p.fullDeployment).map
                fun fullDeployment => p.founded root keys runtime deployment fullDeployment := by
  have hset {a : Assembly} {root : Artifact} (h : root.Resolved) :
      a.setApplication root = .ok { a with application := some root } :=
    Assembly.setApplication_eq_ok_iff.2 ⟨h, rfl⟩
  have hkeys {a : Assembly} {group : KeyGroup} {keys : List Key} (h : ∀ k ∈ keys, k.Complete) :
      a.addKeys group keys = .ok (a.insertKeys group keys) :=
    Assembly.addKeys_eq_ok_iff.2 ⟨h, rfl⟩
  have hdeps {a : Assembly} {list : DependencyList} {deps : List Dependency}
      (h : ∀ d ∈ deps, d.artifact.Resolved) :
      a.addDependencies list deps = .ok (a.append list deps) :=
    Assembly.addDependencies_eq_ok_iff.2 ⟨h, rfl⟩
  -- each stage is checked once more by the assembly, and what was read always passes
  rw [foundation]
  cases hroot : Artifact.parse p.application with
  | error fault => rfl
  | ok root =>
    simp only [mapError_ok, bind, Except.bind, hset (Artifact.resolved_of_parse hroot)]
    cases hlocal : p.readEntries "local_project_artifacts" Key.parse 0 p.localProject with
    | error fault => rfl
    | ok keys =>
      simp only [hkeys (complete_of_readEntries hlocal)]
      cases hruntime : p.readEntries "runtime_deps" Entry.dependency 0 p.runtime with
      | error fault => rfl
      | ok runtime =>
        simp only [hdeps (resolved_of_readEntries hruntime)]
        cases hdeployment : p.readEntries "deployment_deps" Entry.dependency 0 p.deployment with
        | error fault => rfl
        | ok deployment =>
          simp only [hdeps (resolved_of_readEntries hdeployment)]
          cases hfull : p.readEntries "full_deployment_deps" Entry.dependency 0
              p.fullDeployment with
          | error fault => rfl
          | ok fullDeployment =>
            simp only [hdeps (resolved_of_readEntries hfull)]
            rfl

/-- The foundation fails as the first token that names nothing. -/
theorem failure?_foundation (p : Plan) :
    failure? p.foundation = p.tokenOffences.findSome? id := by
  rw [foundation_eq, tokenOffences]
  simp only [← offences_dependency]
  refine failure?_bind ?_ fun root _ => failure?_bind ?_ fun keys _ => failure?_bind ?_
    fun runtime _ => failure?_bind ?_ fun deployment _ => ?_
  · rw [failure?_mapError, offence]
    cases failure? (Artifact.parse p.application) <;> rfl
  · exact p.failure?_readEntries _ _ 0 _
  · exact p.failure?_readEntries _ _ 0 _
  · exact p.failure?_readEntries _ _ 0 _
  · rw [failure?_map]
    exact p.failure?_readEntries _ _ 0 _

/-! ## Extensions -/

/-- The property map of an extension: its own, or the one in the file to which its path leads from
the base of the plan. -/
def Provides (p : Plan) (files : FileTree) (e : Extension) (properties : PropertyMap) : Prop :=
  e.properties = some properties ∧ e.descriptor = none ∨
    e.properties = none ∧ ∃ path text, e.descriptor = some path ∧
      files.readText (p.base.join path) = .ok text ∧ Properties.parse text = properties

/-- The name of an extension with its map. -/
def Contributes (p : Plan) (files : FileTree) (e : Extension) (x : Contribution) : Prop :=
  x.1 = e.name ∧ p.Provides files e x.2

/-- The maps of some extensions, up to the first for which none is provided. -/
def Collected (p : Plan) (files : FileTree) (es : List Extension) (maps : List Contribution) :
    Prop :=
  ∃ taken left, es = taken ++ left ∧ List.Forall₂ (p.Contributes files) taken maps ∧
    ∀ e, left.head? = some e → ∀ properties, ¬ p.Provides files e properties

section Extensions

variable {p : Plan} {files : FileTree} {e : Extension}

theorem descriptorOf_eq_ok_iff {properties : PropertyMap} :
    p.descriptorOf files e = .ok properties ↔ p.Provides files e properties := by
  rw [descriptorOf, Provides]
  cases hproperties : e.properties with
  | some own =>
    cases hdescriptor : e.descriptor with
    | none => simp
    | some path => simp
  | none =>
    cases hdescriptor : e.descriptor with
    | none => simp
    | some path =>
      cases htext : files.readText (p.base.join path) with
      | error fault => simp [readDescriptor, htext]
      | ok text => simp [readDescriptor, htext]

theorem failure?_descriptorOf (p : Plan) (files : FileTree) (e : Extension) :
    failure? (p.descriptorOf files e) = p.shortcoming files e := by
  rw [descriptorOf, shortcoming]
  cases e.properties with
  | some own => cases e.descriptor <;> rfl
  | none =>
    cases e.descriptor with
    | none => rfl
    | some path =>
      dsimp only
      rw [readDescriptor]
      cases files.readText (p.base.join path) <;> rfl

theorem shortcoming_eq_none_iff :
    p.shortcoming files e = none ↔ ∃ properties, p.Provides files e properties := by
  rw [← failure?_descriptorOf, failure?_eq_none_iff]
  simp only [descriptorOf_eq_ok_iff]

/-- An extension has one map at most. -/
theorem Provides.unique {properties others : PropertyMap} (h : p.Provides files e properties)
    (h' : p.Provides files e others) : properties = others := by
  have hread := descriptorOf_eq_ok_iff.2 h
  rw [descriptorOf_eq_ok_iff.2 h'] at hread
  exact (Except.ok.inj hread).symm

instance (P : PropertyMap → Prop) [DecidablePred P] :
    Decidable (∃ properties, p.Provides files e properties ∧ P properties) :=
  decidable_of_iff (∃ properties ∈ (p.descriptorOf files e).toOption, P properties) (by
    simp only [Option.mem_def, toOption_eq_some_iff, descriptorOf_eq_ok_iff])

theorem Provides.exists_iff {properties : PropertyMap} (h : p.Provides files e properties)
    {P : PropertyMap → Prop} :
    (∃ others, p.Provides files e others ∧ P others) ↔ P properties := by
  constructor
  · rintro ⟨others, hothers, hP⟩
    rw [h.unique hothers]
    exact hP
  · intro hP
    exact ⟨properties, h, hP⟩

/-- The maps that are contributed are those that the extensions have. -/
theorem maps_of_contributes {es : List Extension} {maps : List Contribution}
    (h : List.Forall₂ (p.Contributes files) es maps) :
    maps = es.filterMap fun e =>
      (p.descriptorOf files e).toOption.map fun properties => (e.name, properties) := by
  refine eq_filterMap_of_beside h ?_
  rintro e ⟨name, properties⟩ ⟨rfl, hprovides⟩
  rw [toOption_eq_some_iff.2 (descriptorOf_eq_ok_iff.2 hprovides)]
  rfl

theorem exists_contributed_iff {es : List Extension} {maps : List Contribution}
    (h : List.Forall₂ (p.Contributes files) es maps) {P : PropertyMap → Prop} :
    (∃ d ∈ maps, P d.2) ↔ ∃ e ∈ es, ∃ properties, p.Provides files e properties ∧ P properties := by
  induction h with
  | nil => simp
  | @cons e d es maps hd _ ih =>
    simp only [List.mem_cons, exists_eq_or_imp, ih, hd.2.exists_iff]

/-- If all extensions have a map, all maps are collected. -/
theorem Collected.whole {es : List Extension} {maps : List Contribution}
    (h : p.Collected files es maps) (hall : ∀ e ∈ es, ∃ properties, p.Provides files e properties) :
    List.Forall₂ (p.Contributes files) es maps := by
  rcases h with ⟨taken, left, rfl, htaken, hleft⟩
  cases left with
  | nil =>
    rw [List.append_nil]
    exact htaken
  | cons e left =>
    obtain ⟨properties, hprovides⟩ := hall e (by simp)
    exact absurd hprovides (hleft e rfl properties)

end Extensions

/-- Merging stops at the first extension without a map, and what was merged before stays
collected. -/
theorem mergeAll_eq (p : Plan) (files : FileTree) (r : Replay Assembly) (es : List Extension) :
    failure? (p.mergeAll files r es).result = (es.map (p.shortcoming files)).findSome? id ∧
      ∃ maps, p.Collected files es maps ∧
        (p.mergeAll files r es).diagnostics = (mergedInTurn r maps).diagnostics ∧
        ∀ a, (p.mergeAll files r es).result = .ok a →
          (mergedInTurn r maps).result = a ∧ List.Forall₂ (p.Contributes files) es maps := by
  -- On the extensions, for every replay so far: what was collected before is carried along.
  induction es generalizing r with
  | nil =>
    refine ⟨rfl, [], ⟨[], [], rfl, List.Forall₂.nil, by simp⟩, rfl, ?_⟩
    intro a ha
    cases ha
    exact ⟨rfl, List.Forall₂.nil⟩
  | cons e es ih =>
    rw [mergeAll, List.map_cons, List.findSome?_cons, ← failure?_descriptorOf]
    cases he : p.descriptorOf files e with
    | error failure =>
      refine ⟨rfl, [], ⟨[], e :: es, rfl, List.Forall₂.nil, ?_⟩, rfl, ?_⟩
      · intro first hfirst properties hprovides
        cases hfirst
        rw [descriptorOf_eq_ok_iff.2 hprovides] at he
        cases he
      · intro a ha
        cases ha
    | ok properties =>
      have hcontributes : p.Contributes files e (e.name, properties) :=
        ⟨rfl, descriptorOf_eq_ok_iff.1 he⟩
      rcases ih (r.merge e.name properties) with ⟨ihfailure, maps, ihcollected, ihdiagnostics, ihok⟩
      rcases ihcollected with ⟨taken, left, rfl, htaken, hleft⟩
      refine ⟨ihfailure, (e.name, properties) :: maps,
        ⟨e :: taken, left, rfl, List.Forall₂.cons hcontributes htaken, hleft⟩, ihdiagnostics, ?_⟩
      intro a ha
      rcases ihok a ha with ⟨hresult, hmaps⟩
      exact ⟨hresult, List.Forall₂.cons hcontributes hmaps⟩

/-! ## The outcome -/

/-- All tokens of a plan name something, and all its extensions have a map. -/
def Sufficient (p : Plan) (files : FileTree) : Prop :=
  (∃ root, Artifact.parse p.application = .ok root) ∧
    (∀ token ∈ p.localProject, ∃ k, Key.parse token = .ok k) ∧
    (∀ list, ∀ e ∈ p.dependencies list, ∃ a, Artifact.parse e.artifact = .ok a) ∧
    ∀ e ∈ p.extensions, ∃ properties, p.Provides files e properties

/-- The dependency of an entry: the artifact of its token, with the scope or its default. -/
def StandsFor (e : Entry) (d : Dependency) : Prop :=
  Artifact.parse e.artifact = .ok d.artifact ∧
    d.scope = e.scope.getD "compile" ∧ d.direct = e.direct ∧
    d.isOptional = e.isOptional

/-- What a plan says, with the maps of its extensions, is what an assembly holds. -/
structure Replayed (p : Plan) (files : FileTree) (maps : List Contribution) (a : Assembly) :
    Prop where
  application : ∃ root, Artifact.parse p.application = .ok root ∧ a.application = some root
  properties : a.properties = p.properties
  localProject : ∃ keys, List.Forall₂ (fun token k => Key.parse token = .ok k) p.localProject keys ∧
    ∀ k, k ∈ a.localProject ↔ k ∈ keys
  dependencies : ∀ list, List.Forall₂ StandsFor (p.dependencies list) (a.dependencies list)
  extensions : List.Forall₂ (p.Contributes files) p.extensions maps
  classes : ∀ group k, group ≠ .localProject →
    (k ∈ a.keys group ↔ ∃ x ∈ maps, WellFormed x.2 ∧ Brings x.2 group k)

/-- The maps that are merged: none if some token names nothing, and otherwise those of the
extensions up to the first for which none is provided. -/
def Merged (p : Plan) (files : FileTree) (maps : List Contribution) : Prop :=
  (∃ x ∈ p.tokenOffences, x ≠ none) ∧ maps = [] ∨
    (∀ x ∈ p.tokenOffences, x = none) ∧ p.Collected files p.extensions maps

theorem offence_eq_none_iff {α : Type} {p : Plan} {entry : String} {outcome : Except Fault α} :
    p.offence entry outcome = none ↔ ∃ x, outcome = .ok x := by
  rw [offence, Option.map_eq_none_iff, failure?_eq_none_iff]

theorem offences_eq_none_iff {α β : Type} {p : Plan} {list : String} {read : α → Except Fault β}
    {index : Nat} {xs : List α} :
    (∀ x ∈ p.offences list read index xs, x = none) ↔ ∀ x ∈ xs, ∃ y, read x = .ok y := by
  induction xs generalizing index with
  | nil => simp [offences]
  | cons x xs ih =>
    rw [offences_cons, List.forall_mem_cons, List.forall_mem_cons, ih, offence_eq_none_iff]

/-- There is nothing to find exactly if the plan is sufficient. -/
theorem findings_eq_none_iff {p : Plan} {files : FileTree} :
    (∀ x ∈ p.findings files, x = none) ↔ p.Sufficient files := by
  have hlists : (∀ list, ∀ e ∈ p.dependencies list, ∃ a, Artifact.parse e.artifact = .ok a) ↔
      (∀ e ∈ p.runtime, ∃ a, Artifact.parse e.artifact = .ok a) ∧
        (∀ e ∈ p.deployment, ∃ a, Artifact.parse e.artifact = .ok a) ∧
        ∀ e ∈ p.fullDeployment, ∃ a, Artifact.parse e.artifact = .ok a := by
    constructor
    · intro h
      exact ⟨h .runtime, h .deployment, h .fullDeployment⟩
    · rintro ⟨hruntime, hdeployment, hfull⟩ list
      cases list with
      | runtime => exact hruntime
      | deployment => exact hdeployment
      | fullDeployment => exact hfull
  have htokens : (∀ x ∈ p.tokenOffences.map (Option.map fun fault => ⟨[], .fault fault⟩),
      x = (none : Option Failure)) ↔ ∀ x ∈ p.tokenOffences, x = none := by
    simp
  have hextensions : (∀ x ∈ p.extensions.map (p.shortcoming files), x = none) ↔
      ∀ e ∈ p.extensions, ∃ properties, p.Provides files e properties := by
    simp only [List.forall_mem_map, shortcoming_eq_none_iff]
  rw [findings, List.forall_mem_append, htokens, hextensions, Sufficient, hlists, tokenOffences]
  simp only [List.forall_mem_append, List.forall_mem_singleton, offence_eq_none_iff,
    offences_eq_none_iff, and_assoc]

/-- A replay is its foundation and then the extensions; the events are apart. -/
theorem replay_eq (p : Plan) (files : FileTree) (earlier : List Diagnostic) :
    (∀ fault, p.foundation = .error fault →
      (p.replay files earlier).result = .error (.ofFault fault) ∧
        (p.replay files earlier).diagnostics = earlier) ∧
    ∀ a, p.foundation = .ok a →
      (p.replay files earlier).result = (p.mergeAll files ⟨a, earlier, []⟩ p.extensions).result ∧
        (p.replay files earlier).diagnostics =
          (p.mergeAll files ⟨a, earlier, []⟩ p.extensions).diagnostics := by
  constructor
  · intro fault hfault
    rw [replay, hfault]
    exact ⟨rfl, rfl⟩
  · intro a ha
    rw [replay, ha]
    dsimp only
    split <;> exact ⟨rfl, rfl⟩

/-- A replay fails as the first entry that causes a failure. -/
theorem failure?_replay (p : Plan) (files : FileTree) (earlier : List Diagnostic) :
    failure? (p.replay files earlier).result = (p.findings files).findSome? id := by
  rw [findings, List.findSome?_append, findSome?_map_map, ← p.failure?_foundation]
  rcases p.replay_eq files earlier with ⟨herror, hok⟩
  cases hp : p.foundation with
  | error fault =>
    rw [(herror fault hp).1]
    rfl
  | ok a =>
    rw [(hok a hp).1]
    exact (p.mergeAll_eq files ⟨a, earlier, []⟩ p.extensions).1

/-- The parts of a foundation. -/
theorem foundation_eq_ok {p : Plan} {a : Assembly} (h : p.foundation = .ok a) :
    ∃ root keys runtime deployment fullDeployment,
      Artifact.parse p.application = .ok root ∧
        List.Forall₂ (fun token k => Key.parse token = .ok k) p.localProject keys ∧
        List.Forall₂ (fun e d => Entry.dependency e = .ok d) p.runtime runtime ∧
        List.Forall₂ (fun e d => Entry.dependency e = .ok d) p.deployment deployment ∧
        List.Forall₂ (fun e d => Entry.dependency e = .ok d) p.fullDeployment fullDeployment ∧
        p.founded root keys runtime deployment fullDeployment = a := by
  rw [foundation_eq] at h
  obtain ⟨root, hroot, h⟩ := bind_eq_ok.1 h
  obtain ⟨keys, hkeys, h⟩ := bind_eq_ok.1 h
  obtain ⟨runtime, hruntime, h⟩ := bind_eq_ok.1 h
  obtain ⟨deployment, hdeployment, h⟩ := bind_eq_ok.1 h
  obtain ⟨fullDeployment, hfull, rfl⟩ := map_eq_ok.1 h
  exact ⟨root, keys, runtime, deployment, fullDeployment, mapError_eq_ok.1 hroot,
    readEntries_eq_ok hkeys, readEntries_eq_ok hruntime, readEntries_eq_ok hdeployment,
    readEntries_eq_ok hfull, rfl⟩

theorem dependency_eq_ok_iff {e : Entry} {d : Dependency} :
    e.dependency = .ok d ↔ StandsFor e d := by
  rw [Entry.dependency, map_eq_ok]
  constructor
  · rintro ⟨a, ha, rfl⟩
    exact ⟨ha, rfl, rfl, rfl⟩
  · rintro ⟨hartifact, hscope, hdirect, hoptional⟩
    refine ⟨d.artifact, hartifact, ?_⟩
    cases d
    cases hscope
    cases hdirect
    cases hoptional
    rfl

/-- Merging adds to the foundation what it would add to an empty assembly. -/
theorem replayed_founded {p : Plan} {files : FileTree} {a : Assembly} (h : p.foundation = .ok a)
    {maps : List Contribution} (hmaps : List.Forall₂ (p.Contributes files) p.extensions maps) :
    p.Replayed files maps (a.run (merges maps)).1 := by
  rcases foundation_eq_ok h with
    ⟨root, keys, runtime, deployment, full, hroot, hkeys, hruntime, hdeployment, hfull, rfl⟩
  rcases Assembly.sameBesidesClasses_run (p.founded root keys runtime deployment full) maps with
    ⟨happlication, hlists, hlocal, hproperties⟩
  constructor
  · exact ⟨root, hroot, happlication⟩
  · rw [hproperties]
    exact OrderedMap.ofList_entries p.properties
  · refine ⟨keys, hkeys, fun k => ?_⟩
    rw [hlocal]
    exact OrderedSet.mem_ofList
  · intro list
    rw [hlists]
    cases list with
    | runtime => exact hruntime.imp fun _ _ => dependency_eq_ok_iff.1
    | deployment => exact hdeployment.imp fun _ _ => dependency_eq_ok_iff.1
    | fullDeployment => exact hfull.imp fun _ _ => dependency_eq_ok_iff.1
  · exact hmaps
  -- only merging adds to the sets of the classes
  · intro group k hgroup
    have hnone : k ∉ (p.founded root keys runtime deployment full).keys group := by
      cases group with
      | localProject => exact absurd rfl hgroup
      | _ => exact OrderedSet.not_mem_empty
    rw [Assembly.mem_keys_run_merges]
    exact or_iff_right hnone

/-- The sets of the classes, told from the extensions. -/
theorem Replayed.mem_keys_iff {p : Plan} {files : FileTree} {maps : List Contribution}
    {a : Assembly} (h : p.Replayed files maps a) (group : KeyGroup) (hgroup : group ≠ .localProject)
    {k : Key} :
    k ∈ a.keys group ↔ ∃ e ∈ p.extensions, ∃ properties, p.Provides files e properties ∧
      (WellFormed properties ∧ Brings properties group k) := by
  rw [h.classes group k hgroup]
  exact exists_contributed_iff h.extensions
    (P := fun properties => WellFormed properties ∧ Brings properties group k)

/-- What comes from tokens is sound. -/
theorem Replayed.sound {p : Plan} {files : FileTree} {maps : List Contribution} {a : Assembly}
    (h : p.Replayed files maps a) : a.Sound := by
  have hclass {group : KeyGroup} (hgroup : group ≠ .localProject) :
      ∀ k ∈ a.keys group, k.Complete := by
    intro k hk
    obtain ⟨x, -, -, hbrings⟩ := (h.classes group k hgroup).1 hk
    exact hbrings.complete
  constructor
  · intro artifact hartifact
    obtain ⟨root, hroot, happlication⟩ := h.application
    cases happlication.symm.trans hartifact
    exact Artifact.resolved_of_parse hroot
  · intro list
    exact forall_of_beside (h.dependencies list) fun _ _ he => Artifact.resolved_of_parse he.1
  · intro group
    cases group with
    | localProject =>
      obtain ⟨keys, hkeys, hlocal⟩ := h.localProject
      intro k hk
      have hmem : k ∈ keys := (hlocal k).1 hk
      exact forall_of_beside hkeys (fun _ _ => Key.complete_of_parse) k hmem
    | parentFirst => exact hclass (by decide)
    | runnerParentFirst => exact hclass (by decide)
    | excluded => exact hclass (by decide)
    | lesserPriority => exact hclass (by decide)

theorem tokenOffences_eq_none_iff {p : Plan} :
    (∀ x ∈ p.tokenOffences, x = none) ↔ ∃ a, p.foundation = .ok a := by
  rw [← failure?_eq_none_iff, p.failure?_foundation, List.findSome?_eq_none_iff]
  exact Iff.rfl

/-- What a replay that succeeds leads to. -/
theorem replayed_of_replay {p : Plan} {files : FileTree} {earlier : List Diagnostic}
    {a : Assembly} (h : (p.replay files earlier).result = .ok a) :
    ∃ maps, p.Replayed files maps a := by
  rcases p.replay_eq files earlier with ⟨herror, hok⟩
  cases hp : p.foundation with
  | error fault =>
    rw [(herror fault hp).1] at h
    cases h
  | ok base =>
    rw [(hok base hp).1] at h
    rcases p.mergeAll_eq files ⟨base, earlier, []⟩ p.extensions with ⟨-, maps, -, -, hmerged⟩
    rcases hmerged a h with ⟨hresult, hmaps⟩
    rw [(Assembly.mergedInTurn_eq_run _ _).1] at hresult
    subst hresult
    exact ⟨maps, replayed_founded hp hmaps⟩

/-- A replay collects what merging reports, and merges nothing if some token names nothing. -/
theorem diagnostics_replay (p : Plan) (files : FileTree) (earlier : List Diagnostic) :
    ∃ maps reports, p.Merged files maps ∧
      (p.replay files earlier).diagnostics = earlier ++ reports ∧
      List.Forall₂ Reports (maps.filter fun x => ¬ WellFormed x.2) reports := by
  rcases p.replay_eq files earlier with ⟨herror, hok⟩
  cases hp : p.foundation with
  | error fault =>
    refine ⟨[], [], Or.inl ⟨?_, rfl⟩, ?_, List.Forall₂.nil⟩
    · by_contra hnone
      have hall : ∀ x ∈ p.tokenOffences, x = none := by
        intro x hx
        by_contra hne
        exact hnone ⟨x, hx, hne⟩
      obtain ⟨a, ha⟩ := tokenOffences_eq_none_iff.1 hall
      rw [hp] at ha
      cases ha
    · rw [(herror fault hp).2, List.append_nil]
  | ok base =>
    rcases p.mergeAll_eq files ⟨base, earlier, []⟩ p.extensions with
      ⟨-, maps, hcollected, hdiagnostics, -⟩
    refine ⟨maps, Assembly.Answer.diagnostics (base.run (merges maps)).2, ?_, ?_, ?_⟩
    · exact Or.inr ⟨tokenOffences_eq_none_iff.2 ⟨base, hp⟩, hcollected⟩
    · rw [(hok base hp).2, hdiagnostics]
      exact (Assembly.mergedInTurn_eq_run _ _).2
    · exact Assembly.reports_of_judged (Assembly.judged_run base maps)

/-- A plan is the replay of its entries, whatever the files and the diagnostics collected before:

1. it succeeds exactly if all tokens name something and all extensions have one map;
2. then the assembly holds what the plan says, and it can be frozen;
3. otherwise the failure is that of the first entry that causes one;
4. the collector has gained one report for each rejected extension among those merged. -/
theorem replay_outcome (p : Plan) (files : FileTree) (earlier : List Diagnostic) :
    ((∃ a, (p.replay files earlier).result = .ok a) ↔ p.Sufficient files) ∧
      (∀ a, (p.replay files earlier).result = .ok a →
        (∃ maps, p.Replayed files maps a) ∧ ∃ m, a.freeze = .ok m) ∧
      (∀ failure, (p.replay files earlier).result = .error failure ↔
        ∃ before after, p.findings files = before ++ some failure :: after ∧
          ∀ x ∈ before, x = none) ∧
      ∃ maps reports, p.Merged files maps ∧
        (p.replay files earlier).diagnostics = earlier ++ reports ∧
        List.Forall₂ Reports (maps.filter fun x => ¬ WellFormed x.2) reports := by
  have hfailure := p.failure?_replay files earlier
  refine ⟨?_, ?_, ?_, p.diagnostics_replay files earlier⟩
  · rw [← failure?_eq_none_iff, hfailure, ← findings_eq_none_iff, List.findSome?_eq_none_iff]
    exact Iff.rfl
  · intro a ha
    rcases replayed_of_replay ha with ⟨maps, hmaps⟩
    rcases hmaps.application with ⟨root, _, happlication⟩
    exact ⟨⟨maps, hmaps⟩, Assembly.exists_freeze (by simp [happlication])⟩
  -- The first failure among the findings is the one after findings without any.
  · intro failure
    rw [← failure?_eq_some_iff, hfailure, List.findSome?_eq_some_iff]
    constructor
    · rintro ⟨before, x, after, hlist, hx, hbefore⟩
      cases hx
      exact ⟨before, after, hlist, hbefore⟩
    · rintro ⟨before, after, hlist, hbefore⟩
      exact ⟨before, some failure, after, hlist, rfl, hbefore⟩

/-- A plan with two extensions: one points to a descriptor file, and the other has a bad token. -/
def filedPlan : Plan where
  application := "g:app:1"
  localProject := ["g:own"]
  properties := .ofList [("k", "v")]
  runtime := [⟨"g:a:1", none, true, false⟩, ⟨"g:b:x:zip:2", some "test", false, true⟩]
  deployment := []
  fullDeployment := []
  extensions :=
    [⟨"one", none, some "d"⟩,
     ⟨"two", some (.ofList [("parent-first-artifacts", "g:p, h")]), none⟩]
  source := "plan"
  base := "lib"

/-- The plan with a token behind others that names no artifact. -/
def flawedPlan : Plan :=
  { filedPlan with deployment := filedPlan.runtime ++ [⟨":c:1", none, true, false⟩] }

/-- The descriptor file of the plan, in which the list goes on over two lines. -/
def filedTree : FileTree :=
  (FileTree.empty []).plant ["lib", "d"] (.file "excluded-artifacts = g:a,\\\n  g:c\n".toUTF8)

theorem replay_outcome_filed :
    (∃ a, (filedPlan.replay filedTree []).result = .ok a ∧ (∃ m, a.freeze = .ok m) ∧
      a.application = some ⟨.plain "g" "app", "1"⟩ ∧
      a.runtime = [⟨⟨.plain "g" "a", "1"⟩, "compile", true, false⟩,
        ⟨⟨⟨"g", "b", "x", "zip"⟩, "2"⟩, "test", false, true⟩] ∧
      .plain "g" "a" ∈ a.excluded ∧ .plain "g" "c" ∈ a.excluded ∧ .plain "g" "p" ∉ a.parentFirst) ∧
      (filedPlan.replay filedTree []).diagnostics =
        [⟨"two", "parent-first-artifacts", "h", .malformedToken "h" "artifact name is empty"⟩] ∧
      (filedPlan.replay (.empty []) []).result = .error
        ⟨["Cannot load descriptor of extension 'one'",
          "Failed to read extension descriptor: lib/d"],
          .system .notFound "No such file or directory (os error 2)"⟩ ∧
      (flawedPlan.replay (.empty []) []).result = .error ⟨[], .fault (.invalidPlan "plan"
        "deployment_deps[2]: Malformed artifact descriptor ':c:1': artifact group is empty")⟩ := by
  obtain ⟨hsucceeds, hholds, -, maps, reports, hmerged, hdiagnostics, hreports⟩ :=
    replay_outcome filedPlan filedTree []
  have hsufficient : filedPlan.Sufficient filedTree := findings_eq_none_iff.1 (by decide +kernel)
  refine ⟨?_, ?_, ?_, ?_⟩
  · obtain ⟨a, ha⟩ := hsucceeds.2 hsufficient
    obtain ⟨⟨maps, hreplayed⟩, hfreeze⟩ := hholds a ha
    have hruntime : a.runtime =
        filedPlan.runtime.filterMap fun e => (Entry.dependency e).toOption := by
      refine eq_filterMap_of_beside (hreplayed.dependencies .runtime) fun e d hd => ?_
      exact toOption_eq_some_iff.2 (dependency_eq_ok_iff.2 hd)
    refine ⟨a, ha, hfreeze, ?_, ?_, ?_, ?_, ?_⟩
    · obtain ⟨root, hroot, happlication⟩ := hreplayed.application
      have hparse : Artifact.parse filedPlan.application = .ok ⟨.plain "g" "app", "1"⟩ := by
        decide +kernel
      rw [happlication, ← Except.ok.inj (hparse.symm.trans hroot)]
    · rw [hruntime]
      decide +kernel
    · exact (hreplayed.mem_keys_iff .excluded (by decide)).2 (by decide +kernel)
    · exact (hreplayed.mem_keys_iff .excluded (by decide)).2 (by decide +kernel)
    · exact mt (hreplayed.mem_keys_iff .parentFirst (by decide)).1 (by decide +kernel)
  · have hcollected : filedPlan.Collected filedTree filedPlan.extensions maps := by
      rcases hmerged with ⟨⟨x, hx, hne⟩, -⟩ | ⟨-, hcollected⟩
      · have hnone : ∀ x ∈ filedPlan.tokenOffences, x = none := by decide +kernel
        exact absurd (hnone x hx) hne
      · exact hcollected
    have hrejected : maps.filter (fun x => ¬ WellFormed x.2) =
        [("two", .ofList [("parent-first-artifacts", "g:p, h")])] := by
      rw [maps_of_contributes (hcollected.whole hsufficient.2.2.2)]
      decide +kernel
    have hbad : Descriptor.assignments (.ofList [("parent-first-artifacts", "g:p, h")]) =
        .error ⟨"parent-first-artifacts", "h",
          .malformedToken "h" "artifact name is empty"⟩ := by decide +kernel
    rw [hrejected] at hreports
    rw [hdiagnostics, Assembly.eq_of_reports hreports hbad]
    rfl
  · refine ((replay_outcome filedPlan (.empty []) []).2.2.1 _).2 ?_
    exact ⟨(filedPlan.findings (.empty [])).take 4, (filedPlan.findings (.empty [])).drop 5,
      by decide +kernel, by decide +kernel⟩
  · refine ((replay_outcome flawedPlan (.empty []) []).2.2.1 _).2 ?_
    exact ⟨(flawedPlan.findings (.empty [])).take 6, (flawedPlan.findings (.empty [])).drop 7,
      by decide +kernel, by decide +kernel⟩

end Classpath.Plan
