import Classpath.Proofs.Assembly.Runs

namespace Classpath

/-! # Batches

A call that names the application or adds to a list or a set brings a batch, if only of one element.

1. **Complaints**: what a check says about an element, whatever the element was given for.
2. **Parts**: an assembly has ten parts, and a batch is meant for one of them.
3. **Calls**: a batch with no complaint arrives as a whole and as its elements would one by one;
   otherwise the first complaint is the answer and nothing arrives. -/

/-! ## Complaints -/

/-- What the check of a key says against it. -/
def Key.complaint? (k : Key) : Option String :=
  k.defect?.map (Defect.message k)

/-- What the check of an artifact says against it: its key is looked at first. -/
def Artifact.complaint? (a : Artifact) : Option String :=
  a.key.complaint?.or
    (if a.version = "" then some s!"artifact '{a.key.token}' has no version" else none)

theorem Key.complaint?_eq_none_iff {k : Key} : k.complaint? = none ↔ k.Complete := by
  rw [complaint?, Option.map_eq_none_iff, defect?_eq_none_iff]

theorem Artifact.complaint?_eq_none_iff {a : Artifact} : a.complaint? = none ↔ a.Resolved := by
  rw [complaint?, Option.or_eq_none_iff, Key.complaint?_eq_none_iff, Resolved]
  by_cases hversion : a.version = ""
  · simp [hversion]
  · simp [hversion]

namespace Assembly

/-- The outcome of a check that has this to say. -/
def verdict (argument : String) : Option String → Except Fault Unit
  | none => .ok ()
  | some reason => .error (.invalidArgument argument reason)

theorem check_key_eq (argument : String) (k : Key) :
    k.check argument = verdict argument k.complaint? := by
  rw [Key.check, Key.complaint?]
  cases k.defect? with
  | none => rfl
  | some defect => rfl

theorem check_artifact_eq (argument : String) (a : Artifact) :
    a.check argument = verdict argument a.complaint? := by
  rw [Artifact.check, Artifact.complaint?, check_key_eq]
  cases a.key.complaint? with
  | some reason => rfl
  | none =>
    by_cases hversion : a.version = ""
    · simp [hversion, verdict]
    · simp [hversion, verdict]

/-- A list is refused for the first complaint about one of its elements. -/
theorem checkAll_eq_verdict {α : Type} {test : α → Except Fault Unit} {argument : String}
    {complaint? : α → Option String} (h : ∀ x, test x = verdict argument (complaint? x))
    (xs : List α) : checkAll test xs = verdict argument ((xs.map complaint?).findSome? id) := by
  induction xs with
  | nil => rfl
  | cons x xs ih =>
    rw [checkAll, h x, ih, List.map_cons, List.findSome?_cons]
    cases complaint? x with
    | none => rfl
    | some reason => rfl

/-! ## Parts -/

/-- The parts of an assembly: the application, three lists, five sets and the properties. -/
inductive Part where
  | application
  | dependencies (list : DependencyList)
  | keys (group : KeyGroup)
  | properties
deriving Repr, DecidableEq

/-- Two assemblies have the same in a part. -/
def SameAt (a b : Assembly) : Part → Prop
  | .application => a.application = b.application
  | .dependencies list => a.dependencies list = b.dependencies list
  | .keys group => a.keys group = b.keys group
  | .properties => a.properties = b.properties

/-- What a call brings. -/
inductive Batch where
  | application (artifact : Artifact)
  | dependencies (list : DependencyList) (deps : List Dependency)
  | keys (group : KeyGroup) (values : List Key)
deriving Repr, DecidableEq

/-- The batch of a call. Properties are not checked, and a descriptor is no batch. -/
def Call.batch? : Call → Option Batch
  | .setApplication artifact => some (.application artifact)
  | .addDependency list dep => some (.dependencies list [dep])
  | .addDependencies list deps => some (.dependencies list deps)
  | .addKey group key => some (.keys group [key])
  | .addKeys group values => some (.keys group values)
  | .addProperties _ => none
  | .merge _ _ => none

namespace Batch

/-- The part that the batch is meant for. -/
def target : Batch → Part
  | .application _ => .application
  | .dependencies list _ => .dependencies list
  | .keys group _ => .keys group

/-- What faults call an element of the batch. -/
def argument : Batch → String
  | .application _ => "application artifact"
  | .dependencies .runtime _ => "runtime dependency"
  | .dependencies .deployment _ => "deployment dependency"
  | .dependencies .fullDeployment _ => "full deployment dependency"
  | .keys .parentFirst _ => "parent-first artifact"
  | .keys .runnerParentFirst _ => "runner parent-first artifact"
  | .keys .excluded _ => "excluded artifact"
  | .keys .lesserPriority _ => "lesser-priority artifact"
  | .keys .localProject _ => "local project artifact"

theorem argument_dependencies (list : DependencyList) (deps : List Dependency) :
    argument (.dependencies list deps) = list.argument := by
  cases list <;> rfl

theorem argument_keys (group : KeyGroup) (values : List Key) :
    argument (.keys group values) = group.argument := by
  cases group <;> rfl

/-- What there is to say against each element, in the order of the batch. -/
def complaints : Batch → List (Option String)
  | .application artifact => [artifact.complaint?]
  | .dependencies _ deps => deps.map fun d => d.artifact.complaint?
  | .keys _ values => values.map Key.complaint?

/-- The calls that bring the elements one by one. -/
def singles : Batch → List Call
  | .application artifact => [.setApplication artifact]
  | .dependencies list deps => deps.map (.addDependency list)
  | .keys group values => values.map (.addKey group)

/-- The part that the batch is meant for has what it had in `a`, and the batch: a new application
takes the place of the old one, a list goes on with the batch, and a set is united with it. -/
def Arrived (a b : Assembly) : Batch → Prop
  | .application artifact => b.application = some artifact
  | .dependencies list deps => b.dependencies list = a.dependencies list ++ deps
  | .keys group values => ∀ k, k ∈ b.keys group ↔ k ∈ a.keys group ∨ k ∈ values

/-- The assembly with the batch in it. -/
def addTo (a : Assembly) : Batch → Assembly
  | .application artifact => { a with application := some artifact }
  | .dependencies list deps => a.append list deps
  | .keys group values => a.insertKeys group values

theorem arrived_addTo (a : Assembly) (batch : Batch) : batch.Arrived a (batch.addTo a) := by
  cases batch with
  | application artifact => rfl
  | dependencies list deps => simp [Arrived, addTo]
  | keys group values => simp [Arrived, addTo]

/-- A batch leaves all parts alone but the one that it is meant for. -/
theorem sameAt_addTo (a : Assembly) (batch : Batch) {part : Part} (h : part ≠ batch.target) :
    SameAt a (batch.addTo a) part := by
  cases batch with
  | application artifact =>
    cases part with
    | application => exact absurd rfl h
    | _ => rfl
  | dependencies list deps =>
    cases part with
    | dependencies other =>
      have hother : list ≠ other := fun hlist => h (by rw [target, hlist])
      simp [SameAt, addTo, hother]
    | _ => simp [SameAt, addTo]
  | keys group values =>
    cases part with
    | keys other =>
      have hother : group ≠ other := fun hgroup => h (by rw [target, hgroup])
      simp [SameAt, addTo, hother]
    | _ => simp [SameAt, addTo]

end Batch

/-! ## Calls -/

theorem settle_verdict (a next : Assembly) (argument : String) (complaint : Option String) :
    a.settle ((verdict argument complaint).map fun _ => next) =
      match complaint with
      | none => (next, .done)
      | some reason => (a, .refused (.invalidArgument argument reason)) := by
  cases complaint with
  | none => rfl
  | some reason => rfl

/-- What a call does to an assembly is decided by the first complaint about its batch. -/
theorem apply_batch {call : Call} {batch : Batch} (h : call.batch? = some batch) (a : Assembly) :
    a.apply call =
      match batch.complaints.findSome? id with
      | none => (batch.addTo a, .done)
      | some reason => (a, .refused (.invalidArgument batch.argument reason)) := by
  have hdependencies (list : DependencyList) (deps : List Dependency) :
      a.addDependencies list deps =
        (verdict list.argument ((deps.map fun d => d.artifact.complaint?).findSome? id)).map
          fun _ => a.append list deps := by
    rw [addDependencies,
      checkAll_eq_verdict fun d : Dependency => check_artifact_eq list.argument d.artifact]
  have hkeys (group : KeyGroup) (values : List Key) :
      a.addKeys group values =
        (verdict group.argument ((values.map Key.complaint?).findSome? id)).map
          fun _ => a.insertKeys group values := by
    rw [addKeys, checkAll_eq_verdict (check_key_eq group.argument)]
  cases call with
  | setApplication artifact =>
    cases h
    rw [apply, setApplication, check_artifact_eq, settle_verdict]
    cases hcomplaint : artifact.complaint? with
    | none => simp [Batch.complaints, hcomplaint, Batch.addTo]
    | some reason => simp [Batch.complaints, hcomplaint, Batch.argument]
  | addProperties entries => cases h
  | addDependency list dep =>
    cases h
    rw [apply, addDependency, hdependencies, settle_verdict, Batch.argument_dependencies]
    rfl
  | addDependencies list deps =>
    cases h
    rw [apply, hdependencies, settle_verdict, Batch.argument_dependencies]
    rfl
  | addKey group key =>
    cases h
    rw [apply, addKey, hkeys, settle_verdict, Batch.argument_keys]
    rfl
  | addKeys group values =>
    cases h
    rw [apply, hkeys, settle_verdict, Batch.argument_keys]
    rfl
  | merge source properties => cases h

/-- There is nothing to say against the elements of an acceptable call. -/
theorem acceptable_iff {call : Call} {batch : Batch} (h : call.batch? = some batch) :
    call.Acceptable ↔ batch.complaints.findSome? id = none := by
  have hartifact (x : Artifact) : x.complaint? = none ↔ x.Resolved :=
    Artifact.complaint?_eq_none_iff
  have hkey (k : Key) : k.complaint? = none ↔ k.Complete := Key.complaint?_eq_none_iff
  cases call with
  | addProperties entries => cases h
  | merge source properties => cases h
  | _ =>
    cases h
    simp [Call.Acceptable, Batch.complaints, hartifact, hkey]

/-- One by one, elements that are acceptable do what they do together. -/
theorem run_singles {α : Type} (single : α → Call) (add : Assembly → List α → Assembly)
    (hnil : ∀ a, add a [] = a) (hcons : ∀ a x xs, add (add a [x]) xs = add a (x :: xs))
    {xs : List α} (hxs : ∀ x ∈ xs, ∀ a : Assembly, a.apply (single x) = (add a [x], .done))
    (a : Assembly) : a.run (xs.map single) = (add a xs, (xs.map single).map fun _ => .done) := by
  induction xs generalizing a with
  | nil => rw [hnil]; rfl
  | cons x xs ih =>
    have hfirst := hxs x List.mem_cons_self a
    have hrest := ih (fun y hy => hxs y (List.mem_cons_of_mem x hy)) (add a [x])
    rw [List.map_cons, run_cons, hfirst, hrest, hcons, List.map_cons]

theorem run_singles_batch {batch : Batch} (h : batch.complaints.findSome? id = none)
    (a : Assembly) :
    a.run batch.singles = (batch.addTo a, batch.singles.map fun _ => .done) := by
  have hnone : ∀ complaint ∈ batch.complaints, complaint = none := by
    simpa using List.findSome?_eq_none_iff.1 h
  cases batch with
  | application artifact =>
    have hfirst : a.apply (.setApplication artifact) =
        (Batch.addTo a (.application artifact), .done) := by
      rw [apply_batch rfl, h]
    rw [Batch.singles, run_cons, hfirst]
    rfl
  | dependencies list deps =>
    refine run_singles (.addDependency list) (fun a deps => a.append list deps) (fun a => ?_)
      (fun a d ds => ?_) (fun d hd a => ?_) a
    · cases list <;> simp [append]
    · cases list <;> simp [append]
    · have hd := hnone _ (List.mem_map_of_mem hd)
      rw [apply_batch rfl]
      simp [Batch.complaints, hd, Batch.addTo]
  | keys group values =>
    refine run_singles (.addKey group) (fun a values => a.insertKeys group values) (fun a => ?_)
      (fun a k ks => ?_) (fun k hk a => ?_) a
    · cases group <;> rfl
    · cases group <;> rfl
    · have hk := hnone _ (List.mem_map_of_mem hk)
      rw [apply_batch rfl]
      simp [Batch.complaints, hk, Batch.addTo]

/-- A call that brings a batch takes effect as a whole, and in one part only, or not at all. If all
elements are acceptable, the batch arrives where it is meant for, all other parts are as before, and
the elements would have done the same one by one. If not, the assembly is as before, and the answer
is the first complaint about an element, under the name of what the call was given. -/
theorem apply_whole {call : Call} {batch : Batch} (h : call.batch? = some batch) (a : Assembly) :
    (call.Acceptable →
        (a.apply call).2 = .done ∧ batch.Arrived a (a.apply call).1 ∧
          (∀ part, part ≠ batch.target → SameAt a (a.apply call).1 part) ∧
          a.run batch.singles = ((a.apply call).1, batch.singles.map fun _ => .done)) ∧
      (¬ call.Acceptable →
        ∃ reason, batch.complaints.findSome? id = some reason ∧
          a.apply call = (a, .refused (.invalidArgument batch.argument reason))) := by
  constructor
  · intro hcall
    have hnone := (acceptable_iff h).1 hcall
    have happly : a.apply call = (batch.addTo a, .done) := by
      rw [apply_batch h, hnone]
    rw [happly]
    exact ⟨rfl, batch.arrived_addTo a, fun part hpart => batch.sameAt_addTo a hpart,
      run_singles_batch hnone a⟩
  · intro hcall
    obtain ⟨reason, hreason⟩ := Option.ne_none_iff_exists'.1 (mt (acceptable_iff h).2 hcall)
    refine ⟨reason, hreason, ?_⟩
    rw [apply_batch h, hreason]

/-- A dependency without a version and one without a group, behind one without a flaw. -/
def flawedDependencies : List Dependency :=
  [.ofArtifact ⟨.plain "g" "a", "1"⟩, .ofArtifact ⟨.plain "g" "b", ""⟩,
   .ofArtifact ⟨.plain "" "c", "1"⟩]

/-- A batch with two flaws, and one of keys of which the set has one already. -/
theorem apply_whole_flawed :
    (Call.addDependencies .deployment flawedDependencies).batch? =
        some (.dependencies .deployment flawedDependencies) ∧
      ¬ (Call.addDependencies .deployment flawedDependencies).Acceptable ∧
      empty.apply (.addDependencies .deployment flawedDependencies) =
        (empty, .refused
          (.invalidArgument "deployment dependency" "artifact 'g:b' has no version")) ∧
      (Call.addKeys .excluded [.plain "g" "b", .plain "g" "a"]).Acceptable ∧
      (∀ k, k ∈ ((empty.insertKeys .excluded [.plain "g" "b"]).apply
          (.addKeys .excluded [.plain "g" "b", .plain "g" "a"])).1.excluded ↔
        k = .plain "g" "b" ∨ k = .plain "g" "a") ∧
      ((empty.insertKeys .excluded [.plain "g" "b"]).apply
          (.addKeys .excluded [.plain "g" "b", .plain "g" "a"])).1 =
        ((empty.insertKeys .excluded [.plain "g" "b"]).run
          [.addKey .excluded (.plain "g" "b"), .addKey .excluded (.plain "g" "a")]).1 := by
  have hflawed : ¬ (Call.addDependencies .deployment flawedDependencies).Acceptable := by
    intro h
    exact absurd (h (.ofArtifact ⟨.plain "g" "b", ""⟩) (by decide)) (by decide)
  have hkeys : (Call.addKeys .excluded [.plain "g" "b", .plain "g" "a"]).Acceptable := by
    intro k hk
    simp only [List.mem_cons, List.not_mem_nil, or_false] at hk
    rcases hk with rfl | rfl
    · decide
    · decide
  obtain ⟨reason, hreason, hrefused⟩ := (apply_whole rfl empty).2 hflawed
  have hversion : reason = "artifact 'g:b' has no version" := by
    refine Option.some.inj (hreason.symm.trans ?_)
    decide
  obtain ⟨-, harrived, -, hsingles⟩ :=
    (apply_whole rfl (empty.insertKeys .excluded [.plain "g" "b"])).1 hkeys
  refine ⟨rfl, hflawed, ?_, hkeys, fun k => ?_, ?_⟩
  · rw [hrefused, hversion]
    rfl
  · have hold : k ∈ (empty.insertKeys .excluded [.plain "g" "b"]).keys .excluded ↔
        k = .plain "g" "b" := by
      simp only [keys_insertKeys, OrderedSet.mem_insertAll, if_true, List.mem_singleton]
      exact or_iff_right OrderedSet.not_mem_empty
    refine (harrived k).trans ?_
    rw [hold]
    simp
  · exact (congrArg Prod.fst hsingles).symm

end Assembly

end Classpath
