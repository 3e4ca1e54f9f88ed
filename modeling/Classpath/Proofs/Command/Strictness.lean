import Classpath.Command.Run
import Classpath.Proofs.Plan.Deployment

namespace Classpath

/-! # What commands change

Nothing is changed but by saving a model, and a model is saved only after all that can go wrong
before. A strict run differs from one that is not in that it fails where descriptors were rejected.

1. **Misspelt extensions**: the diagnostics of a replay are about them, one for each in their order.
2. **Failures**: reading, replaying and saving never fail in the way in which a strict run does.
3. **Courses**: how a run that assembles goes, in each of the four cases. -/

open Descriptor (WellFormed)

/-! ## Misspelt extensions -/

namespace Plan

/-- The extensions whose descriptor has a token that names no key, in their order. -/
def misspelt (p : Plan) (files : FileTree) : List Extension :=
  p.extensions.filter fun e => ∃ properties, p.Provides files e properties ∧ ¬ WellFormed properties

variable {p : Plan} {files : FileTree}

theorem sources_merge (r : Replay Assembly) (name : String) (properties : PropertyMap) :
    (r.merge name properties).diagnostics.map Diagnostic.source =
      r.diagnostics.map Diagnostic.source ++ if WellFormed properties then [] else [name] := by
  by_cases h : WellFormed properties
  · have hassignments := Descriptor.assignments_eq_ok_iff.2 ⟨h, rfl⟩
    simp [Replay.merge, Assembly.merge, hassignments, h]
  · obtain ⟨rejection, hassignments, -⟩ := Descriptor.blames_of_not_wellFormed h
    simp [Replay.merge, Assembly.merge, hassignments, h, Diagnostic.ofRejection]

/-- Merging to the end collects one diagnostic for each extension that is misspelt. -/
theorem sources_mergeAll {r : Replay Assembly} {es : List Extension} {a : Assembly}
    (h : (p.mergeAll files r es).result = .ok a) :
    (p.mergeAll files r es).diagnostics.map Diagnostic.source =
      r.diagnostics.map Diagnostic.source ++
        (es.filter fun e =>
          ∃ properties, p.Provides files e properties ∧ ¬ WellFormed properties).map
            Extension.name := by
  -- On the extensions, for every replay so far: its diagnostics stand before all later ones.
  induction es generalizing r with
  | nil => simp [mergeAll]
  | cons e es ih =>
    rw [mergeAll] at h ⊢
    cases he : p.descriptorOf files e with
    | error failure =>
      rw [he] at h
      exact absurd h (by simp [Replay.failed])
    | ok properties =>
      rw [he] at h
      have hprovides := descriptorOf_eq_ok_iff.1 he
      dsimp only at h ⊢
      rw [ih h, sources_merge, List.filter_cons]
      simp only [hprovides.exists_iff]
      by_cases hformed : WellFormed properties
      · simp [hformed]
      · simp [hformed]

theorem sources_replay {a : Assembly} (h : (p.replay files []).result = .ok a) :
    (p.replay files []).diagnostics.map Diagnostic.source =
      (p.misspelt files).map Extension.name := by
  obtain ⟨herror, hok⟩ := p.replay_eq files []
  cases hfoundation : p.foundation with
  | error fault =>
    rw [(herror fault hfoundation).1] at h
    cases h
  | ok base =>
    obtain ⟨hresult, hdiagnostics⟩ := hok base hfoundation
    rw [hresult] at h
    rw [hdiagnostics, sources_mergeAll h]
    rfl

/-- What comes from tokens can always be frozen, so assembling goes as far as the replay. -/
theorem assemble_cases (p : Plan) (files : FileTree) :
    (∃ failure, (p.replay files []).result = .error failure ∧
        (p.assemble files).result = .error failure) ∨
      ∃ a m, (p.replay files []).result = .ok a ∧ (p.assemble files).result = .ok m ∧
        (p.assemble files).diagnostics = (p.replay files []).diagnostics := by
  cases ha : (p.replay files []).result with
  | error failure =>
    left
    refine ⟨failure, rfl, ?_⟩
    simp [assemble, ha, Replay.failed]
  | ok a =>
    right
    obtain ⟨maps, hreplayed⟩ := replayed_of_replay ha
    obtain ⟨root, -, happlication⟩ := hreplayed.application
    obtain ⟨m, hm⟩ := Assembly.exists_freeze (a := a) (by simp [happlication])
    refine ⟨a, m, rfl, ?_, ?_⟩
    · simp [assemble, ha, hm]
    · simp [assemble, ha, hm]

end Plan

/-! ## Failures -/

namespace Failure

/-- A failure with a cause that is not about rejected descriptors. -/
def Ordinary (f : Failure) : Prop :=
  (∃ kind text, f.cause = .system kind text) ∨ (∃ text, f.cause = .message text) ∨
    ∃ file reason, f.cause = .fault (.invalidPlan file reason)

theorem Ordinary.within {f : Failure} (h : f.Ordinary) (context : String) :
    (f.within context).Ordinary :=
  h

theorem ordinary_ofFile (fault : FileFault) : (ofFile fault).Ordinary :=
  Or.inl ⟨_, _, rfl⟩

theorem ordinary_ofMessage (text : String) : (ofMessage text).Ordinary :=
  Or.inr (Or.inl ⟨_, rfl⟩)

theorem ordinary_invalidPlan (file reason : String) :
    (ofFault (.invalidPlan file reason)).Ordinary :=
  Or.inr (Or.inr ⟨_, _, rfl⟩)

theorem Ordinary.fault_ne {f : Failure} (h : f.Ordinary) (count : Nat) :
    f.report.fault ≠ .rejectedDescriptors count := by
  rcases h with ⟨kind, text, h⟩ | ⟨text, h⟩ | ⟨file, reason, h⟩
  · simp [report, h]
  · simp [report, h]
  · simp only [report, h, reportOn]
    split <;> simp [Report.usual, Fault.reported]

end Failure

namespace Plan

variable {p : Plan} {files : FileTree}

theorem ordinary_of_load {path : Path} {failure : Failure}
    (h : Plan.load files path = .error failure) : failure.Ordinary := by
  unfold load at h
  split at h
  next fault _ =>
    cases h
    exact (Failure.ordinary_ofFile fault).within _
  next text _ =>
    obtain ⟨fault, hfault, rfl⟩ := mapError_eq_error.1 h
    unfold parse at hfault
    dsimp only at hfault
    split at hfault
    · cases hfault
      exact Failure.ordinary_invalidPlan _ _
    · obtain ⟨problem, -, rfl⟩ := mapError_eq_error.1 hfault
      exact Failure.ordinary_invalidPlan _ _

theorem ordinary_of_shortcoming {e : Extension} {failure : Failure}
    (h : p.shortcoming files e = some failure) : failure.Ordinary := by
  unfold shortcoming at h
  split at h
  · cases h
  · obtain ⟨fault, -, rfl⟩ := Option.map_eq_some_iff.1 h
    exact Or.inl ⟨_, _, rfl⟩
  · cases h
    exact Failure.ordinary_invalidPlan _ _
  · cases h
    exact Failure.ordinary_invalidPlan _ _

theorem invalidPlan_of_offence {α : Type} {entry : String} {outcome : Except Fault α}
    {fault : Fault} (h : p.offence entry outcome = some fault) :
    ∃ reason, fault = .invalidPlan p.source reason := by
  obtain ⟨flaw, -, rfl⟩ := Option.map_eq_some_iff.1 h
  exact ⟨_, rfl⟩

theorem invalidPlan_of_mem_offences {α β : Type} {list : String} {read : α → Except Fault β}
    {index : Nat} {xs : List α} {fault : Fault}
    (h : some fault ∈ p.offences list read index xs) :
    ∃ reason, fault = .invalidPlan p.source reason := by
  obtain ⟨x, -, hx⟩ := List.mem_map.1 h
  exact invalidPlan_of_offence hx

theorem invalidPlan_of_mem_tokenOffences {fault : Fault} (h : some fault ∈ p.tokenOffences) :
    ∃ reason, fault = .invalidPlan p.source reason := by
  simp only [tokenOffences, List.mem_append, List.mem_singleton] at h
  rcases h with h | h | h | h | h
  · exact invalidPlan_of_offence h.symm
  · exact invalidPlan_of_mem_offences h
  · exact invalidPlan_of_mem_offences h
  · exact invalidPlan_of_mem_offences h
  · exact invalidPlan_of_mem_offences h

theorem ordinary_of_replay {failure : Failure} (h : (p.replay files []).result = .error failure) :
    failure.Ordinary := by
  -- the replay fails as one of its entries
  have hfirst := failure?_eq_some_iff.2 h
  rw [failure?_replay] at hfirst
  obtain ⟨x, hmem, hx⟩ := List.exists_of_findSome?_eq_some hfirst
  cases hx
  rw [findings, List.mem_append, List.mem_map, List.mem_map] at hmem
  rcases hmem with ⟨offence, hoffence, hfailure⟩ | ⟨e, -, he⟩
  · obtain ⟨fault, rfl, rfl⟩ := Option.map_eq_some_iff.1 hfailure
    obtain ⟨reason, rfl⟩ := invalidPlan_of_mem_tokenOffences hoffence
    exact Failure.ordinary_invalidPlan _ _
  · exact ordinary_of_shortcoming he

end Plan

namespace FileTree

variable {t made : FileTree} {p : Path} {failure : Failure}

theorem ordinary_of_ensureParent (h : t.ensureParent p = (made, .error failure)) :
    failure.Ordinary := by
  unfold ensureParent at h
  split at h
  · cases h
  · split at h
    · cases h
    · unfold ensureDirectory at h
      split at h
      · split at h
        · cases h
        · cases h
          exact Failure.ordinary_ofMessage _
      · split at h
        next => cases h
        next fault _ =>
          cases h
          exact (Failure.ordinary_ofFile fault).within _

theorem ordinary_of_replaceThrough {beside : Path} {content : ByteArray}
    (h : t.replaceThrough beside p content = (made, .error failure)) : failure.Ordinary := by
  unfold replaceThrough at h
  split at h
  next fault _ =>
    cases h
    exact (Failure.ordinary_ofFile fault).within _
  next =>
    split at h
    next => cases h
    next fault _ =>
      cases h
      exact (Failure.ordinary_ofFile fault).within _

theorem ordinary_of_replace {content : ByteArray}
    (h : t.replace p content = (made, .error failure)) : failure.Ordinary := by
  unfold replace at h
  split at h
  next hparent =>
    cases h
    exact ordinary_of_ensureParent hparent
  next => exact ordinary_of_replaceThrough h

end FileTree

theorem Model.ordinary_of_save {m : Model} {files written : FileTree} {path : Path}
    {failure : Failure} (h : m.save files path = (written, .error failure)) :
    failure.Ordinary := by
  unfold save at h
  split at h
  next => cases h
  next inner hreplace =>
    cases h
    exact (FileTree.ordinary_of_replace hreplace).within _

/-! ## Courses -/

namespace Command

/-- The report on a strict run in which the descriptors of some extensions were rejected: how many
there are, and their names in order. -/
def rejection (rejected : List Plan.Extension) : Report where
  fault := .rejectedDescriptors rejected.length
  details :=
    some ("Rejected extensions: " ++ ", ".intercalate (rejected.map Plan.Extension.name))
  suggestion := some "Fix the reported descriptor tokens or run without --strict"

/-- How a run that assembles a plan goes: the plan cannot be loaded or not be replayed, descriptors
were rejected and must not be, or the model is printed or saved. -/
inductive Course (colours : Bool) (files : FileTree) (plan : Path) (output : Option Path)
    (strict : Bool) : Run → Prop where
  | unloaded {failure : Failure} (hplan : Plan.load files plan = .error failure) :
      Course colours files plan output strict (.failed files failure)
  | unreplayed {p : Plan} {failure : Failure} {events : List Event}
      (hplan : Plan.load files plan = .ok p)
      (hreplay : (p.replay files []).result = .error failure)
      (hmodel : (p.assemble files).result = .error failure) :
      Course colours files plan output strict ⟨files, "", "", events, .error failure⟩
  | rejected {p : Plan} {a : Assembly} {errors : String} {events : List Event}
      (hplan : Plan.load files plan = .ok p) (hreplay : (p.replay files []).result = .ok a)
      (hstrict : strict = true) (hmisspelt : p.misspelt files ≠ []) :
      Course colours files plan output strict
        ⟨files, "", errors, events, .error ⟨[], .report (rejection (p.misspelt files))⟩⟩
  | delivered {p : Plan} {m : Model} {errors : String} {events : List Event}
      (hplan : Plan.load files plan = .ok p) (hmodel : (p.assemble files).result = .ok m)
      (hclean : strict = true → p.misspelt files = []) :
      Course colours files plan output strict (deliver colours files m output errors events)

theorem ofReport_rejectionReport {diagnostics : List Diagnostic} {rejected : List Plan.Extension}
    (h : diagnostics.map Diagnostic.source = rejected.map Plan.Extension.name) :
    Failure.ofReport (rejectionReport diagnostics) = ⟨[], .report (rejection rejected)⟩ := by
  have hlength : diagnostics.length = rejected.length := by
    rw [← List.length_map (f := Diagnostic.source), h, List.length_map]
  rw [rejectionReport, rejection, h, hlength, ← Text.join_eq_intercalate]
  rfl

theorem course_runAssemble (colours : Bool) (files : FileTree) (plan : Path)
    (output : Option Path) (strict : Bool) :
    Course colours files plan output strict (runAssemble colours files plan output strict) := by
  unfold runAssemble
  cases hplan : Plan.load files plan with
  | error failure => exact Course.unloaded hplan
  | ok p =>
    dsimp only
    rcases p.assemble_cases files with ⟨failure, hreplay, hmodel⟩ | ⟨a, m, hreplay, hmodel, hsame⟩
    · rw [hmodel]
      exact Course.unreplayed hplan hreplay hmodel
    · have hsources := Plan.sources_replay hreplay
      rw [hmodel, hsame]
      dsimp only
      have hnone : (p.replay files []).diagnostics = [] ↔ p.misspelt files = [] := by
        rw [← List.map_eq_nil_iff (f := Diagnostic.source), hsources, List.map_eq_nil_iff]
      split
      next hrejected =>
        rw [ofReport_rejectionReport hsources]
        exact Course.rejected hplan hreplay hrejected.1 (mt hnone.2 hrejected.2)
      next hdelivered =>
        refine Course.delivered hplan hmodel fun hstrict => hnone.1 ?_
        exact of_not_not fun hne => hdelivered ⟨hstrict, hne⟩

/-! ## Deliveries -/

section Deliveries

variable {colours : Bool} {files : FileTree} {m : Model} {errors : String} {events : List Event}

theorem files_deliver_printed :
    (deliver colours files m none errors events).files = files :=
  rfl

theorem files_deliver_saved (out : Path) :
    (deliver colours files m (some out) errors events).files = (m.save files out).1 := by
  unfold deliver
  cases hsave : m.save files out with
  | mk written result => cases result <;> simp only [hsave]

theorem ordinary_of_deliver {output : Option Path} {failure : Failure}
    (h : (deliver colours files m output errors events).result = .error failure) :
    failure.Ordinary := by
  cases output with
  | none => cases h
  | some out =>
    unfold deliver at h
    cases hsave : m.save files out with
    | mk written result =>
      cases result with
      | error fault =>
        simp only [hsave] at h
        cases h
        exact Model.ordinary_of_save hsave
      | ok _ =>
        simp only [hsave] at h
        cases h

end Deliveries

/-! ## Commands that only read -/

theorem files_runInspect (colours : Bool) (files : FileTree) (path : Path)
    (format : OutputFormat) : (runInspect colours files path format).files = files := by
  unfold runInspect
  cases Model.load files path with
  | error failure => rfl
  | ok m => cases format <;> rfl

theorem files_runClassify (colours : Bool) (files : FileTree) (path : Path) (token : String) :
    (runClassify colours files path token).files = files := by
  unfold runClassify
  cases Key.parse token with
  | error fault => rfl
  | ok key => cases Model.load files path <;> rfl

theorem files_runVerify (colours : Bool) (files : FileTree) (path : Path)
    (expected : Option String) : (runVerify colours files path expected).files = files := by
  unfold runVerify
  cases Model.load files path with
  | error failure => rfl
  | ok m =>
    dsimp only
    split
    · rfl
    · split <;> rfl

/-! ## All commands -/

/-- A command comes to save a model: its plan can be loaded and replayed, and no descriptor was
rejected if none must be. -/
inductive Saves (files : FileTree) : Command → Model → Path → Prop where
  | intro {plan out : Path} {strict : Bool} {p : Plan} {m : Model}
      (hplan : Plan.load files plan = .ok p) (hmodel : (p.assemble files).result = .ok m)
      (hclean : strict = true → p.misspelt files = []) :
      Saves files (.assemble plan (some out) strict) m out

theorem files_run_of_saves {colours : Bool} {files : FileTree} {command : Command} {m : Model}
    {out : Path} (h : Saves files command m out) :
    (run colours files command).files = (m.save files out).1 := by
  obtain @⟨plan, out, strict, p, m, hplan, hmodel, hclean⟩ := h
  have hcourse := course_runAssemble colours files plan (some out) strict
  simp only [run]
  generalize runAssemble colours files plan (some out) strict = r at hcourse ⊢
  cases hcourse with
  | unloaded hfailed => exact absurd (hplan.symm.trans hfailed) (by simp)
  | unreplayed hloaded _ hfailed =>
    cases hplan.symm.trans hloaded
    exact absurd (hmodel.symm.trans hfailed) (by simp)
  | rejected hloaded _ hstrict hmisspelt =>
    cases hplan.symm.trans hloaded
    exact absurd (hclean hstrict) hmisspelt
  | delivered hloaded hassembled _ =>
    cases hplan.symm.trans hloaded
    cases hmodel.symm.trans hassembled
    exact files_deliver_saved out

theorem files_run_of_not_saves {colours : Bool} {files : FileTree} {command : Command}
    (h : ¬ ∃ m out, Saves files command m out) : (run colours files command).files = files := by
  cases command with
  | inspect model format => exact files_runInspect colours files model format
  | classify model key => exact files_runClassify colours files model key
  | verify model expected => exact files_runVerify colours files model expected
  | assemble plan output strict =>
    have hcourse := course_runAssemble colours files plan output strict
    simp only [run]
    generalize runAssemble colours files plan output strict = r at hcourse ⊢
    cases hcourse with
    | unloaded => rfl
    | unreplayed => rfl
    | rejected => rfl
    | @delivered p m errors events hplan hmodel hclean =>
      cases output with
      | none => exact files_deliver_printed
      | some out => exact absurd ⟨m, out, Saves.intro hplan hmodel hclean⟩ h

/-- A run fails for rejected descriptors exactly if it is strict and comes to the end of a replay in
which some were rejected, and the failure counts and names them. -/
theorem rejected_iff {colours : Bool} {files : FileTree} {plan : Path} {output : Option Path}
    {strict : Bool} {failure : Failure} {count : Nat} :
    ((run colours files (.assemble plan output strict)).result = .error failure ∧
        failure.report.fault = .rejectedDescriptors count) ↔
      strict = true ∧ ∃ p a, Plan.load files plan = .ok p ∧
        (p.replay files []).result = .ok a ∧ p.misspelt files ≠ [] ∧
          failure = ⟨[], .report (rejection (p.misspelt files))⟩ ∧
          failure.report = rejection (p.misspelt files) ∧ count = (p.misspelt files).length := by
  have hcourse := course_runAssemble colours files plan output strict
  simp only [run]
  generalize runAssemble colours files plan output strict = r at hcourse ⊢
  cases hcourse with
  | unloaded hplan =>
    constructor
    · rintro ⟨hfailed, hfault⟩
      cases hfailed
      exact absurd hfault ((Plan.ordinary_of_load hplan).fault_ne count)
    · rintro ⟨-, p, a, hloaded, -⟩
      exact absurd (hplan.symm.trans hloaded) (by simp)
  | unreplayed hplan hreplay _ =>
    constructor
    · rintro ⟨hfailed, hfault⟩
      cases hfailed
      exact absurd hfault ((Plan.ordinary_of_replay hreplay).fault_ne count)
    · rintro ⟨-, p, a, hloaded, hreplayed, -⟩
      cases hplan.symm.trans hloaded
      exact absurd (hreplay.symm.trans hreplayed) (by simp)
  | rejected hplan hreplay hstrict hmisspelt =>
    constructor
    · rintro ⟨hfailed, hfault⟩
      cases hfailed
      cases hfault
      exact ⟨hstrict, _, _, hplan, hreplay, hmisspelt, rfl, rfl, rfl⟩
    · rintro ⟨-, p, a, hloaded, -, -, rfl, -, rfl⟩
      cases hplan.symm.trans hloaded
      exact ⟨rfl, rfl⟩
  | delivered hplan hmodel hclean =>
    constructor
    · rintro ⟨hfailed, hfault⟩
      exact absurd hfault ((ordinary_of_deliver hfailed).fault_ne count)
    · rintro ⟨hstrict, p, a, hloaded, -, hmisspelt, -⟩
      cases hplan.symm.trans hloaded
      exact absurd (hclean hstrict) hmisspelt

/-- Where no descriptor is rejected there is nothing to be strict about. -/
theorem runAssemble_strict_eq {colours : Bool} {files : FileTree} {plan : Path}
    {output : Option Path}
    (h : ∀ p a, Plan.load files plan = .ok p → (p.replay files []).result = .ok a →
      p.misspelt files = []) :
    runAssemble colours files plan output true = runAssemble colours files plan output false := by
  unfold runAssemble
  cases hplan : Plan.load files plan with
  | error failure => rfl
  | ok p =>
    dsimp only
    rcases p.assemble_cases files with ⟨failure, -, hmodel⟩ | ⟨a, m, hreplay, hmodel, hsame⟩
    · rw [hmodel]
    · have hsources := Plan.sources_replay hreplay
      rw [h p a hplan hreplay, List.map_nil, List.map_eq_nil_iff, ← hsame] at hsources
      rw [hmodel]
      simp [hsources]

/-- What the commands change, whatever the files:

1. a command that comes to save a model leaves the files as saving leaves them;
2. any other command leaves them as they were;
3. the failure for rejected descriptors is that of strict runs that replay the plan to its end and
   have misspelt extensions, which it counts and names in their order;
4. without misspelt extensions a strict run is in all respects the run that is not strict. -/
theorem run_saves_or_leaves (colours : Bool) (files : FileTree) :
    (∀ command m out, Saves files command m out →
        (run colours files command).files = (m.save files out).1) ∧
      (∀ command, (¬ ∃ m out, Saves files command m out) →
        (run colours files command).files = files) ∧
      (∀ plan output strict failure count,
        ((run colours files (.assemble plan output strict)).result = .error failure ∧
            failure.report.fault = .rejectedDescriptors count) ↔
          strict = true ∧ ∃ p a, Plan.load files plan = .ok p ∧
            (p.replay files []).result = .ok a ∧ p.misspelt files ≠ [] ∧
              failure = ⟨[], .report (rejection (p.misspelt files))⟩ ∧
              failure.report = rejection (p.misspelt files) ∧
              count = (p.misspelt files).length) ∧
      ∀ plan output,
        (∀ p a, Plan.load files plan = .ok p → (p.replay files []).result = .ok a →
          p.misspelt files = []) →
        run colours files (.assemble plan output true) =
          run colours files (.assemble plan output false) := by
  refine ⟨?_, ?_, ?_, ?_⟩
  · intro command m out
    exact files_run_of_saves
  · intro command
    exact files_run_of_not_saves
  · intro plan output strict failure count
    exact rejected_iff
  · intro plan output
    exact runAssemble_strict_eq

/-- A plan with three extensions, of which the first excludes artifacts by these tokens in the plan
itself and the last one in a file. -/
def excludingTree (tokens : String) : FileTree :=
  let text := "app_artifact = 'g:z:1'\n" ++
    "[[extensions]]\nname = 'e'\nproperties.excluded-artifacts = '" ++ tokens ++ "'\n" ++
    "[[extensions]]\nname = 'f'\nproperties.comment = '?'\n" ++
    "[[extensions]]\nname = 'g'\ndescriptor = 'd'\n"
  ((FileTree.empty []).plant ["p"] (.file text.toUTF8)).plant ["d"]
    (.file ("excluded-artifacts=" ++ tokens).toUTF8)

/-- The run that assembles this plan. -/
def excludingRun (tokens : String) (strict : Bool) : Run :=
  run false (excludingTree tokens) (.assemble "p" (some "m") strict)

theorem run_saves_or_leaves_misspelt :
    (∃ m : Model, (excludingRun "g:b, c" false).files =
        (m.save (excludingTree "g:b, c") "m").1) ∧
      (excludingRun "g:b, c" true).files = excludingTree "g:b, c" ∧
      (∃ failure, (excludingRun "g:b, c" true).result = .error failure ∧
        failure.report.fault = .rejectedDescriptors 2 ∧
        failure.report.details = some "Rejected extensions: e, g") ∧
      excludingRun "g:b" true = excludingRun "g:b" false := by
  have hcomputed (tokens : String) (names : List String)
      (h : (Plan.load (excludingTree tokens) "p").map
        (fun p => ((p.misspelt (excludingTree tokens)).map Plan.Extension.name,
          (p.assemble (excludingTree tokens)).result.toBool)) = .ok (names, true)) :
      ∃ p m, Plan.load (excludingTree tokens) "p" = .ok p ∧
        (p.assemble (excludingTree tokens)).result = .ok m ∧
        (p.misspelt (excludingTree tokens)).map Plan.Extension.name = names := by
    cases hplan : Plan.load (excludingTree tokens) "p" with
    | error failure =>
      rw [hplan] at h
      cases h
    | ok p =>
      rw [hplan] at h
      obtain ⟨hnames, hassembled⟩ := Prod.mk.inj (Except.ok.inj h)
      cases hmodel : (p.assemble (excludingTree tokens)).result with
      | error failure =>
        rw [hmodel] at hassembled
        cases hassembled
      | ok m => exact ⟨p, m, rfl, hmodel, hnames⟩
  obtain ⟨p, m, hplan, hmodel, hnames⟩ := hcomputed "g:b, c" ["e", "g"] (by decide +kernel)
  have hmisspelt : p.misspelt (excludingTree "g:b, c") ≠ [] := by
    intro hnone
    rw [hnone] at hnames
    cases hnames
  obtain ⟨hsaves, hleaves, hrejected, -⟩ := run_saves_or_leaves false (excludingTree "g:b, c")
  refine ⟨⟨m, ?_⟩, ?_, ?_, ?_⟩
  · exact hsaves _ m "m" (.intro hplan hmodel (by simp))
  · refine hleaves _ ?_
    rintro ⟨m', out, ⟨hplan', -, hclean⟩⟩
    cases hplan.symm.trans hplan'
    exact hmisspelt (hclean rfl)
  · rcases p.assemble_cases (excludingTree "g:b, c") with ⟨failure, -, hfailed⟩ | ⟨a, -, ha, -⟩
    · cases hmodel.symm.trans hfailed
    · have hcount : 2 = (p.misspelt (excludingTree "g:b, c")).length := by
        rw [← List.length_map (f := Plan.Extension.name), hnames]
        rfl
      obtain ⟨hfailed, hfault⟩ := (hrejected "p" (some "m") true _ 2).2
        ⟨rfl, p, a, hplan, ha, hmisspelt, rfl, rfl, hcount⟩
      have hdetails : "Rejected extensions: " ++ ", ".intercalate ["e", "g"] =
          "Rejected extensions: e, g" := by decide +kernel
      refine ⟨_, hfailed, hfault, ?_⟩
      show some ("Rejected extensions: " ++ ", ".intercalate _) = _
      rw [hnames, hdetails]
  · obtain ⟨q, -, hq, -, hnone⟩ := hcomputed "g:b" [] (by decide +kernel)
    refine (run_saves_or_leaves false (excludingTree "g:b")).2.2.2 "p" (some "m") ?_
    intro q' a hq' _
    cases hq.symm.trans hq'
    exact List.map_eq_nil_iff.1 hnone

end Command

end Classpath
