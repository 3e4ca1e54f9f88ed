import Classpath.Plan.Replay
import Classpath.Proofs.Assembly.Runs
import Mathlib.Data.List.Forall2

namespace Classpath

/-! # Merging many descriptors

Descriptors are merged one after the other, each all or not at all. Whether one of them is applied
does not depend on the assembly, so those that are not could as well not have been there: all that
they leave is one diagnostic each. -/

/-- The name of an extension and its descriptor. -/
abbrev Contribution := String × PropertyMap

namespace Assembly

open Descriptor (WellFormed Blames Brings)

/-- The calls that merge some descriptors, one after the other. -/
def merges (ds : List Contribution) : List Call :=
  ds.map fun d => .merge d.1 d.2

/-- A diagnostic that names the extension, the property, the token and its fault. -/
def Reports (d : Contribution) (diagnostic : Diagnostic) : Prop :=
  diagnostic.source = d.1 ∧
    Blames d.2 ⟨diagnostic.property, diagnostic.token, diagnostic.fault⟩

/-- The right answer for a descriptor: it is applied if it is well formed, and rejected for what is
wrong with it if it is not. -/
def Judged (d : Contribution) (answer : Answer) : Prop :=
  WellFormed d.2 ∧ answer = .applied ∨
    ¬ WellFormed d.2 ∧ ∃ diagnostic, Reports d diagnostic ∧ answer = .rejected diagnostic

/-! ## One descriptor -/

/-- What is to be reported about a descriptor is what its reader says. -/
theorem Reports.eq {d : Contribution} {diagnostic : Diagnostic} {r : Descriptor.Rejection}
    (h : Reports d diagnostic) (hr : Descriptor.assignments d.2 = .error r) :
    diagnostic = .ofRejection d.1 r := by
  obtain ⟨hsource, hblames⟩ := h
  have hsame := Descriptor.assignments_eq_error_iff.2 hblames
  rw [hr] at hsame
  cases diagnostic
  cases hsource
  cases hsame
  rfl

theorem eq_of_reports {d : Contribution} {reports : List Diagnostic} {r : Descriptor.Rejection}
    (h : List.Forall₂ Reports [d] reports) (hr : Descriptor.assignments d.2 = .error r) :
    reports = [.ofRejection d.1 r] := by
  cases h with
  | cons hfirst hrest =>
    cases hrest
    rw [hfirst.eq hr]

theorem judged_apply (a : Assembly) (d : Contribution) :
    Judged d (a.apply (.merge d.1 d.2)).2 := by
  by_cases h : WellFormed d.2
  · left
    rw [apply_merge_of_wellFormed h]
    exact ⟨h, rfl⟩
  · right
    rcases apply_merge_of_not_wellFormed h d.1 with ⟨r, hr, happly⟩
    rw [happly a]
    exact ⟨h, _, ⟨rfl, hr⟩, rfl⟩

/-- The keys of a well-formed descriptor come in, and nothing else does. -/
theorem mem_keys_apply_merge (a : Assembly) (d : Contribution) (group : KeyGroup) (k : Key) :
    k ∈ (a.apply (.merge d.1 d.2)).1.keys group ↔
      k ∈ a.keys group ∨ WellFormed d.2 ∧ Brings d.2 group k := by
  by_cases h : WellFormed d.2
  · rw [apply_merge_of_wellFormed h, keys_absorb, OrderedSet.mem_insertAll,
      Descriptor.mem_brought_iff]
    simp [h]
  · rcases apply_merge_of_not_wellFormed h d.1 with ⟨r, _, happly⟩
    rw [happly a]
    simp [h]

theorem apply_merge_unchanged {d : Contribution} (h : ¬ WellFormed d.2) (a : Assembly) :
    (a.apply (.merge d.1 d.2)).1 = a := by
  rcases apply_merge_of_not_wellFormed h d.1 with ⟨r, _, happly⟩
  rw [happly a]

/-- What no descriptor ever touches. -/
def SameBesidesClasses (a b : Assembly) : Prop :=
  b.application = a.application ∧ (∀ list, b.dependencies list = a.dependencies list) ∧
    b.localProject = a.localProject ∧ b.properties = a.properties

theorem sameBesidesClasses_apply (a : Assembly) (d : Contribution) :
    SameBesidesClasses a (a.apply (.merge d.1 d.2)).1 := by
  by_cases h : WellFormed d.2
  · rw [apply_merge_of_wellFormed h]
    refine ⟨?_, ?_, ?_, ?_⟩
    · exact application_absorb a d.2
    · exact dependencies_absorb a d.2
    · exact keys_absorb a d.2 .localProject
    · exact properties_absorb a d.2
  · rw [apply_merge_unchanged h]
    exact ⟨rfl, fun _ => rfl, rfl, rfl⟩

/-! ## All descriptors -/

theorem run_merges_cons (a : Assembly) (d : Contribution) (ds : List Contribution) :
    a.run (merges (d :: ds)) =
      (((a.apply (.merge d.1 d.2)).1.run (merges ds)).1,
        (a.apply (.merge d.1 d.2)).2 :: ((a.apply (.merge d.1 d.2)).1.run (merges ds)).2) :=
  rfl

theorem judged_run (a : Assembly) (ds : List Contribution) :
    List.Forall₂ Judged ds (a.run (merges ds)).2 := by
  induction ds generalizing a with
  | nil => exact List.Forall₂.nil
  | cons d ds ih =>
    rw [run_merges_cons]
    exact List.Forall₂.cons (judged_apply a d) (ih _)

theorem mem_keys_run_merges (a : Assembly) (ds : List Contribution) (group : KeyGroup) (k : Key) :
    k ∈ (a.run (merges ds)).1.keys group ↔
      k ∈ a.keys group ∨ ∃ d ∈ ds, WellFormed d.2 ∧ Brings d.2 group k := by
  induction ds generalizing a with
  | nil =>
    have hnone : (a.run (merges [])).1 = a := rfl
    simp [hnone]
  | cons d ds ih =>
    rw [run_merges_cons, ih, mem_keys_apply_merge]
    simp only [List.mem_cons, exists_eq_or_imp, or_assoc]

/-- Descriptors that are not well formed could as well not have been there. -/
theorem run_merges_filter (a : Assembly) (ds : List Contribution) :
    (a.run (merges ds)).1 = (a.run (merges (ds.filter fun d => WellFormed d.2))).1 := by
  induction ds generalizing a with
  | nil => rfl
  | cons d ds ih =>
    rw [run_merges_cons, ih]
    by_cases h : WellFormed d.2
    · rw [List.filter_cons_of_pos (by simpa using h), run_merges_cons]
    · rw [List.filter_cons_of_neg (by simpa using h), apply_merge_unchanged h]

theorem sameBesidesClasses_run (a : Assembly) (ds : List Contribution) :
    SameBesidesClasses a (a.run (merges ds)).1 := by
  induction ds generalizing a with
  | nil => exact ⟨rfl, fun _ => rfl, rfl, rfl⟩
  | cons d ds ih =>
    rw [run_merges_cons]
    rcases sameBesidesClasses_apply a d with ⟨happlication, hlists, hlocal, hproperties⟩
    rcases ih (a.apply (.merge d.1 d.2)).1 with ⟨happlication', hlists', hlocal', hproperties'⟩
    refine ⟨happlication'.trans happlication, fun list => ?_, hlocal'.trans hlocal,
      hproperties'.trans hproperties⟩
    exact (hlists' list).trans (hlists list)

/-- There is one diagnostic for each descriptor that is not well formed, in the same order. -/
theorem reports_of_judged {ds : List Contribution} {answers : List Answer}
    (h : List.Forall₂ Judged ds answers) :
    List.Forall₂ Reports (ds.filter fun d => ¬ WellFormed d.2) (Answer.diagnostics answers) := by
  induction h with
  | nil => exact List.Forall₂.nil
  | @cons d answer ds answers hd _ ih =>
    rcases hd with ⟨hformed, rfl⟩ | ⟨hmalformed, diagnostic, hreports, rfl⟩
    · rw [List.filter_cons_of_neg (by simpa using hformed)]
      exact ih
    · rw [List.filter_cons_of_pos (by simpa using hmalformed)]
      exact List.Forall₂.cons hreports ih

/-! ## The collector -/

/-- A replay after the descriptors of some more extensions, each with its diagnostic collected. -/
def mergedInTurn (r : Plan.Replay Assembly) (ds : List Contribution) : Plan.Replay Assembly :=
  ds.foldl (fun r d => r.merge d.1 d.2) r

theorem diagnostics_cons (answer : Answer) (answers : List Answer) :
    Answer.diagnostics (answer :: answers) =
      Answer.diagnostics [answer] ++ Answer.diagnostics answers := by
  rw [Answer.diagnostics, ← List.singleton_append, List.filterMap_append]
  rfl

/-- A replay merges as the calls do, and collects what they answer. -/
theorem mergedInTurn_eq_run (r : Plan.Replay Assembly) (ds : List Contribution) :
    (mergedInTurn r ds).result = (r.result.run (merges ds)).1 ∧
      (mergedInTurn r ds).diagnostics =
        r.diagnostics ++ Answer.diagnostics (r.result.run (merges ds)).2 := by
  -- On the descriptors, for every replay so far: its diagnostics stand before all later ones.
  induction ds generalizing r with
  | nil =>
    constructor
    · rfl
    · exact (List.append_nil _).symm
  | cons d ds ih =>
    have hresult : (r.merge d.1 d.2).result = (r.result.apply (.merge d.1 d.2)).1 := by
      simp only [Plan.Replay.merge, apply]
      split <;> rfl
    have hdiagnostics : (r.merge d.1 d.2).diagnostics =
        r.diagnostics ++ Answer.diagnostics [(r.result.apply (.merge d.1 d.2)).2] := by
      simp only [Plan.Replay.merge, apply]
      split
      next hnone => simp [hnone, Answer.diagnostics]
      next hsome => simp [hsome, Answer.diagnostics]
    rcases ih (r.merge d.1 d.2) with ⟨ihresult, ihdiagnostics⟩
    rw [hresult] at ihresult ihdiagnostics
    rw [run_merges_cons]
    constructor
    · exact ihresult
    · rw [diagnostics_cons, ← List.append_assoc, ← hdiagnostics]
      exact ihdiagnostics

/-- Merging any descriptors into any assembly, with any diagnostics collected before:

1. each descriptor is answered by its own verdict;
2. at its turn, a well-formed one adds the keys that it names and any other changes nothing;
3. in the end, the sets have their keys from before and those of the well-formed descriptors;
4. the result is that of the well-formed descriptors alone;
5. the collector has gained one report for each other descriptor, in the order of merging;
6. nothing besides the four sets of the classes has changed. -/
theorem merge_all_or_nothing (r : Plan.Replay Assembly) (ds : List Contribution) :
    List.Forall₂ Judged ds (r.result.run (merges ds)).2 ∧
      (∀ before d after, ds = before ++ d :: after →
        (∀ group k, k ∈ (mergedInTurn r (before ++ [d])).result.keys group ↔
          k ∈ (mergedInTurn r before).result.keys group ∨
            WellFormed d.2 ∧ Brings d.2 group k) ∧
        (¬ WellFormed d.2 →
          (mergedInTurn r (before ++ [d])).result = (mergedInTurn r before).result)) ∧
      (∀ group k, k ∈ (mergedInTurn r ds).result.keys group ↔
        k ∈ r.result.keys group ∨ ∃ d ∈ ds, WellFormed d.2 ∧ Brings d.2 group k) ∧
      (mergedInTurn r ds).result =
        (mergedInTurn r (ds.filter fun d => WellFormed d.2)).result ∧
      (∃ reports, (mergedInTurn r ds).diagnostics = r.diagnostics ++ reports ∧
        List.Forall₂ Reports (ds.filter fun d => ¬ WellFormed d.2) reports) ∧
      SameBesidesClasses r.result (mergedInTurn r ds).result := by
  -- Everything about the result is known of the calls.
  have hrun (ds : List Contribution) : (mergedInTurn r ds).result =
      (r.result.run (merges ds)).1 := (mergedInTurn_eq_run r ds).1
  simp only [hrun]
  refine ⟨judged_run r.result ds, ?_, mem_keys_run_merges r.result ds,
    run_merges_filter r.result ds, ?_, sameBesidesClasses_run r.result ds⟩
  · intro before d after _
    have hlast : (r.result.run (merges (before ++ [d]))).1 =
        ((r.result.run (merges before)).1.apply (.merge d.1 d.2)).1 := by
      rw [merges, List.map_append, run_append]
      rfl
    rw [hlast]
    constructor
    · intro group k
      exact mem_keys_apply_merge _ d group k
    · intro h
      exact apply_merge_unchanged h _
  · exact ⟨_, (mergedInTurn_eq_run r ds).2, reports_of_judged (judged_run r.result ds)⟩

/-- An assembly in which one key is excluded. -/
def excludingOne : Plan.Replay Assembly :=
  ⟨empty.insertKeys .excluded [.plain "g" "z"], [], []⟩

/-- The list of the first descriptor has gaps and blanks, and the second descriptor has two bad
tokens in the property that is read last. -/
def mixedDescriptors : List Contribution :=
  [("first", .ofList [("excluded-artifacts", " g:a , ,g:b:x,"), ("comment", "?")]),
   ("second", .ofList [("parent-first-artifacts", "g:c"),
     ("lesser-priority-artifacts", "g:d,  e ,:f")]),
   ("third", .ofList [("lesser-priority-artifacts", "g:d")])]

theorem merge_all_or_nothing_mixed :
    (∀ k, k ∈ (mergedInTurn excludingOne mixedDescriptors).result.excluded ↔
        k = .plain "g" "z" ∨ k = .plain "g" "a" ∨ k = ⟨"g", "b", "x", "jar"⟩) ∧
      (∀ k, k ∉ (mergedInTurn excludingOne mixedDescriptors).result.parentFirst) ∧
      (∀ k, k ∈ (mergedInTurn excludingOne mixedDescriptors).result.lesserPriority ↔
        k = .plain "g" "d") ∧
      (mergedInTurn excludingOne mixedDescriptors).diagnostics =
        [⟨"second", "lesser-priority-artifacts", "e",
          .malformedToken "e" "artifact name is empty"⟩] := by
  obtain ⟨-, -, hkeys, -, ⟨reports, hdiagnostics, hreports⟩, -⟩ :=
    merge_all_or_nothing excludingOne mixedDescriptors
  -- which descriptors count, and what they name, is computed
  have hformed : mixedDescriptors.filter (fun d => WellFormed d.2) =
      [mixedDescriptors[0], mixedDescriptors[2]] := by decide +kernel
  have hmalformed : mixedDescriptors.filter (fun d => ¬ WellFormed d.2) =
      [mixedDescriptors[1]] := by decide +kernel
  have hnamed (group : KeyGroup) (k : Key) :
      k ∈ (mergedInTurn excludingOne mixedDescriptors).result.keys group ↔
        k ∈ excludingOne.result.keys group ∨
          k ∈ Descriptor.brought mixedDescriptors[0].2 group ++
            Descriptor.brought mixedDescriptors[2].2 group := by
    have hcounted : (∃ d ∈ mixedDescriptors, WellFormed d.2 ∧ Brings d.2 group k) ↔
        ∃ d ∈ mixedDescriptors.filter (fun d => WellFormed d.2), Brings d.2 group k := by
      simp only [List.mem_filter, decide_eq_true_eq, and_assoc]
    rw [hkeys, hcounted, hformed]
    simp [Descriptor.mem_brought_iff]
  generalize (mergedInTurn excludingOne mixedDescriptors).result = a at hnamed ⊢
  refine ⟨?_, ?_, ?_, ?_⟩
  · intro k
    have hnames : Descriptor.brought mixedDescriptors[0].2 .excluded ++
        Descriptor.brought mixedDescriptors[2].2 .excluded =
          [.plain "g" "a", ⟨"g", "b", "x", "jar"⟩] := by decide +kernel
    have hold : k ∈ excludingOne.result.keys .excluded ↔ k = .plain "g" "z" := List.mem_singleton
    refine (hnamed .excluded k).trans ?_
    rw [hold, hnames]
    simp
  · intro k
    have hnames : Descriptor.brought mixedDescriptors[0].2 .parentFirst ++
        Descriptor.brought mixedDescriptors[2].2 .parentFirst = [] := by decide +kernel
    have hold : k ∉ excludingOne.result.keys .parentFirst := List.not_mem_nil
    refine mt (hnamed .parentFirst k).1 ?_
    rw [hnames]
    simp [hold]
  · intro k
    have hnames : Descriptor.brought mixedDescriptors[0].2 .lesserPriority ++
        Descriptor.brought mixedDescriptors[2].2 .lesserPriority = [.plain "g" "d"] := by
      decide +kernel
    have hold : k ∉ excludingOne.result.keys .lesserPriority := List.not_mem_nil
    refine (hnamed .lesserPriority k).trans ?_
    rw [hnames]
    simp [hold]
  · have hrejected : Descriptor.assignments mixedDescriptors[1].2 =
        .error ⟨"lesser-priority-artifacts", "e",
          .malformedToken "e" "artifact name is empty"⟩ := by decide +kernel
    rw [hmalformed] at hreports
    rw [hdiagnostics, eq_of_reports hreports hrejected]
    rfl

end Assembly

end Classpath
