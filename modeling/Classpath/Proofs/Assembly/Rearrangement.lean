import Classpath.Model.Transport
import Classpath.Proofs.Assembly.Runs

namespace Classpath.Assembly

/-! # Calls in another order

Sets absorb what comes in whatever order, so the order of calls counts for the rest of an assembly
only:

1. **Lanes**: the calls that set the application have a lane of their own, and so have those that add
   properties and those that append to one list. Two runs are rearrangements of each other if they
   make the same calls and have those of each lane in the same order.
2. **Views**: what a view of an assembly takes from a run comes from the calls of one lane.
3. **Runs**: rearranging a run changes neither an answer nor the assembly at the end. -/

/-! ## Lanes -/

/-- Where calls have to keep their order. -/
inductive Lane where
  | application
  | properties
  | list (list : DependencyList)
deriving Repr, DecidableEq

/-- The lane of a call. Keys and descriptors have none: they may come at any time. -/
def Call.lane? : Call → Option Lane
  | .setApplication _ => some .application
  | .addProperties _ => some .properties
  | .addDependency list _ => some (.list list)
  | .addDependencies list _ => some (.list list)
  | .addKey _ _ => none
  | .addKeys _ _ => none
  | .merge _ _ => none

/-- The calls in a lane, accepted or not. -/
def inLane (lane : Lane) (calls : List Call) : List Call :=
  calls.filter fun call => call.lane? = some lane

/-- The same calls as often, where those in one lane are in the same order. -/
structure Rearranged (calls others : List Call) : Prop where
  perm : calls.Perm others
  order : ∀ lane, inLane lane calls = inLane lane others

/-! ## Views -/

section Views

variable {α : Type} {effect : Call × Answer → List α} {calls others : List Call}

/-- What only the calls in a lane bring can be told from these calls. -/
theorem flatMap_inLane {lane : Lane}
    (h : ∀ call answer, call.lane? ≠ some lane → effect (call, answer) = [])
    (a : Assembly) (calls : List Call) :
    (a.history calls).flatMap effect = (a.history (inLane lane calls)).flatMap effect := by
  simp only [history_eq_map]
  induction calls with
  | nil => rfl
  | cons call calls ih =>
    rw [List.map_cons, List.flatMap_cons, ih]
    by_cases hcall : call.lane? = some lane
    · have hin : inLane lane (call :: calls) = call :: inLane lane calls :=
        List.filter_cons_of_pos (by simpa using hcall)
      rw [hin, List.map_cons, List.flatMap_cons]
    · have hout : inLane lane (call :: calls) = inLane lane calls :=
        List.filter_cons_of_neg (by simpa using hcall)
      rw [hout, h call call.answer hcall, List.nil_append]

theorem Rearranged.flatMap_eq (hcalls : Rearranged calls others) {lane : Lane}
    (h : ∀ call answer, call.lane? ≠ some lane → effect (call, answer) = []) (a : Assembly) :
    (a.history calls).flatMap effect = (a.history others).flatMap effect := by
  rw [flatMap_inLane h a calls, flatMap_inLane h a others, hcalls.order lane]

theorem Rearranged.mem_flatMap_iff (hcalls : Rearranged calls others) (a : Assembly) {x : α} :
    x ∈ (a.history calls).flatMap effect ↔ x ∈ (a.history others).flatMap effect := by
  simp only [history_eq_map, List.mem_flatMap, List.mem_map]
  have hmem (call : Call) : call ∈ calls ↔ call ∈ others := hcalls.perm.mem_iff
  simp only [hmem]

end Views

theorem chosen_eq_nil {call : Call} (answer : Answer) (h : call.lane? ≠ some .application) :
    chosen (call, answer) = [] := by
  cases call with
  | setApplication artifact => exact absurd rfl h
  | _ => rfl

theorem stated_eq_nil {call : Call} (answer : Answer) (h : call.lane? ≠ some .properties) :
    stated (call, answer) = [] := by
  cases call with
  | addProperties entries => exact absurd rfl h
  | _ => rfl

theorem appended_eq_nil {list : DependencyList} {call : Call} (answer : Answer)
    (h : call.lane? ≠ some (.list list)) : appended list (call, answer) = [] := by
  cases call with
  | addDependency other dep =>
    have hother : other ≠ list := fun hlist => h (by rw [Call.lane?, hlist])
    cases answer with
    | done => exact if_neg hother
    | _ => rfl
  | addDependencies other deps =>
    have hother : other ≠ list := fun hlist => h (by rw [Call.lane?, hlist])
    cases answer with
    | done => exact if_neg hother
    | _ => rfl
  | _ => rfl

/-! ## Runs -/

/-- A rearranged run ends in the same assembly. -/
theorem Rearranged.run_eq {calls others : List Call} (h : Rearranged calls others)
    (a : Assembly) : (a.run calls).1 = (a.run others).1 := by
  refine ext_views ?_ ?_ ?_ ?_
  · rw [application_run, application_run]
    rw [h.flatMap_eq (fun _ answer hlane => chosen_eq_nil answer hlane)]
  · intro list
    rw [dependencies_run, dependencies_run]
    rw [h.flatMap_eq (fun _ answer hlane => appended_eq_nil answer hlane)]
  -- A set does not show in which order its members came.
  · intro group
    refine OrderedSet.ext fun k => ?_
    rw [keys_run, keys_run, OrderedSet.mem_insertAll, OrderedSet.mem_insertAll,
      h.mem_flatMap_iff]
  · rw [properties_run, properties_run]
    rw [h.flatMap_eq (fun _ answer hlane => stated_eq_nil answer hlane)]

theorem freeze_cases (a : Assembly) :
    (∃ reason, a.freeze = .error (.incompleteModel reason)) ∨ ∃ m, a.freeze = .ok m := by
  cases happlication : a.application with
  | none =>
    left
    refine ⟨"no application artifact was set", ?_⟩
    rw [freeze, happlication]
  | some artifact =>
    right
    exact exists_freeze (by rw [happlication, Option.isSome_some])

/-- Rearranging a run, whatever the assembly before it:

1. each call is answered alike, wherever it stands in the two runs;
2. the same diagnostics are collected, if maybe in another order;
3. at the end, either no application was set in both runs, or the models are equal and have the same
   text, byte by byte. -/
theorem run_rearranged (a : Assembly) {calls others : List Call} (h : Rearranged calls others) :
    (∀ i j : Nat, calls[i]? = others[j]? → (a.run calls).2[i]? = (a.run others).2[j]?) ∧
      (Answer.diagnostics (a.run calls).2).Perm (Answer.diagnostics (a.run others).2) ∧
      ((∃ reason, (a.run calls).1.freeze = .error (.incompleteModel reason) ∧
          (a.run others).1.freeze = .error (.incompleteModel reason)) ∨
        ∃ m n, (a.run calls).1.freeze = .ok m ∧ (a.run others).1.freeze = .ok n ∧ m = n ∧
          m.toToml.toUTF8 = n.toToml.toUTF8) := by
  refine ⟨?_, ?_, ?_⟩
  · intro i j hcall
    rw [answers_run, answers_run, List.getElem?_map, List.getElem?_map, hcall]
  · rw [answers_run, answers_run]
    exact (h.perm.map Call.answer).filterMap _
  · rw [h.run_eq a]
    rcases freeze_cases (a.run others).1 with ⟨reason, hreason⟩ | ⟨m, hm⟩
    · left
      exact ⟨reason, hreason, hreason⟩
    · right
      exact ⟨m, m, hm, hm, rfl, rfl⟩

/-- Refused calls, a rejected descriptor, two applications, a property that is overridden, and keys
that are given twice. -/
def earlyKeys : List Call :=
  [.addKeys .excluded [.plain "g" "a", .plain "g" "b"],
   .merge "bad" (.ofList [("excluded-artifacts", "g:c, c")]),
   .setApplication ⟨.plain "g" "old", "1"⟩,
   .addKey .localProject (.plain "" "a"),
   .addProperties [("k", "1")],
   .merge "good" (.ofList [("parent-first-artifacts", "g:p"), ("excluded-artifacts", "g:a")]),
   .addDependency .runtime (.ofArtifact ⟨.plain "g" "a", "1"⟩),
   .addDependencies .deployment [.ofArtifact ⟨.plain "g" "d", "1"⟩],
   .addDependency .runtime (.ofArtifact ⟨.plain "g" "c", "1"⟩),
   .setApplication ⟨.plain "g" "app", "2"⟩,
   .addProperties [("k", "2")]]

/-- The same calls with the keys and descriptors last and the lanes one after the other. -/
def lateKeys : List Call :=
  [.addProperties [("k", "1")],
   .addProperties [("k", "2")],
   .addDependencies .deployment [.ofArtifact ⟨.plain "g" "d", "1"⟩],
   .addDependency .runtime (.ofArtifact ⟨.plain "g" "a", "1"⟩),
   .addDependency .runtime (.ofArtifact ⟨.plain "g" "c", "1"⟩),
   .setApplication ⟨.plain "g" "old", "1"⟩,
   .setApplication ⟨.plain "g" "app", "2"⟩,
   .merge "good" (.ofList [("parent-first-artifacts", "g:p"), ("excluded-artifacts", "g:a")]),
   .addKey .localProject (.plain "" "a"),
   .merge "bad" (.ofList [("excluded-artifacts", "g:c, c")]),
   .addKeys .excluded [.plain "g" "a", .plain "g" "b"]]

theorem run_rearranged_late_keys :
    Rearranged earlyKeys lateKeys ∧
      ∃ m n, (empty.run earlyKeys).1.freeze = .ok m ∧ (empty.run lateKeys).1.freeze = .ok n ∧
        m = n ∧ m.toToml.toUTF8 = n.toToml.toUTF8 ∧
        m.runtime = [.ofArtifact ⟨.plain "g" "c", "1"⟩] := by
  have hrearranged : Rearranged earlyKeys lateKeys := by
    constructor
    · decide
    · intro lane
      rcases lane with _ | _ | list
      · decide
      · decide
      · cases list <;> decide
  refine ⟨hrearranged, ?_⟩
  rcases run_rearranged empty hrearranged with ⟨_, _, hboth⟩
  rcases hboth with ⟨reason, hreason, _⟩ | ⟨m, n, hm, hn, hmodels, htexts⟩
  · cases hreason
  · refine ⟨m, n, hm, hn, hmodels, htexts, ?_⟩
    cases hm
    decide

end Classpath.Assembly
