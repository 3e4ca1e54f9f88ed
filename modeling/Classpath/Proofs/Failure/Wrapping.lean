import Classpath.Failure

namespace Classpath

/-! # Reports on failures in contexts

On its way to the user a failure gathers contexts, which say what was being done and are no causes.
The report is about the cause, however many contexts are around it.

1. **Chains**: a failure is a chain of links, its contexts and then its cause, and the report is
   what a search of it finds: a finished report first, then a fault, then a fault of the system.
2. **Wrapping**: each context becomes the outermost link, so a search passes all of them over.
3. **Reports**: what the contexts add to the report on each kind of cause. -/

variable {α : Type}

/-- A fault is reported as it is, unless it comes from writing: then its message is. -/
theorem Fault.reported_eq (fault : Fault) :
    fault.reported =
      match fault with
      | .unwritable _ => .other fault.message
      | _ => fault := by
  cases fault <;> rfl

theorem Fault.usualDetails_reported (fault : Fault) :
    fault.reported.usualDetails = fault.usualDetails := by
  cases fault <;> rfl

theorem Fault.usualSuggestion_reported (fault : Fault) :
    fault.reported.usualSuggestion = fault.usualSuggestion := by
  cases fault <;> rfl

namespace Failure

/-! ## Chains -/

/-- The report that is the cause. -/
def Cause.report? : Cause → Option Report
  | .report r => some r
  | _ => none

/-- The fault that is the cause. -/
def Cause.fault? : Cause → Option Fault
  | .fault f => some f
  | _ => none

/-- The kind of the fault of the system that is the cause. -/
def Cause.kind? : Cause → Option SystemFault
  | .system kind _ => some kind
  | _ => none

/-- The links of a failure, the outermost first: contexts are messages, the cause is the last. -/
def chain (f : Failure) : List Cause :=
  f.contexts.map .message ++ [f.cause]

theorem text_eq_join_chain (f : Failure) : f.text = Text.join ": " (f.chain.map Cause.text) := by
  simp [text, chain, Function.comp_def, Cause.text]

theorem head?_chain (f : Failure) : f.chain.head?.map Cause.text = some f.outermost := by
  rw [chain, outermost]
  cases f.contexts <;> rfl

/-- What no message is, is not found among messages. -/
theorem findSome?_messages {g : Cause → Option α} (h : ∀ text, g (.message text) = none)
    (contexts : List String) : (contexts.map Cause.message).findSome? g = none := by
  rw [List.findSome?_map, List.findSome?_eq_none_iff]
  exact fun text _ => h text

theorem findSome?_chain {g : Cause → Option α} (h : ∀ text, g (.message text) = none)
    (f : Failure) : f.chain.findSome? g = g f.cause := by
  rw [chain, List.findSome?_append, findSome?_messages h]
  cases hcause : g f.cause <;> simp [hcause]

/-- The report on a failure is found in its chain, by looking for one thing after the other. -/
theorem report_eq_found (f : Failure) :
    f.report =
      match f.chain.findSome? Cause.report?, f.chain.findSome? Cause.fault? with
      | some r, _ => { r with fault := r.fault.reported }
      | none, some fault => reportOn fault f.outermost
      | none, none =>
        ⟨.other f.text, none, (f.chain.findSome? Cause.kind?).bind systemSuggestion⟩ := by
  have hreport := findSome?_chain (g := Cause.report?) (fun _ => rfl) f
  have hfault := findSome?_chain (g := Cause.fault?) (fun _ => rfl) f
  have hkind := findSome?_chain (g := Cause.kind?) (fun _ => rfl) f
  rw [hreport, hfault, hkind, report]
  cases f.cause <;> rfl

/-! ## Wrapping -/

/-- A failure in contexts, each put around it with the ones before. -/
def wrapped (f : Failure) (contexts : List String) : Failure :=
  contexts.foldl within f

/-- The contexts stand before the chain, the last one first. -/
theorem chain_wrapped (f : Failure) (contexts : List String) :
    (f.wrapped contexts).chain = contexts.reverse.map .message ++ f.chain := by
  induction contexts generalizing f with
  | nil => rfl
  | cons context contexts ih =>
    have hnext : f.wrapped (context :: contexts) = (f.within context).wrapped contexts := rfl
    have hlink : (f.within context).chain = .message context :: f.chain := rfl
    rw [hnext, ih, hlink]
    simp

/-- A search finds in the chain what it found before the failure was wrapped. -/
theorem findSome?_wrapped {g : Cause → Option α} (h : ∀ text, g (.message text) = none)
    (f : Failure) (contexts : List String) :
    (f.wrapped contexts).chain.findSome? g = f.chain.findSome? g := by
  rw [chain_wrapped, List.findSome?_append, findSome?_messages h, Option.none_or]

theorem outermost_wrapped (f : Failure) (contexts : List String) :
    (f.wrapped contexts).outermost = contexts.getLast?.getD f.outermost := by
  have hhead := head?_chain (f.wrapped contexts)
  rw [chain_wrapped, List.head?_append, List.head?_map, List.head?_reverse] at hhead
  cases hlast : contexts.getLast? with
  | none =>
    rw [hlast, Option.map_none, Option.none_or, head?_chain] at hhead
    exact (Option.some.inj hhead).symm
  | some context =>
    rw [hlast] at hhead
    exact (Option.some.inj hhead).symm

theorem text_wrapped (f : Failure) (contexts : List String) :
    (f.wrapped contexts).text =
      Text.join ": " (contexts.reverse ++ f.chain.map Cause.text) := by
  have htexts : (contexts.reverse.map Cause.message).map Cause.text = contexts.reverse := by
    simp [Function.comp_def, Cause.text]
  rw [text_eq_join_chain, chain_wrapped, List.map_append, htexts]

/-! ## Reports -/

/-- The report on a fault: the outermost message is told as details if there are no usual ones and
if it says more than the fault. -/
theorem reportOn_eq (fault : Fault) (outermost : String) :
    reportOn fault outermost =
      ⟨fault.reported, fault.usualDetails.or ((some outermost).filter (· ≠ fault.message)),
        fault.usualSuggestion⟩ := by
  rw [reportOn, Report.usual, fault.usualDetails_reported, fault.usualSuggestion_reported]
  cases fault.usualDetails with
  | some details => simp
  | none =>
    by_cases hsame : outermost = fault.message
    · simp [hsame, Option.filter]
    · simp [hsame, Option.filter]

theorem filter_outermost (contexts : List String) (message : String) :
    (some (contexts.getLast?.getD message)).filter (· ≠ message) =
      contexts.getLast?.filter (· ≠ message) := by
  cases contexts.getLast? with
  | none => simp
  | some context => simp

/-- What contexts, the first of them the innermost, add to the report on a failure.

1. A fault is reported with the suggestion that it has on its own. Its details are the usual ones,
   or else the outermost context, unless that says just what the fault says.
2. A finished report stays as it is.
3. A fault of the system is reported by all messages, the outermost first, without details, and the
   suggestion is that for its kind.
4. So is a message, without a suggestion. -/
theorem report_wrapped (contexts : List String) :
    (∀ fault : Fault, ((ofFault fault).wrapped contexts).report =
        ⟨match fault with
          | .unwritable _ => .other fault.message
          | _ => fault,
          fault.usualDetails.or (contexts.getLast?.filter (· ≠ fault.message)),
          (ofFault fault).report.suggestion⟩) ∧
      (∀ r : Report, ((ofReport r).wrapped contexts).report =
        ⟨match r.fault with
          | .unwritable _ => .other r.fault.message
          | _ => r.fault,
          r.details, r.suggestion⟩) ∧
      (∀ (kind : SystemFault) (words : String),
        ((⟨[], .system kind words⟩ : Failure).wrapped contexts).report =
          ⟨.other (Text.join ": " (contexts.reverse ++ [words])), none, systemSuggestion kind⟩) ∧
      ∀ words : String, ((ofMessage words).wrapped contexts).report =
        ⟨.other (Text.join ": " (contexts.reverse ++ [words])), none, none⟩ := by
  have hreport := fun f => findSome?_wrapped (g := Cause.report?) (fun _ => rfl) f contexts
  have hfault := fun f => findSome?_wrapped (g := Cause.fault?) (fun _ => rfl) f contexts
  have hkind := fun f => findSome?_wrapped (g := Cause.kind?) (fun _ => rfl) f contexts
  refine ⟨fun fault => ?_, fun r => ?_, fun kind words => ?_, fun words => ?_⟩
  · have houtermost : ((ofFault fault).wrapped contexts).outermost =
        contexts.getLast?.getD fault.message := outermost_wrapped _ contexts
    have hbare : (ofFault fault).report.suggestion = fault.usualSuggestion := by
      show (reportOn fault _).suggestion = _
      rw [reportOn_eq]
    have hreport : ((ofFault fault).wrapped contexts).report =
        reportOn fault ((ofFault fault).wrapped contexts).outermost := by
      rw [report_eq_found, hreport, hfault]
      rfl
    rw [hreport, houtermost, reportOn_eq, filter_outermost, hbare, ← fault.reported_eq]
  · rw [report_eq_found, hreport, ← r.fault.reported_eq]
    rfl
  · rw [report_eq_found, hreport, hfault, hkind, text_wrapped]
    rfl
  · rw [report_eq_found, hreport, hfault, hkind, text_wrapped]
    rfl

end Failure

end Classpath
