import Classpath.Proofs.Json.Lines
import Classpath.Proofs.Plan.Deployment

namespace Classpath.Command

/-! # Handing a model over

One program assembles a model into a file, and others load, inspect and verify it there. All of them
speak of the model that the plan stands for, and none of them needs the plan again.

1. **Lines**: where the fingerprint is in what the commands print.
2. **Deliveries**: a run that saves a model differs from one that prints it in the delivery only.
3. **The other side**: what is found in the file. -/

/-! ## Lines -/

/-- A text has a line after its first one. -/
def HasLine (text line : String) : Prop :=
  ∃ before after, text = before ++ "\n" ++ line ++ "\n" ++ after

theorem hasLine_linesText (first line : String) (lines : List String) :
    HasLine (linesText (first :: line :: lines)) line := by
  refine ⟨first, linesText lines, ?_⟩
  simp only [linesText, List.map_cons, String.join_cons, String.append_assoc]

theorem hasLine_summary (colours : Bool) (m : Model) :
    HasLine (linesText (summaryLines colours m)) s!"  Fingerprint: {m.fingerprint}" :=
  hasLine_linesText _ _ _

/-- A text in a table has a line of its own, which ends with a comma if more follows. -/
theorem hasLine_write (before : List (String × Document)) (key value : String)
    (e : String × Document) (es : List (String × Document)) :
    HasLine (linesText [Json.write (.table (before ++ (key, .text value) :: e :: es))])
      (String.ofList ("  ".toList ++ Json.writtenText key ++ ": ".toList ++
        Json.writtenText value ++ [','])) := by
  obtain ⟨above, habove⟩ := Json.writtenEntries_append 1 before (key, .text value) (e :: es)
  obtain ⟨below, hbelow⟩ := Json.writtenEntries_cons 1 e es
  have htable := Json.written_table 0 (before ++ (key, .text value) :: e :: es) (by simp)
  refine ⟨String.ofList ('\x7b' :: above),
    String.ofList (below ++ Json.newline 0 ++ ['\x7d', '\n']), ?_⟩
  rw [Json.write, htable, habove, Json.writtenEntries_cons_cons, hbelow, Json.written]
  apply String.toList_injective
  simp [linesText, Json.newline, List.replicate]

theorem writtenText_fingerprint (m : Model) :
    Json.writtenText m.fingerprint = '"' :: m.fingerprint.toList ++ ['"'] := by
  refine Json.writtenText_of_plain fun c hc => ?_
  rw [Model.fingerprint, String.toList_append, List.mem_append] at hc
  rcases hc with hname | hdigit
  · have hplain : ("sha256:".toList.all fun c => Json.escaped c = [c]) = true := by decide
    exact of_decide_eq_true (List.all_eq_true.1 hplain c hname)
  · rw [Digest.sha256Hex, String.toList_ofList] at hdigit
    obtain ⟨b, -, hb⟩ := List.mem_flatMap.1 hdigit
    exact Json.escaped_of_mem_hexByte hb

theorem hasLine_summaryDocument (m : Model) :
    HasLine (linesText [Json.write (summaryDocument m)])
      s!"  \"fingerprint\": \"{m.fingerprint}\"," := by
  have hname : Json.writtenText "fingerprint" = "\"fingerprint\"".toList := by decide
  have hline : s!"  \"fingerprint\": \"{m.fingerprint}\"," =
      String.ofList ("  ".toList ++ Json.writtenText "fingerprint" ++ ": ".toList ++
        Json.writtenText m.fingerprint ++ [',']) := by
    rw [hname, writtenText_fingerprint]
    apply String.toList_injective
    simp [toString]
  rw [hline]
  exact hasLine_write [("app_artifact", .text m.application.token)] "fingerprint" m.fingerprint _ _

/-! ## Deliveries -/

variable {colours strict : Bool} {files : FileTree} {plan out : Path} {m : Model}

/-- A run that assembles a model successfully would deliver the same one anywhere. -/
theorem runAssemble_eq_deliver {output : Option Path}
    (h : (runAssemble colours files plan output strict).result = .ok ()) :
    ∃ p m errors events, Plan.load files plan = .ok p ∧ (p.assemble files).result = .ok m ∧
      ∀ output, runAssemble colours files plan output strict =
        deliver colours files m output errors events := by
  cases hplan : Plan.load files plan with
  | error failure =>
    rw [runAssemble, hplan] at h
    exact absurd h (by simp [Run.failed])
  | ok p =>
    cases hmodel : (p.assemble files).result with
    | error failure =>
      rw [runAssemble, hplan] at h
      simp only [hmodel] at h
      exact absurd h (by simp)
    | ok m =>
      by_cases hrejected : strict = true ∧ (p.assemble files).diagnostics ≠ []
      · rw [runAssemble, hplan] at h
        simp only [hmodel, if_pos hrejected] at h
        exact absurd h (by simp)
      · refine ⟨p, m, linesText ((p.assemble files).diagnostics.map (warningLine colours)),
          p.loadedEvent plan :: (p.assemble files).events, rfl, hmodel, fun output => ?_⟩
        rw [runAssemble, hplan]
        simp only [hmodel, if_neg hrejected]

/-- A model that was saved is what its file holds. -/
theorem find_of_deliver {errors : String} {events : List Event}
    (h : (deliver colours files m (some out) errors events).result = .ok ()) :
    (deliver colours files m (some out) errors events).files.find out =
      .ok (.file m.fileText.toUTF8) := by
  cases hwritten : files.replace out m.fileText.toUTF8 with
  | mk written result =>
    cases result with
    | error failure =>
      rw [deliver, Model.save, hwritten] at h
      exact absurd h (by simp)
    | ok _ =>
      rw [deliver, Model.save, hwritten]
      exact FileTree.find_of_replace hwritten

/-! ## The other side -/

/-- The failure of a check of a model in which so many dependencies are missing. -/
def lacking (count : Nat) : Failure :=
  ⟨[], .fault (.brokenInvariant
    s!"{count} deployment dependency(ies) missing from the full deployment list")⟩

/-- What others find under the path where the model of a plan was saved, if `text` is what printing
the model would have given:

1. the file holds the text below the warning, and what is loaded from it is the model;
2. each command that shows the fingerprint shows that of the model, the hash of the text;
3. the model is accepted if its plan lists all deployment artifacts that are not left out, and is
   refused for as many as it does not list otherwise. -/
structure HandedOver (files written : FileTree) (p : Plan) (m : Model) (out : Path)
    (text : String) : Prop where
  stored : written.find out =
    .ok (.file ("# Generated application model - DO NOT EDIT\n" ++ text).toUTF8)
  loaded : Model.load written out = .ok m
  hashed : m.fingerprint = "sha256:" ++ Digest.sha256Hex text.toUTF8.data.toList
  summarized : ∀ colours, (run colours written (.inspect out .text)).result = .ok () ∧
    HasLine (run colours written (.inspect out .text)).output s!"  Fingerprint: {m.fingerprint}"
  documented : ∀ colours, (run colours written (.inspect out .json)).result = .ok () ∧
    HasLine (run colours written (.inspect out .json)).output
      s!"  \"fingerprint\": \"{m.fingerprint}\","
  confirmed : ∀ colours expected, (run colours written (.verify out expected)).result = .ok () →
    HasLine (run colours written (.verify out expected)).output m.fingerprint
  accepted : ∀ colours, (run colours written (.verify out none)).result = .ok () ↔
    ∀ x ∈ p.named .deployment, ¬ p.Excludes files x → x ∈ p.named .fullDeployment
  refused : ∀ colours, (run colours written (.verify out none)).result ≠ .ok () →
    (run colours written (.verify out none)).result =
      .error (lacking (p.unlisted files).length)

theorem runInspect_of_load {written : FileTree} (h : Model.load written out = .ok m) :
    runInspect colours written out .text =
        .printed written (linesText (summaryLines colours m)) ∧
      runInspect colours written out .json =
        .printed written (linesText [Json.write (summaryDocument m)]) := by
  rw [runInspect, runInspect, h]
  exact ⟨rfl, rfl⟩

theorem hasLine_runVerify {written : FileTree} (h : Model.load written out = .ok m)
    {expected : Option String} (hok : (runVerify colours written out expected).result = .ok ()) :
    HasLine (runVerify colours written out expected).output m.fingerprint := by
  obtain ⟨hnone, hsame⟩ := (runVerify_eq_ok_iff h colours expected).1 hok
  rw [runVerify, h]
  simp only [hnone, hsame, ne_eq, not_true_eq_false, if_false]
  exact hasLine_linesText _ _ _

/-- Verifying against nothing can only fail for what is missing. -/
theorem runVerify_refused {written : FileTree} (h : Model.load written out = .ok m)
    (hfailed : (runVerify colours written out none).result ≠ .ok ()) :
    (runVerify colours written out none).result = .error (lacking m.missingDeployment.length) := by
  have hmissing : m.missingDeployment ≠ [] := by
    intro hnone
    exact hfailed ((runVerify_eq_ok_iff h colours none).2 ⟨hnone, rfl⟩)
  rw [runVerify, h]
  simp only [if_pos hmissing]
  rfl

/-- Whoever reads a file into which a plan was assembled finds the model of the plan, as it would
have been printed. -/
theorem assemble_hands_over
    (h : (run colours files (.assemble plan (some out) strict)).result = .ok ()) :
    ∃ p m, Plan.load files plan = .ok p ∧ (p.assemble files).result = .ok m ∧
      (run colours files (.assemble plan none strict)).result = .ok () ∧
      HandedOver files (run colours files (.assemble plan (some out) strict)).files p m out
        (run colours files (.assemble plan none strict)).output := by
  obtain ⟨p, m, errors, events, hplan, hmodel, hrun⟩ := runAssemble_eq_deliver h
  obtain ⟨a, ha, hm⟩ := Plan.assemble_eq_ok hmodel
  obtain ⟨maps, hreplayed⟩ := Plan.replayed_of_replay ha
  have hkeys : m.KeysComplete := Assembly.keysComplete_freeze hreplayed.sound hm
  have hmissing := Plan.missingDeployment_of_replay ha hm
  simp only [run, hrun] at h ⊢
  refine ⟨p, m, hplan, hmodel, rfl, ?_⟩
  have hstored := find_of_deliver h
  generalize (deliver colours files m (some out) errors events).files = written at hstored ⊢
  have hload : Model.load written out = .ok m :=
    Model.load_of_readText hkeys (FileTree.readText_of_find hstored)
  constructor
  · exact hstored
  · exact hload
  · rfl
  · intro colours
    rw [run, (runInspect_of_load hload).1]
    exact ⟨rfl, hasLine_summary colours m⟩
  · intro colours
    rw [run, (runInspect_of_load hload).2]
    exact ⟨rfl, hasLine_summaryDocument m⟩
  · intro colours expected hok
    exact hasLine_runVerify hload hok
  · intro colours
    rw [run, runVerify_eq_ok_iff hload, ← Plan.unlisted_eq_nil_iff, ← hmissing,
      List.map_eq_nil_iff]
    exact and_iff_left rfl
  · intro colours hfailed
    rw [run, runVerify_refused hload hfailed, ← hmissing, List.length_map]

/-- A plan with two deployment dependencies: one is listed in some version, and an extension
excludes the other one in its descriptor file. -/
def planTree (version : String) : FileTree :=
  let text := "app_artifact = 'g:z:1'\n" ++
    "deployment_deps = [\x7bartifact = 'g:a:1'\x7d, \x7bartifact = 'g:b:1'\x7d]\n" ++
    "full_deployment_deps = [\x7bartifact = 'g:a:" ++ version ++ "'\x7d]\n" ++
    "[[extensions]]\nname = 'e'\ndescriptor = 'd'\n"
  ((FileTree.empty []).plant ["p"] (.file text.toUTF8)).plant ["d"]
    (.file "excluded-artifacts=g:b".toUTF8)

/-- The plan in this tree. -/
def listingPlan (version : String) : Plan where
  application := "g:z:1"
  localProject := []
  properties := ∅
  runtime := []
  deployment := [⟨"g:a:1", none, true, false⟩, ⟨"g:b:1", none, true, false⟩]
  fullDeployment := [⟨"g:a:" ++ version, none, true, false⟩]
  extensions := [⟨"e", none, some "d"⟩]
  source := "p"
  base := ""

/-- The run that assembles this plan. -/
def planRun (version : String) : Run :=
  run false (planTree version) (.assemble "p" (some "m") true)

theorem assemble_hands_over_versioned :
    ((planRun "1").result = .ok () ∧ ∃ m, Model.load (planRun "1").files "m" = .ok m ∧
      (run false (planRun "1").files (.verify "m" none)).result = .ok ()) ∧
      (planRun "2").result = .ok () ∧
        (run false (planRun "2").files (.verify "m" none)).result =
          .error ⟨[], .fault (.brokenInvariant
            "1 deployment dependency(ies) missing from the full deployment list")⟩ := by
  constructor
  · have hload : Plan.load (planTree "1") "p" = .ok (listingPlan "1") := by decide +kernel
    have hok : (planRun "1").result = .ok () := by
      rw [planRun, run, runAssemble, hload]
      decide +kernel
    obtain ⟨p, m, hplan, -, -, hm⟩ := assemble_hands_over hok
    cases hload.symm.trans hplan
    refine ⟨hok, m, hm.loaded, (hm.accepted false).2 ?_⟩
    decide +kernel
  · have hload : Plan.load (planTree "2") "p" = .ok (listingPlan "2") := by decide +kernel
    have hok : (planRun "2").result = .ok () := by
      rw [planRun, run, runAssemble, hload]
      decide +kernel
    obtain ⟨p, m, hplan, -, -, hm⟩ := assemble_hands_over hok
    cases hload.symm.trans hplan
    have hone : ((listingPlan "2").unlisted (planTree "2")).length = 1 := by decide +kernel
    have hrefused : (run false (planRun "2").files (.verify "m" none)).result ≠ .ok () := by
      intro haccepted
      have hnone := Plan.unlisted_eq_nil_iff.2 ((hm.accepted false).1 haccepted)
      rw [hnone] at hone
      exact absurd hone (by decide)
    refine ⟨hok, ?_⟩
    have hfailure := hm.refused false hrefused
    rw [hone] at hfailure
    exact hfailure

end Classpath.Command
