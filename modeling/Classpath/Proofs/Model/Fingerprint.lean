import Classpath.Proofs.Assembly.Deployment
import Classpath.Proofs.Model.Transport

namespace Classpath

/-! # What fingerprints tell apart

A fingerprint stands for the text of a model, and the text for the model. So two models have one
fingerprint only if they are equal or their texts collide under the hash function.

1. **Digits**: a hash is known from its digits.
2. **Models**: equal fingerprints, equal hashes, equal texts, equal models.
3. **Verifying**: which files pass for a model. -/

/-! ## Digits -/

namespace Text

theorem hexDigit_injective {m n : Nat} (hm : m < 16) (hn : n < 16)
    (h : hexDigit m = hexDigit n) : m = n := by
  have hvalue := congrArg hexDigit? h
  rw [hexDigit?_hexDigit m hm, hexDigit?_hexDigit n hn] at hvalue
  exact Option.some.inj hvalue

theorem hexByte_injective {b c : UInt8} (h : hexByte b = hexByte c) : b = c := by
  have hb := b.toNat_lt
  have hc := c.toNat_lt
  simp only [hexByte, List.cons.injEq, and_true] at h
  have hhigh := hexDigit_injective (by omega) (by omega) h.1
  have hlow := hexDigit_injective (by omega) (by omega) h.2
  apply UInt8.toNat_inj.1
  omega

theorem flatMap_hexByte_injective {bs cs : List UInt8} (h : bs.flatMap hexByte = cs.flatMap hexByte) :
    bs = cs := by
  induction bs generalizing cs with
  | nil =>
    cases cs with
    | nil => rfl
    | cons c cs => simp [hexByte] at h
  | cons b bs ih =>
    cases cs with
    | nil => simp [hexByte] at h
    | cons c cs =>
      rw [List.flatMap_cons, List.flatMap_cons] at h
      obtain ⟨hhead, htail⟩ := List.append_inj h rfl
      rw [hexByte_injective hhead, ih htail]

end Text

namespace Digest

/-- Different messages with one hash. -/
def Collision (message other : List UInt8) : Prop :=
  message ≠ other ∧ sha256 message = sha256 other

theorem sha256Hex_eq_iff {message other : List UInt8} :
    sha256Hex message = sha256Hex other ↔ message = other ∨ Collision message other := by
  constructor
  · intro h
    have hdigits := String.ofList_injective h
    have hhash := Text.flatMap_hexByte_injective hdigits
    by_cases hsame : message = other
    · left
      exact hsame
    · right
      exact ⟨hsame, hhash⟩
  · intro h
    rcases h with rfl | ⟨_, hhash⟩
    · rfl
    · unfold sha256Hex
      rw [hhash]

end Digest

/-! ## Models -/

namespace Model

/-- The bytes that a fingerprint is made of. -/
def encoding (m : Model) : List UInt8 :=
  m.toToml.toUTF8.data.toList

theorem toToml_of_encoding {m n : Model} (h : m.encoding = n.encoding) : m.toToml = n.toToml := by
  have hdata : m.toToml.toUTF8.data = n.toToml.toUTF8.data := Array.toList_inj.1 h
  have hbytes : m.toToml.toUTF8 = n.toToml.toUTF8 := ByteArray.ext hdata
  exact String.toByteArray_inj.1 hbytes

/-- No two models that a program holds have one text. -/
theorem Obtained.eq_of_encoding {m n : Model} (hm : Obtained m) (hn : Obtained n)
    (h : m.encoding = n.encoding) : m = n := by
  have hread : ofToml m.toToml = .ok m := ofToml_toToml hm.keysComplete
  have hother : ofToml n.toToml = .ok n := ofToml_toToml hn.keysComplete
  rw [toToml_of_encoding h, hother] at hread
  exact (Except.ok.inj hread).symm

theorem fingerprint_eq_iff {m n : Model} (hm : Obtained m) (hn : Obtained n) :
    m.fingerprint = n.fingerprint ↔ m = n ∨ Digest.Collision m.encoding n.encoding := by
  have hhex : m.fingerprint = n.fingerprint ↔
      Digest.sha256Hex m.encoding = Digest.sha256Hex n.encoding := by
    unfold fingerprint encoding
    exact String.append_right_inj _
  rw [hhex, Digest.sha256Hex_eq_iff]
  constructor
  · intro h
    rcases h with hsame | hcollision
    · exact Or.inl (hm.eq_of_encoding hn hsame)
    · exact Or.inr hcollision
  · intro h
    rcases h with rfl | hcollision
    · exact Or.inl rfl
    · exact Or.inr hcollision

/-! ## Verifying -/

/-- The model that a file with some content holds. -/
def Holds (m : Model) (content : ByteArray) : Prop :=
  ∃ text, String.fromUTF8? content = some text ∧ ofToml text = .ok m

theorem Holds.obtained {content : ByteArray} {m : Model} (h : m.Holds content) : m.Obtained := by
  obtain ⟨text, _, htext⟩ := h
  exact Obtained.read htext

theorem Holds.unique {content : ByteArray} {m n : Model} (hm : m.Holds content)
    (hn : n.Holds content) : m = n := by
  obtain ⟨text, htext, hread⟩ := hm
  obtain ⟨other, hother, hreadOther⟩ := hn
  rw [htext] at hother
  cases hother
  rw [hread] at hreadOther
  exact Except.ok.inj hreadOther

theorem ofSource_eq_ok_iff {source text : String} {m : Model} :
    ofSource source text = .ok m ↔ ofToml text = .ok m := by
  unfold ofToml ofSource
  rw [mapError_eq_ok, mapError_eq_ok]

theorem load_eq_ok_iff {files : FileTree} {path : Path} {content : ByteArray} {m : Model}
    (h : files.find path = .ok (.file content)) : load files path = .ok m ↔ m.Holds content := by
  unfold load FileTree.readText Holds
  rw [h]
  dsimp only
  cases String.fromUTF8? content with
  | none => simp
  | some text => simp [ofSource_eq_ok_iff]

end Model

namespace Command

/-- A fingerprint separates the model that it belongs to from all others:

1. another model that was built or read has it only if the texts of the two collide;
2. whatever a file holds, verifying it against the fingerprint succeeds if there is a model in it
   whose deployment artifacts are all in its full deployment list and that is this one, or one whose
   text collides with its text. -/
theorem fingerprint_separates {m : Model} (hm : m.Obtained) :
    (∀ other : Model, other.Obtained →
      (m.hasFingerprint other.fingerprint = true ↔
        m = other ∨ Digest.Collision m.encoding other.encoding)) ∧
    ∀ (files : FileTree) (path : Path) (content : ByteArray),
      files.find path = .ok (.file content) → ∀ colours,
        ((run colours files (.verify path (some m.fingerprint))).result = .ok () ↔
          ∃ found : Model, found.Holds content ∧
            (∀ d ∈ found.deployment, ∃ f ∈ found.fullDeployment, f.artifact = d.artifact) ∧
            (found = m ∨ Digest.Collision found.encoding m.encoding)) := by
  constructor
  · intro other hother
    unfold Model.hasFingerprint
    rw [decide_eq_true_eq]
    exact Model.fingerprint_eq_iff hm hother
  · intro files path content hfile colours
    constructor
    · intro hok
      cases hload : Model.load files path with
      | error failure =>
        simp [run, runVerify, hload, Run.failed] at hok
      | ok found =>
        obtain ⟨hnone, hsame⟩ := (runVerify_eq_ok_iff hload colours _).1 hok
        have hholds := (Model.load_eq_ok_iff hfile).1 hload
        exact ⟨found, hholds, found.missingDeployment_eq_nil_iff.1 hnone,
          (Model.fingerprint_eq_iff hholds.obtained hm).1 hsame.symm⟩
    · rintro ⟨found, hholds, hall, hsame⟩
      have hload := (Model.load_eq_ok_iff hfile).2 hholds
      have hfingerprint := (Model.fingerprint_eq_iff hholds.obtained hm).2 hsame
      exact (runVerify_eq_ok_iff hload colours _).2
        ⟨found.missingDeployment_eq_nil_iff.2 hall, hfingerprint.symm⟩

/-- The calls that make a model with one runtime dependency in some version. -/
def versionCalls (version : String) : List Assembly.Call :=
  [.setApplication ⟨.plain "g" "app", "1"⟩,
   .addDependency .runtime (.ofArtifact ⟨.plain "g" "a", version⟩)]

theorem fingerprint_separates_versions :
    ∃ m n, (Assembly.empty.run (versionCalls "1")).1.freeze = .ok m ∧
      (Assembly.empty.run (versionCalls "2")).1.freeze = .ok n ∧ m ≠ n ∧
      (m.hasFingerprint n.fingerprint = true → Digest.Collision m.encoding n.encoding) ∧
      (run false (Assembly.modelTree m) (.verify "m" (some m.fingerprint))).result = .ok () ∧
      ((run false (Assembly.modelTree n) (.verify "m" (some m.fingerprint))).result = .ok () →
        Digest.Collision n.encoding m.encoding) := by
  obtain ⟨m, hm⟩ : ∃ m, (Assembly.empty.run (versionCalls "1")).1.freeze = .ok m := ⟨_, rfl⟩
  obtain ⟨n, hn⟩ : ∃ n, (Assembly.empty.run (versionCalls "2")).1.freeze = .ok n := ⟨_, rfl⟩
  have hne : m ≠ n := by
    cases hm
    cases hn
    decide
  obtain ⟨hmatch, hverify⟩ := fingerprint_separates (.built hm)
  have hfile (x : Model) : (Assembly.modelTree x).find "m" = .ok (.file x.fileText.toUTF8) := rfl
  have hholds {x : Model} (hx : x.Obtained) : x.Holds x.fileText.toUTF8 := by
    refine (Model.load_eq_ok_iff (hfile x)).1 ?_
    exact Model.load_of_readText hx.keysComplete (Assembly.readText_modelTree x)
  refine ⟨m, n, hm, hn, hne, ?_, ?_, ?_⟩
  · intro h
    exact ((hmatch n (.built hn)).1 h).resolve_left hne
  · refine (hverify _ _ _ (hfile m) false).2 ⟨m, hholds (.built hm), ?_, Or.inl rfl⟩
    rw [← Model.missingDeployment_eq_nil_iff]
    cases hm
    rfl
  · intro h
    obtain ⟨found, hfound, -, hsame⟩ := (hverify _ _ _ (hfile n) false).1 h
    -- a file holds one model at most
    have heq : found = n := hfound.unique (hholds (.built hn))
    rw [heq] at hsame
    exact hsame.resolve_left (Ne.symm hne)

end Command

end Classpath
