import StyleVars.Import.Importer
import StyleVars.Proofs.Files.Tree
import StyleVars.Proofs.Import.Conversion
import StyleVars.Proofs.Import.Search
import StyleVars.Proofs.Text.Utf8

/-!
Loading the documents that were found. The path at which a document was found is the one that is
read; so if nothing has changed since then, there is a file to read, and all that can be wrong with
it is what it says.
-/

namespace StyleVars.Import

open FileState (Yields)

/-! ### Documents that were found -/

section

variable {σ : Type} [FileState σ] (s : σ) (roots : List Path) (reference : Text)
  (containing : Option Path)

lemma exists_yields_canonicalize (o : Settings) (containing : Option Url) :
    ∃ found, Yields (canonicalize o reference containing) s found := by
  by_cases hjson : isJsonFile reference = true
  · exact ⟨_, yields_resolve s _ _ _ hjson⟩
  · exact ⟨none, yields_resolve_of_not_json s _ _ _ hjson⟩

variable {s roots reference containing}

/-- A document is found where a path opens as a regular file. -/
lemma opens_of_resolve {l : Locator} (h : Yields (resolve roots reference containing) s (some l)) :
    FileState.opens s l.path = true := by
  obtain ⟨-, d, -, hd⟩ := exists_hit?_of_resolve h
  obtain ⟨path, ⟨-, hopens⟩, hl⟩ := (hit?_eq_some_iff s reference d l).mp hd
  rw [path_of_ofPath? hl]
  exact hopens

end

/-! ### What is loaded -/

/-- What comes of the text of a document, which could perhaps not be read. -/
def loadedFrom (o : Settings) (l : Locator) : Except Fault Text → Except LoadError Loaded
  | .error f => .error ⟨l.path, .unreadable f⟩
  | .ok text => (convert o l.path text).map fun contents => ⟨contents, .scss, l.url⟩

lemma yields_load {σ : Type} [FileState σ] (s : σ) (o : Settings) (l : Locator) :
    Yields (load o l) s (loadedFrom o l (FileState.textAt s l.path)) := by
  refine (FileState.yields_readText s l.path).bind ?_
  cases FileState.textAt s l.path with
  | error f => exact .pure s _
  | ok text =>
    simp only [loadedFrom]
    cases convert o l.path text <;> exact .pure s _

/-- Errors of a conversion name the document and are about what it says. -/
lemma of_convert_eq_error {o : Settings} {path : Path} {text : Text} {e : LoadError}
    (h : convert o path text = .error e) : e.path = path ∧ e.cause.phase ≠ .read := by
  cases hparse : Json.parse o.limits text with
  | error e' =>
    rw [convert_of_parse_error hparse] at h
    cases h
    exact ⟨rfl, by simp [Cause.phase]⟩
  | ok v =>
    rw [convert_of_parse_ok hparse] at h
    cases hsheet : sheetOf o path v with
    | error e' =>
      rw [hsheet] at h
      cases h
      exact ⟨rfl, by simp [Cause.phase]⟩
    | ok sheet =>
      rw [hsheet] at h
      cases h

lemma of_loadedFrom_eq_error {o : Settings} {l : Locator} {r : Except Fault Text} {e : LoadError}
    (h : loadedFrom o l r = .error e) :
    e.path = l.path ∧ (e.cause.phase = .read → ∃ f, r = .error f) := by
  cases r with
  | error f =>
    cases h
    exact ⟨rfl, fun _ => ⟨f, rfl⟩⟩
  | ok text =>
    rw [loadedFrom] at h
    cases hc : convert o l.path text with
    | error e' =>
      rw [hc] at h
      cases h
      obtain ⟨hpath, hphase⟩ := of_convert_eq_error hc
      exact ⟨hpath, fun hread => absurd hread hphase⟩
    | ok contents =>
      rw [hc] at h
      cases h

lemma source_of_loadedFrom_eq_ok {o : Settings} {l : Locator} {r : Except Fault Text}
    {loaded : Loaded} (h : loadedFrom o l r = .ok loaded) : loaded.source = l.url := by
  cases r with
  | error f => cases h
  | ok text =>
    rw [loadedFrom] at h
    cases hc : convert o l.path text with
    | error e =>
      rw [hc] at h
      cases h
    | ok contents =>
      rw [hc] at h
      cases h
      rfl

variable {σ : Type} [FileState σ] [FileState.Lawful σ] {s : σ}

/-- **A document that was found can be loaded**, if nothing has changed since then: reading it fails
only for bytes that are no text; otherwise the load is the conversion of the text. Its errors name
the path that was found, and what is loaded names the URL that was found. -/
theorem load_of_canonicalize {o : Settings} {reference : Text} {containing : Option Url}
    {l : Locator} (h : Yields (canonicalize o reference containing) s (some l)) :
    ∃ content result, FileState.read s l.path = .ok content ∧ Yields (load o l) s result ∧
      ((∃ e, result = .error e ∧ e.cause.phase = .read) ↔ ∀ text, content ≠ Utf8.encode text) ∧
      (∀ text, content = Utf8.encode text →
        result = (convert o l.path text).map fun contents => ⟨contents, .scss, l.url⟩) ∧
      (∀ e, result = .error e → e.path = l.path) ∧
      ∀ loaded, result = .ok loaded → loaded.source = l.url := by
  obtain ⟨hzero, content, hread⟩ := FileState.read_of_opens (opens_of_resolve h)
  have htextAt := FileState.textAt_of_read hzero hread
  have hok : ∀ text, content = Utf8.encode text → FileState.textAt s l.path = .ok text := by
    intro text htext
    rw [htextAt, Utf8.decode?_eq_some_iff.mpr htext]
  refine ⟨content, _, hread, yields_load s o l, ?_, ?_, ?_, ?_⟩
  · constructor
    · rintro ⟨e, he, hphase⟩ text htext
      obtain ⟨f, hf⟩ := (of_loadedFrom_eq_error he).2 hphase
      rw [hok text htext] at hf
      cases hf
    · intro hno
      have hnone : Utf8.decode? content = none := by
        cases hdecode : Utf8.decode? content with
        | none => rfl
        | some text => exact absurd (Utf8.decode?_eq_some_iff.mp hdecode) (hno text)
      rw [htextAt, hnone]
      exact ⟨_, rfl, rfl⟩
  · intro text htext
    rw [hok text htext, loadedFrom]
  · exact fun e he => (of_loadedFrom_eq_error he).1
  · exact fun loaded hloaded => source_of_loadedFrom_eq_ok hloaded

/-- A disk with one document. -/
def oneDocument : Disk where
  root := .directory [(Utf8.encode "a.json".toList, .file (Utf8.encode "[1]".toList))]
  workingNames := []

theorem load_of_canonicalize_oneDocument :
    ∃ l, Yields (canonicalize { loadPaths := [⟨[Path.dot]⟩] } "a.json".toList none) oneDocument
        (some l) ∧
      ∃ content result, FileState.read oneDocument l.path = .ok content ∧
        Yields (load { loadPaths := [⟨[Path.dot]⟩] } l) oneDocument result ∧
        ((∃ e, result = .error e ∧ e.cause.phase = .read) ↔
          ∀ text, content ≠ Utf8.encode text) ∧
        (∀ text, content = Utf8.encode text →
          result = (convert { loadPaths := [⟨[Path.dot]⟩] } l.path text).map
            fun contents => ⟨contents, .scss, l.url⟩) ∧
        (∀ e, result = .error e → e.path = l.path) ∧
        ∀ loaded, result = .ok loaded → loaded.source = l.url := by
  have h : Yields (canonicalize { loadPaths := [⟨[Path.dot]⟩] } "a.json".toList none) oneDocument
      (some ⟨.ofText "/a.json".toList, _⟩) := rfl
  exact ⟨_, h, load_of_canonicalize h⟩

end StyleVars.Import
