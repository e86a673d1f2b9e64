import StyleVars.Proofs.Command.Line
import StyleVars.Proofs.Command.Run

/-!
Settings given in a file. A run comes to the same whether a directory to search or a switch is given
in the settings file or on the command line, or a switch in both places.
-/

namespace StyleVars.Command

open FileState (Yields)
open Utf8 (Bytes)

/-- The arguments that say all that the settings file says, without a settings file. -/
def Arguments.withSettings (a : Arguments) (o : Settings) : Arguments :=
  { a with
    loadPaths := o.loadPaths ++ a.loadPaths
    convertCase := o.convertCase || a.convertCase
    resolveLinks := o.resolveLinks || a.resolveLinks
    quoteKeys := o.quoteKeys || a.quoteKeys
    config := none }

/-- What is merged is the same, wherever it was said. The rule that the working directory is
searched where there is nowhere else to search looks at all directories together. -/
lemma mergeSettings_withSettings {a : Arguments} {o : Settings} (h : o.limits = .standard)
    (config : Option Path) :
    mergeSettings (a.withSettings o).toChoices {} =
      mergeSettings { a.toChoices with config := config } o := by
  simp only [mergeSettings, Arguments.withSettings, h, List.nil_append, Bool.false_or]
  rfl

section

variable {σ : Type} [FileState σ] {s : σ} {p : Path} {x : Text} {o : Settings}

lemma executed_withSettings (hx : FileState.textAt s p = .ok x) (ho : Settings.read x = .ok o)
    (hlimits : o.limits = .standard) (a : Arguments) :
    executed { a with config := some p } s = executed (a.withSettings o) s := by
  have hfile : Yields (readSettings (some p)).run s (.ok o) :=
    settingsAt_of_read hx ho ▸ yields_readSettings (some p) s
  have hnone : Yields (readSettings none).run s (.ok {}) := .pure s _
  have hmerge := mergeSettings_withSettings (a := a) hlimits (some p)
  rw [executed, executed, execute, execute, hfile.run_bind_ok]
  refine Eq.trans ?_ (hnone.run_bind_ok _).symm
  rw [hmerge]
  rfl

lemma hasEmptyPath_withSettings (hp : p ≠ ⟨[]⟩) (hpaths : ⟨[]⟩ ∉ o.loadPaths) (a : Arguments) :
    Arguments.HasEmptyPath { a with config := some p } ↔ (a.withSettings o).HasEmptyPath := by
  refine exists_congr fun flag => ?_
  cases flag <;> simp [Choices.paths, Arguments.withSettings, hpaths, hp.symm]

lemma run_of_usage {as : List Bytes} (h : Arguments.parse as = .error .usage) :
    (run as : StateM σ Outcome).run s = (.failed .usage, s) := by
  rw [run, h]
  rfl

/-- **A settings file and flags are interchangeable**: a run with a settings file comes to the same
as the run without one whose flags say themselves what the file says. -/
theorem run_withSettings {a : Arguments} {as bs : List Bytes} (hp : p ≠ ⟨[]⟩)
    (hx : FileState.textAt s p = .ok x) (ho : Settings.read x = .ok o)
    (hlimits : o.limits = .standard) (hpaths : ⟨[]⟩ ∉ o.loadPaths)
    (has : Says as { a with config := some p }) (hbs : Says bs (a.withSettings o)) :
    (run as : StateM σ Outcome).run s = (run bs : StateM σ Outcome).run s := by
  obtain ⟨has, hasEmpty⟩ := parse_of_says has
  obtain ⟨hbs, hbsEmpty⟩ := parse_of_says hbs
  have hempty := hasEmptyPath_withSettings hp hpaths a
  by_cases h : (a.withSettings o).HasEmptyPath
  · rw [run_of_usage (hasEmpty (hempty.mpr h)), run_of_usage (hbsEmpty h)]
  · rw [run_eq (has (mt hempty.mp h)), run_eq (hbs h), executed_withSettings hx ho hlimits]

end

/-- A settings file with a directory to search and a switch. -/
def directoryAndSwitch : Text := "\x7b\"loadPaths\": [\"d\"], \"convertCase\": true\x7d".toList

/-- A disk with this settings file and with a document in the second of two directories. -/
def twoDirectories : Disk where
  root := .directory
    [(Utf8.encode "c.json".toList, .file (Utf8.encode directoryAndSwitch)),
      (Utf8.encode "d".toList, .directory []),
      (Utf8.encode "e".toList,
        .directory [(Utf8.encode "a.json".toList, .file (Utf8.encode "[1]".toList))])]
  workingNames := []

/-- What is said besides the settings file; the switch is said twice, and the importing file has a
path that is no text. -/
def besideFile : Arguments :=
  ⟨{ loadPaths := [.ofText "e".toList], containing := some rawPath, convertCase := true },
    "a.json".toList⟩

/-- The line with the settings file, and the line that says the same in another order. -/
def interchangeable : List Bytes × List Bytes :=
  (Utf8.encode "--from".toList :: rawPath.bytes ::
      ["--config", "c.json", "--load-path=e", "--convert-case", "a.json"].map
        fun a => Utf8.encode a.toList,
    (Utf8.encode "--from=".toList ++ rawPath.bytes) ::
      ["a.json", "--load-path=d", "--convert-case", "--load-path", "e"].map
        fun a => Utf8.encode a.toList)

theorem run_withSettings_twoDirectories :
    FileState.textAt twoDirectories (.ofText "c.json".toList) = .ok directoryAndSwitch ∧
      Settings.read directoryAndSwitch =
        .ok { loadPaths := [.ofText "d".toList], convertCase := true } ∧
      Says interchangeable.1 { besideFile with config := some (.ofText "c.json".toList) } ∧
      Says interchangeable.2
        (besideFile.withSettings { loadPaths := [.ofText "d".toList], convertCase := true }) ∧
      (run interchangeable.1 : StateM Disk Outcome).run twoDirectories =
        (run interchangeable.2 : StateM Disk Outcome).run twoDirectories := by
  have hx : FileState.textAt twoDirectories (.ofText "c.json".toList) =
      .ok directoryAndSwitch := by decide +kernel
  have ho : Settings.read directoryAndSwitch =
      .ok { loadPaths := [.ofText "d".toList], convertCase := true } := by decide +kernel
  have has : Says interchangeable.1
      { besideFile with config := some (.ofText "c.json".toList) } := by
    refine ⟨[.path .containing rawPath, .path .config (.ofText "c.json".toList),
      .path .loadPath (.ofText "e".toList), .switch .convertCase, .reference "a.json".toList],
      .cons (.apart .containing rfl) (.cons (.apart .config rfl) (.cons (.joined .loadPath _)
        (.cons (.switch .convertCase) (.cons (.reference rfl) .nil)))), ?_, ?_, rfl⟩
    · intro flag
      cases flag <;> rfl
    · intro s
      cases s <;> rfl
  have hbs : Says interchangeable.2
      (besideFile.withSettings { loadPaths := [.ofText "d".toList], convertCase := true }) := by
    refine ⟨[.path .containing rawPath, .reference "a.json".toList,
      .path .loadPath (.ofText "d".toList), .switch .convertCase,
      .path .loadPath (.ofText "e".toList)],
      .cons (.joined .containing _) (.cons (.reference rfl) (.cons (.joined .loadPath _)
        (.cons (.switch .convertCase) (.cons (.apart .loadPath rfl) .nil)))), ?_, ?_, rfl⟩
    · intro flag
      cases flag <;> rfl
    · intro s
      cases s <;> rfl
  exact ⟨hx, ho, has, hbs, run_withSettings (by decide) hx ho rfl (by decide) has hbs⟩

end StyleVars.Command
