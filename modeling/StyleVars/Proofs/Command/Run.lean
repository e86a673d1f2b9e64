import StyleVars.Command.Run
import StyleVars.Proofs.Import.Loading

/-!
How runs of the program end. Everything that can fail is tried before the stylesheet goes anywhere:
so a run that fails has printed nothing and changed nothing, and its code tells whether it was the
search that failed.
-/

namespace StyleVars.Command

open FileState (Yields)
open Import (canonicalize load LoadError Loaded)

variable {σ : Type} [FileState σ]

/-! ### How far a run comes -/

/-- The settings and the URL of the importing file with which the search begins. -/
structure Prepared (a : Arguments) (s : σ) (o : Settings) (u : Option Url) : Prop where
  settings : ∃ r, Yields (readSettings a.config).run s (.ok r) ∧ o = mergeSettings a.toChoices r
  context : Yields (containingUrl a.containing).run s (.ok u)

/-- The search begins and comes to `found`. -/
def Finds (a : Arguments) (s : σ) (o : Settings) (found : Option Locator) : Prop :=
  ∃ u, Prepared a s o u ∧ Yields (canonicalize o a.reference u) s found

/-- The search begins and there is no document. -/
def Misses (a : Arguments) (s : σ) : Prop := ∃ o, Finds a s o none

/-- A document is found, and its load comes to `r`. -/
def Loads (a : Arguments) (s : σ) (r : Except LoadError Loaded) : Prop :=
  ∃ o l, Finds a s o (some l) ∧ Yields (load o l) s r

/-- What is printed or written. -/
def sheetText (loaded : Loaded) : Text := loaded.contents ++ ['\n']

/-- The settings, the context, the document or the output fails. -/
inductive Fails (a : Arguments) (s : σ) : Prop where
  | settings {f : Failure} (h : Yields (readSettings a.config).run s (.error f))
  | context {r : Settings} {f : Failure} (hr : Yields (readSettings a.config).run s (.ok r))
    (h : Yields (containingUrl a.containing).run s (.error f))
  | document {e : LoadError} (h : Loads a s (.error e))
  | output {loaded : Loaded} {p : Path} {f : Fault} (h : Loads a s (.ok loaded))
    (hp : a.output = some p) (hf : Yields (p.writeText (sheetText loaded)) s (.error f))

/-- The text is printed, or else one file receives it. -/
def Delivers [FileState.Lawful σ] (output : Option Path) (text : Text) (s s' : σ)
    (printed : Text) : Prop :=
  match output with
  | none => printed = text ∧ s' = s
  | some p => printed = [] ∧ FileState.Receives s p s' (Utf8.encode text)

/-! ### Parts of a run -/

/-- What comes of reading the settings. -/
def settingsAt (s : σ) : Option Path → Except Failure Settings
  | none => .ok {}
  | some p =>
    match FileState.textAt s p with
    | .error f => .error (.unreadableSettings p f)
    | .ok x => (Settings.read x).mapError (.invalidSettings p)

lemma settingsAt_of_read {s : σ} {p : Path} {x : Text} {o : Settings}
    (hx : FileState.textAt s p = .ok x) (ho : Settings.read x = .ok o) :
    settingsAt s (some p) = .ok o := by
  rw [settingsAt, hx]
  dsimp only
  rw [ho]
  rfl

lemma code_of_settingsAt_eq_error {config : Option Path} {s : σ} {f : Failure}
    (h : settingsAt s config = .error f) : f.code = 1 := by
  cases config with
  | none => cases h
  | some p =>
    rw [settingsAt] at h
    split at h
    · cases h
      rfl
    · next x _ =>
      cases hx : Settings.read x <;> rw [hx] at h <;> cases h
      rfl

/-- Reading the settings changes nothing. -/
lemma yields_readSettings (config : Option Path) (s : σ) :
    Yields (readSettings config).run s (settingsAt s config) := by
  cases config with
  | none => exact .pure s _
  | some p =>
    refine ((FileState.yields_readText s p).run_lift_bind _).trans ?_
    rw [settingsAt]
    cases FileState.textAt s p with
    | error f => rfl
    | ok x =>
      dsimp only
      cases Settings.read x <;> rfl

/-- What comes of making the context. -/
def contextAt (s : σ) : Option Path → Except Failure (Option Url)
  | none => .ok none
  | some p =>
    if p.bytes = [] then .error (.unresolved p .emptyPath)
    else match p.fromRoot (FileState.workingDirectory s) with
      | .error f => .error (.unresolved p f)
      | .ok path =>
        match Url.ofPath? path with
        | some u => .ok (some u)
        | none => .error (.noUrl path)

lemma code_of_contextAt_eq_error {containing : Option Path} {s : σ} {f : Failure}
    (h : contextAt s containing = .error f) : f.code = 1 := by
  cases containing with
  | none => cases h
  | some p =>
    rw [contextAt] at h
    split at h
    · cases h
      rfl
    · split at h
      · cases h
        rfl
      · split at h <;> cases h
        rfl

/-- Making the context changes nothing. -/
lemma yields_containingUrl (containing : Option Path) (s : σ) :
    Yields (containingUrl containing).run s (contextAt s containing) := by
  cases containing with
  | none => exact .pure s _
  | some p =>
    rw [containingUrl, contextAt]
    split
    · exact .pure s _
    · refine ((FileState.yields_workingDirectory s).run_lift_bind _).trans ?_
      cases p.fromRoot (FileState.workingDirectory s) with
      | error f => rfl
      | ok path =>
        dsimp only
        cases Url.ofPath? path <;> rfl

/-- **A context fails only for want of a working directory**, and then only for a relative path. -/
theorem contextAt_eq_error_iff {s : σ} {p : Path} {f : Failure} (hp : p.bytes ≠ [])
    (hcwd : ∀ d, FileState.workingDirectory s = .ok d → d.isAbsolute = true) :
    contextAt s (some p) = .error f ↔
      p.isAbsolute = false ∧
        ∃ e, FileState.workingDirectory s = .error e ∧ f = .unresolved p e := by
  have hurl {q : Path} (hq : q.isAbsolute = true) : ∃ u, Url.ofPath? q = some u :=
    ⟨_, if_pos hq⟩
  rw [contextAt, if_neg hp, Path.fromRoot]
  cases habsolute : p.isAbsolute with
  | true =>
    obtain ⟨u, hu⟩ := hurl habsolute
    simp [hu]
  | false =>
    cases hwork : FileState.workingDirectory s with
    | error e => simp [Except.map, eq_comm]
    | ok d =>
      obtain ⟨u, hu⟩ := hurl (q := d.join p) (by rw [Path.isAbsolute_join, hcwd d hwork]; simp)
      simp [Except.map, hu]

/-- A disk whose working directory has been taken away. -/
example : contextAt (⟨.directory [], [Utf8.encode "w".toList]⟩ : Disk) (some (.ofText "a".toList)) =
    .error (.unresolved (.ofText "a".toList) .notFound) := by decide +kernel

lemma yields_deliver {s : σ} {p : Path} {text : Text} {f : Fault}
    (h : Yields (p.writeText text) s (.error f)) :
    Yields (deliver (some p) text).run s (.error (.unwritable p f)) :=
  h.run_lift_bind _

/-- A text is delivered as a whole, or its file cannot be written. -/
lemma run_deliver [FileState.Lawful σ] (output : Option Path) (text : Text) (s : σ) :
    (∃ p f, output = some p ∧ Yields (p.writeText text) s (.error f)) ∨
      ∃ printed s',
        (deliver output text : ExceptT Failure (StateM σ) Text).run.run s = (.ok printed, s') ∧
          Delivers output text s s' printed := by
  cases output with
  | none => exact .inr ⟨text, s, rfl, rfl, rfl⟩
  | some p =>
    rcases FileState.run_writeText s p text with ⟨f, hf⟩ | ⟨s', hrun, hwrite⟩
    · exact .inl ⟨p, f, rfl, hf⟩
    · have hdeliver :
          (deliver (some p) text : ExceptT Failure (StateM σ) Text).run.run s = (.ok [], s') := by
        rw [deliver, FileState.run_lift_bind, hrun]
        rfl
      exact .inr ⟨[], s', hdeliver, rfl, FileState.Lawful.of_write hwrite⟩

/-! ### The whole run -/

variable {a : Arguments} {s : σ}

variable (a s) in
/-- What comes of a run with these arguments. -/
def executed : Except Failure Text × σ := (execute a : ExceptT Failure (StateM σ) Text).run.run s

lemma executed_of_misses (h : Misses a s) :
    executed a s = (.error (.notFound a.reference), s) := by
  obtain ⟨_, u, ⟨⟨r, hr, rfl⟩, hu⟩, hfound⟩ := h
  rw [executed, execute, hr.run_bind_ok, hu.run_bind_ok, hfound.run_lift_bind]
  rfl

/-- What a run does with what it has loaded. -/
def conclude (a : Arguments) : Except LoadError Loaded → ExceptT Failure (StateM σ) Text
  | .error e => throw (.notLoaded e)
  | .ok loaded => deliver a.output (sheetText loaded)

lemma executed_of_loads {r : Except LoadError Loaded} (h : Loads a s r) :
    executed a s = (conclude a r).run.run s := by
  obtain ⟨_, l, ⟨u, ⟨⟨q, hq, rfl⟩, hu⟩, hfound⟩, hload⟩ := h
  rw [executed, execute, hq.run_bind_ok, hu.run_bind_ok, hfound.run_lift_bind,
    hload.run_lift_bind]
  cases r <;> rfl

lemma executed_of_fails (h : Fails a s) : ∃ f, f.code = 1 ∧ executed a s = (.error f, s) := by
  cases h with
  | @settings f h =>
    have hsettings := (yields_readSettings a.config s).unique h
    exact ⟨f, code_of_settingsAt_eq_error hsettings, h.bind_error _⟩
  | @context r f hr h =>
    have hcontext := (yields_containingUrl a.containing s).unique h
    exact ⟨f, code_of_contextAt_eq_error hcontext, (hr.run_bind_ok _).trans (h.bind_error _)⟩
  | @document e h => exact ⟨.notLoaded e, rfl, executed_of_loads h⟩
  | @output loaded p f h hp hf =>
    refine ⟨.unwritable p f, rfl, (executed_of_loads h).trans ?_⟩
    rw [conclude, hp]
    exact yields_deliver hf

/-- The settings and the context are there, or else the run fails. -/
lemma fails_or_prepared (a : Arguments) (s : σ) : Fails a s ∨ ∃ o u, Prepared a s o u := by
  have hsettings := yields_readSettings a.config s
  have hcontext := yields_containingUrl a.containing s
  cases hr : settingsAt s a.config with
  | error f => exact .inl (.settings (hr ▸ hsettings))
  | ok r =>
    cases hu : contextAt s a.containing with
    | error f => exact .inl (.context (hr ▸ hsettings) (hu ▸ hcontext))
    | ok u => exact .inr ⟨_, u, ⟨r, hr ▸ hsettings, rfl⟩, hu ▸ hcontext⟩

/-- Something comes of the search. -/
lemma misses_or_loads {o : Settings} {u : Option Url} (h : Prepared a s o u) :
    Misses a s ∨ ∃ r, Loads a s r := by
  obtain ⟨found, hfound⟩ := Import.exists_yields_canonicalize s a.reference o u
  cases found with
  | none => exact .inl ⟨o, u, h, hfound⟩
  | some l => exact .inr ⟨_, o, l, ⟨u, h, hfound⟩, Import.yields_load s o l⟩

/-- A run that neither misses nor fails delivers what it has loaded. -/
lemma misses_or_fails_or_delivers [FileState.Lawful σ] (a : Arguments) (s : σ) :
    Misses a s ∨ Fails a s ∨ ∃ loaded printed s', Loads a s (.ok loaded) ∧
      executed a s = (.ok printed, s') ∧ Delivers a.output (sheetText loaded) s s' printed := by
  rcases fails_or_prepared a s with hf | ⟨o, u, hprepared⟩
  · exact .inr (.inl hf)
  · rcases misses_or_loads hprepared with hm | ⟨r, hloads⟩
    · exact .inl hm
    · cases r with
      | error e => exact .inr (.inl (.document hloads))
      | ok loaded =>
        rcases run_deliver a.output (sheetText loaded) s with
          ⟨p, f, hp, hf⟩ | ⟨printed, s', hrun, hdelivers⟩
        · exact .inr (.inl (.output hloads hp hf))
        · have hexecuted := (executed_of_loads hloads).trans hrun
          exact .inr (.inr ⟨loaded, printed, s', hloads, hexecuted, hdelivers⟩)

/-! ### Codes -/

/-- The end of a run that comes to `r`. -/
def outcomeOf : Except Failure Text → Outcome
  | .error f => .failed f
  | .ok printed => .success printed

lemma run_eq {as : List Utf8.Bytes} (h : Arguments.parse as = .ok a) :
    (run as : StateM σ Outcome).run s = (outcomeOf (executed a s).1, (executed a s).2) := by
  rw [run, h]
  have hexecuted : (execute a : ExceptT Failure (StateM σ) Text).run.run s = executed a s := rfl
  dsimp only
  rw [FileState.run_bind, hexecuted]
  cases (executed a s).1 <;> rfl

/-- **The code of a run tells how it ends**: it is 2 when the search began and there is no document,
1 when the settings, the context, the document or the output fails, and 0 in every other case. A run
with the code 0 prints the stylesheet or writes it to one file, and changes nothing else; any other
run prints nothing and changes nothing. -/
theorem run_code [FileState.Lawful σ] {as : List Utf8.Bytes}
    (h : Arguments.parse as = .ok a) (s : σ) :
    ∃ outcome s', (run as : StateM σ Outcome).run s = (outcome, s') ∧
      (outcome.code = 2 ↔ Misses a s) ∧
      (outcome.code = 1 ↔ Fails a s) ∧
      (outcome.code = 0 ↔ ¬ Misses a s ∧ ¬ Fails a s) ∧
      (outcome.code = 0 → ∃ loaded, Loads a s (.ok loaded) ∧
        Delivers a.output (sheetText loaded) s s' outcome.printed) ∧
      (outcome.code ≠ 0 → outcome.printed = [] ∧ s' = s) := by
  refine ⟨_, _, run_eq h, ?_⟩
  have hmisses (hm : Misses a s) : executed a s = (.error (.notFound a.reference), s) :=
    executed_of_misses hm
  have hfails (hf : Fails a s) : ∃ f, f.code = 1 ∧ executed a s = (.error f, s) :=
    executed_of_fails hf
  -- a run ends in one of the three ways, and by what it comes to it excludes the other two
  rcases misses_or_fails_or_delivers a s with
    hm | hf | ⟨loaded, printed, s', hloads, hok, hdelivers⟩
  · rw [hmisses hm] at hfails ⊢
    have hf : ¬ Fails a s := by
      intro hf
      obtain ⟨f, hcode, hsame⟩ := hfails hf
      cases hsame
      cases hcode
    simp [outcomeOf, Outcome.failed, Failure.code, hm, hf]
  · obtain ⟨f, hcode, hexecuted⟩ := hfails hf
    rw [hexecuted] at hmisses ⊢
    have hm : ¬ Misses a s := by
      intro hm
      cases hmisses hm
      cases hcode
    simp [outcomeOf, Outcome.failed, hcode, hm, hf]
  · rw [hok] at hmisses hfails ⊢
    have hm : ¬ Misses a s := fun hm => by cases hmisses hm
    have hf : ¬ Fails a s := fun hf => by
      obtain ⟨f, -, hsame⟩ := hfails hf
      cases hsame
    simp only [outcomeOf, Outcome.success, hm, hf]
    simpa using ⟨loaded, hloads, hdelivers⟩

/-- A path that is no text. -/
def rawPath : Path := ⟨Utf8.encode "b".toList ++ [0xFF]⟩

/-- Arguments with a document and a file to write to. -/
def writingArguments : List Utf8.Bytes :=
  [Utf8.encode "a.json".toList, Utf8.encode "-o".toList, rawPath.bytes]

theorem run_code_writingArguments :
    ∃ a, Arguments.parse writingArguments = .ok a ∧
      ∃ outcome s', (run writingArguments : StateM Disk Outcome).run Import.oneDocument =
          (outcome, s') ∧
        (outcome.code = 2 ↔ Misses a Import.oneDocument) ∧
        (outcome.code = 1 ↔ Fails a Import.oneDocument) ∧
        (outcome.code = 0 ↔ ¬ Misses a Import.oneDocument ∧ ¬ Fails a Import.oneDocument) ∧
        (outcome.code = 0 → ∃ loaded, Loads a Import.oneDocument (.ok loaded) ∧
          Delivers a.output (sheetText loaded) Import.oneDocument s' outcome.printed) ∧
        (outcome.code ≠ 0 → outcome.printed = [] ∧ s' = Import.oneDocument) := by
  have h : Arguments.parse writingArguments =
      .ok ⟨{ output := some rawPath }, "a.json".toList⟩ := by decide +kernel
  exact ⟨_, h, run_code h Import.oneDocument⟩

end StyleVars.Command
