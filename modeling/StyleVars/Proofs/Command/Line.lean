import Mathlib.Data.List.TakeWhile
import StyleVars.Command.Arguments
import StyleVars.Proofs.Result
import StyleVars.Proofs.Text.Utf8

/-!
Command lines by what they say. Their parts may stand in any order, except that the directories to
search keep theirs, and a path may stand in the argument of its flag or behind it. Paths are of any
bytes. A line that gives a flag an empty path is turned down; every other one is understood as it
was meant.
-/

namespace StyleVars.Command

open Utf8 (Bytes)

/-! ### The parts of a command line -/

inductive Part where
  | path (flag : PathFlag) (p : Path)
  | switch (s : Switch)
  | reference (text : Text)
deriving DecidableEq

def Flag.longName : Flag → Bytes
  | path .loadPath => Utf8.encode "load-path".toList
  | path .containing => Utf8.encode "from".toList
  | path .config => Utf8.encode "config".toList
  | path .output => Utf8.encode "output".toList
  | switch .convertCase => Utf8.encode "convert-case".toList
  | switch .resolveLinks => Utf8.encode "resolve-internal-links".toList
  | switch .quoteKeys => Utf8.encode "stringify-keys".toList
  | switch .verbose => Utf8.encode "verbose".toList
  | switch .help => Utf8.encode "help".toList
  | switch .version => Utf8.encode "version".toList

/-- A flag in its long form. -/
def Flag.longForm (f : Flag) : Bytes := hyphen :: hyphen :: f.longName

/-- The arguments in which a part is given. -/
inductive Given : Part → List Bytes → Prop where
  | joined (flag : PathFlag) (p : Path) :
      Given (.path flag p) [(Flag.path flag).longForm ++ equals :: p.bytes]
  | apart (flag : PathFlag) {p : Path} : Draft.looksLikeFlag p.bytes = false →
      Given (.path flag p) [(Flag.path flag).longForm, p.bytes]
  | switch (s : Switch) : Given (.switch s) [(Flag.switch s).longForm]
  | reference {text : Text} : Draft.looksLikeFlag (Utf8.encode text) = false →
      Given (.reference text) [Utf8.encode text]

/-- A command line with its parts. A reference at the end may stand behind two hyphens, and has to
if it looks like a flag. -/
inductive Line : List Part → List Bytes → Prop where
  | nil : Line [] []
  | cons {p : Part} {ps : List Part} {as bs : List Bytes} :
      Given p as → Line ps bs → Line (p :: ps) (as ++ bs)
  | last (text : Text) : Line [.reference text] [[hyphen, hyphen], Utf8.encode text]

namespace Part

def path? (flag : PathFlag) : Part → Option Path
  | path f p => if f = flag then some p else none
  | _ => none

def switch? : Part → Option Switch
  | switch s => some s
  | _ => none

def reference? : Part → Option Text
  | reference text => some text
  | _ => none

lemma path?_eq_some_iff {flag : PathFlag} {part : Part} {p : Path} :
    part.path? flag = some p ↔ part = path flag p := by
  cases part <;> simp [path?]

end Part

/-! ### What was understood -/

namespace Choices

/-- The paths that belong to a flag. -/
def paths (c : Choices) : PathFlag → List Path
  | .loadPath => c.loadPaths
  | .containing => c.containing.toList
  | .config => c.config.toList
  | .output => c.output.toList

/-- How often a flag is there. -/
def times (c : Choices) : Switch → Nat
  | .convertCase => c.convertCase.toNat
  | .resolveLinks => c.resolveLinks.toNat
  | .quoteKeys => c.quoteKeys.toNat
  | .verbose => c.verbosity
  | .help => 0
  | .version => 0

lemma eq_of_paths_of_times {c d : Choices} (hpaths : ∀ flag, c.paths flag = d.paths flag)
    (htimes : ∀ s, c.times s = d.times s) : c = d := by
  have toList_inj {o o' : Option Path} (h : o.toList = o'.toList) : o = o' := by
    cases o <;> cases o' <;> simp_all
  have toNat_inj {b b' : Bool} (h : b.toNat = b'.toNat) : b = b' := by
    cases b <;> cases b' <;> simp_all
  cases c
  cases d
  simp only [Choices.mk.injEq]
  exact ⟨hpaths .loadPath, toList_inj (hpaths .containing), toNat_inj (htimes .convertCase),
    toNat_inj (htimes .resolveLinks), toNat_inj (htimes .quoteKeys), toList_inj (hpaths .config),
    toList_inj (hpaths .output), htimes .verbose⟩

/-- A path that is not empty is taken if choices with more paths for its flag are possible. -/
lemma setPath_eq_ok {c e : Choices} {flag : PathFlag} {p : Path} (hp : p ≠ ⟨[]⟩)
    (hroom : (c.paths flag).length < (e.paths flag).length) :
    ∃ c', c.setPath flag p = .ok c' ∧
      (∀ f, c'.paths f = c.paths f ++ ((Part.path flag p).path? f).toList) ∧
      ∀ s, c'.times s = c.times s := by
  have hempty : p.bytes.isEmpty = false := by
    rw [List.isEmpty_eq_false_iff]
    exact fun h => hp (by cases p; cases h; rfl)
  have hnone {o o' : Option Path} (h : o.toList.length < o'.toList.length) : o = none := by
    cases o <;> cases o' <;> simp_all
  simp only [setPath, hempty]
  cases flag with
  | loadPath =>
    refine ⟨_, rfl, fun f => ?_, fun s => by cases s <;> rfl⟩
    cases f <;> simp [paths, Part.path?]
  | _ =>
    have hold := hnone hroom
    refine ⟨_, by rw [hold]; rfl, fun f => ?_, fun s => by cases s <;> rfl⟩
    cases f <;> simp [paths, Part.path?, hold]

/-- A switch is turned on if choices in which it is there more often are possible. -/
lemma turnOn_eq_ok {c e : Choices} {s : Switch} (hroom : c.times s < e.times s) :
    ∃ c', c.turnOn s = .ok c' ∧ (∀ flag, c'.paths flag = c.paths flag) ∧
      ∀ t, c'.times t = c.times t + if s = t then 1 else 0 := by
  have hfalse {b b' : Bool} (h : b.toNat < b'.toNat) : b = false := by
    cases b <;> cases b' <;> simp_all
  cases s with
  | help => exact absurd hroom (Nat.lt_irrefl 0)
  | version => exact absurd hroom (Nat.lt_irrefl 0)
  | verbose =>
    refine ⟨_, rfl, fun flag => by cases flag <;> rfl, fun t => ?_⟩
    cases t <;> simp [times]
  | _ =>
    have hold := hfalse hroom
    refine ⟨_, by rw [turnOn, hold]; rfl, fun flag => by cases flag <;> rfl, fun t => ?_⟩
    cases t <;> simp [times, hold]

end Choices

/-! ### One part after another -/

namespace Flag

lemma ofLong?_longName (f : Flag) : ofLong? f.longName = some f := by
  rcases f with p | s
  · cases p <;> decide
  · cases s <;> decide

lemma longName_ne_nil (f : Flag) : f.longName ≠ [] := by
  rcases f with p | s
  · cases p <;> decide
  · cases s <;> decide

lemma ne_equals_of_mem_longName (f : Flag) : ∀ b ∈ f.longName, (b != equals) = true := by
  refine List.all_eq_true.mp ?_
  rcases f with p | s
  · cases p <;> decide
  · cases s <;> decide

end Flag

namespace Draft

/-- What a part adds to what has been understood. -/
def add (d : Draft) : Part → Except Halt Draft
  | .path flag p => d.setPath flag p
  | .switch s => return { d with choices := ← d.choices.turnOn s }
  | .reference text => d.operand (Utf8.encode text)

variable {d : Draft}

lemma operand_encode (d : Draft) (text : Text) :
    d.operand (Utf8.encode text) =
      match d.reference with
      | none => .ok { d with reference := some text }
      | some _ => .error .usage := by
  rw [operand, Utf8.decode?_encode]
  cases d.reference <;> rfl

/-- A flag in its long form is looked up by its name, which ends where an equals sign begins a
value. -/
lemma step_long (hd : d.stage = .anything) (f : Flag) (rest : Bytes) :
    d.step (f.longForm ++ rest) = d.long (f.longName ++ rest) := by
  obtain ⟨b, bs, hname⟩ := List.exists_cons_of_ne_nil f.longName_ne_nil
  rw [step.eq_def, hd, Flag.longForm, hname]
  rfl

lemma long_joined (flag : PathFlag) (p : Path) :
    d.long ((Flag.path flag).longName ++ equals :: p.bytes) = d.setPath flag p := by
  have hname := (Flag.path flag).ne_equals_of_mem_longName
  rw [long, List.takeWhile_append_of_pos hname, List.dropWhile_append_of_pos hname]
  simp [Flag.ofLong?_longName]

/-- A flag in its long form without a value. -/
lemma step_alone (hd : d.stage = .anything) (f : Flag) :
    d.step f.longForm =
      match f with
      | .path flag => .ok { d with stage := .value flag }
      | .switch s => d.add (.switch s) := by
  have hname := f.ne_equals_of_mem_longName
  have hstep := step_long hd f []
  rw [List.append_nil, List.append_nil] at hstep
  rw [hstep, long, List.takeWhile_eq_self_iff.mpr hname, List.dropWhile_eq_nil_iff.mpr hname,
    Flag.ofLong?_longName]
  cases f <;> rfl

lemma step_value {flag : PathFlag} (hd : d.stage = .value flag) {p : Path}
    (h : looksLikeFlag p.bytes = false) : d.step p.bytes = d.setPath flag p := by
  rw [step.eq_def, hd]
  simp [h]

lemma step_operand (hd : d.stage = .anything) {a : Bytes} (h : looksLikeFlag a = false) :
    d.step a = d.operand a := by
  rw [step.eq_def, hd]
  dsimp only
  split
  · cases h
  · cases h
  · cases h
  · rfl

lemma foldlM_pair {e : Draft} {a : Bytes} (h : d.step a = .ok e) (b : Bytes) :
    [a, b].foldlM step d = e.step b := by
  have hb : [b].foldlM step e = e.step b := bind_pure _
  rw [List.foldlM_cons, h]
  exact hb

/-- The arguments of a part add what the part says. -/
lemma foldlM_of_given (hd : d.stage = .anything) {part : Part} {as : List Bytes}
    (h : Given part as) : as.foldlM step d = d.add part := by
  cases h with
  | joined flag p =>
    rw [List.foldlM_cons, step_long hd, long_joined]
    simp [add]
  | @apart flag p hp =>
    rw [foldlM_pair (step_alone hd (.path flag)), step_value rfl hp]
    rfl
  | switch s =>
    rw [List.foldlM_cons, step_alone hd (.switch s)]
    simp
  | reference htext =>
    rw [List.foldlM_cons, step_operand hd htext]
    simp [add]

lemma stage_of_add (hd : d.stage = .anything) {part : Part} {d' : Draft}
    (h : d.add part = .ok d') : d'.stage = .anything := by
  cases part with
  | path flag p =>
    obtain ⟨c, -, hc⟩ := bind_eq_ok_iff.mp h
    cases hc
    rfl
  | switch s =>
    obtain ⟨c, -, hc⟩ := bind_eq_ok_iff.mp h
    cases hc
    exact hd
  | reference text =>
    rw [add, operand_encode] at h
    split at h
    · cases h
      exact hd
    · cases h

/-- Behind two hyphens the last argument is a reference, whatever it looks like. -/
lemma finish_of_last (hd : d.stage = .anything) (text : Text) :
    [[hyphen, hyphen], Utf8.encode text].foldlM step d >>= finish =
      d.operand (Utf8.encode text) >>= finish := by
  have hhyphens : d.step [hyphen, hyphen] = .ok { d with stage := .operand } := by
    rw [step.eq_def, hd]
    rfl
  have hoperand : Draft.step { d with stage := .operand } (Utf8.encode text) =
      Draft.operand { d with stage := .operand } (Utf8.encode text) := rfl
  rw [foldlM_pair hhyphens, hoperand, operand_encode, operand_encode]
  obtain ⟨stage, choices, reference⟩ := d
  cases hd
  cases reference <;> rfl

/-- **A command line is read part by part.** -/
lemma finish_of_line (hd : d.stage = .anything) {ps : List Part} {as : List Bytes}
    (h : Line ps as) : as.foldlM step d >>= finish = ps.foldlM add d >>= finish := by
  induction h generalizing d with
  | nil => rfl
  | @cons p ps as bs hp _ ih =>
    rw [List.foldlM_append, foldlM_of_given hd hp, List.foldlM_cons, bind_assoc, bind_assoc]
    cases hadd : d.add p with
    | error e => rfl
    | ok d' => exact ih (stage_of_add hd hadd)
  | last text =>
    rw [finish_of_last hd]
    simp [add]

end Draft

/-! ### Whole lines -/

/-- With the parts `ps` still to come, the draft `d` says what the arguments `a` say. -/
structure Completes (ps : List Part) (d : Draft) (a : Arguments) : Prop where
  paths : ∀ flag, d.choices.paths flag ++ ps.filterMap (·.path? flag) = a.paths flag
  times : ∀ s, d.choices.times s + (ps.filterMap (·.switch?)).count s = a.times s
  references : d.reference.toList ++ ps.filterMap (·.reference?) = [a.reference]

/-- The command line says what the arguments say: each path behind its flag, in any order of the
flags but with the directories to search in theirs, each switch, and the reference. -/
def Says (as : List Bytes) (a : Arguments) : Prop := ∃ ps, Line ps as ∧ Completes ps {} a

/-- A flag is given an empty path. -/
def Arguments.HasEmptyPath (a : Arguments) : Prop := ∃ flag, ⟨[]⟩ ∈ a.paths flag

namespace Completes

variable {part : Part} {ps : List Part} {d : Draft} {a : Arguments}

lemma step_path {flag : PathFlag} {p : Path} (h : Completes (.path flag p :: ps) d a)
    (hp : p ≠ ⟨[]⟩) : ∃ d', d.setPath flag p = .ok d' ∧ Completes ps d' a := by
  have hroom : (d.choices.paths flag).length < (a.paths flag).length := by
    rw [← h.paths flag]
    simp [Part.path?]
  obtain ⟨c, hc, hpaths, htimes⟩ := Choices.setPath_eq_ok hp hroom
  refine ⟨{ d with stage := .anything, choices := c }, ?_, fun f => ?_, fun s => ?_, h.references⟩
  · rw [Draft.setPath, hc]
    rfl
  · rw [← h.paths f, hpaths f, List.append_assoc]
    cases hf : (Part.path flag p).path? f <;> simp [hf]
  · rw [← h.times s, htimes s]
    rfl

lemma step_switch {s : Switch} (h : Completes (.switch s :: ps) d a) :
    ∃ c, d.choices.turnOn s = .ok c ∧ Completes ps { d with choices := c } a := by
  have hroom : d.choices.times s < a.times s := by
    rw [← h.times s]
    simp [Part.switch?]
  obtain ⟨c, hc, hpaths, htimes⟩ := Choices.turnOn_eq_ok hroom
  refine ⟨c, hc, fun f => ?_, fun t => ?_, h.references⟩
  · rw [← h.paths f, hpaths f]
    rfl
  · rw [← h.times t, htimes t]
    simp [Part.switch?, List.count_cons]
    omega

lemma step_reference {text : Text} (h : Completes (.reference text :: ps) d a) :
    ∃ d', d.operand (Utf8.encode text) = .ok d' ∧ Completes ps d' a := by
  have hnone : d.reference = none := by
    have hreferences := h.references
    cases hreference : d.reference with
    | none => rfl
    | some r => simp [hreference, Part.reference?] at hreferences
  refine ⟨{ d with reference := some text }, ?_, h.paths, h.times, ?_⟩
  · rw [Draft.operand_encode, hnone]
  · have hreferences := h.references
    simpa [hnone, Part.reference?] using hreferences

/-- A part that gives no empty path is understood. -/
lemma step (h : Completes (part :: ps) d a) (hpart : ∀ flag, part ≠ .path flag ⟨[]⟩) :
    ∃ d', d.add part = .ok d' ∧ Completes ps d' a := by
  cases part with
  | path flag p =>
    refine h.step_path ?_
    rintro rfl
    exact hpart flag rfl
  | switch s =>
    obtain ⟨c, hc, hrest⟩ := h.step_switch
    refine ⟨_, ?_, hrest⟩
    rw [Draft.add, hc]
    rfl
  | reference text => exact h.step_reference

lemma finish (h : Completes [] d a) (hd : d.stage = .anything) : d.finish = .ok a := by
  have hchoices : d.choices = a.toChoices := by
    refine Choices.eq_of_paths_of_times (fun flag => ?_) (fun s => ?_)
    · rw [← h.paths flag]
      simp
    · rw [← h.times s]
      simp
  have hreference : d.reference = some a.reference := by
    have hreferences := h.references
    cases hr : d.reference <;> simp_all
  rw [Draft.finish, hd, hreference, hchoices]

/-- Parts without an empty path are understood as they are meant. -/
lemma run (h : Completes ps d a) (hd : d.stage = .anything)
    (hps : ∀ flag, .path flag ⟨[]⟩ ∉ ps) : ps.foldlM Draft.add d >>= Draft.finish = .ok a := by
  induction ps generalizing d with
  | nil => exact h.finish hd
  | cons part ps ih =>
    have hpart : ∀ flag, part ≠ .path flag ⟨[]⟩ := fun flag hflag => hps flag (by simp [hflag])
    obtain ⟨d', hadd, hrest⟩ := h.step hpart
    rw [List.foldlM_cons, hadd]
    exact ih hrest (Draft.stage_of_add hd hadd) fun flag hflag => hps flag (by simp [hflag])

/-- Parts with an empty path are turned down. -/
lemma run_empty (h : Completes ps d a) (hd : d.stage = .anything) {flag : PathFlag}
    (hps : .path flag ⟨[]⟩ ∈ ps) : ps.foldlM Draft.add d >>= Draft.finish = .error .usage := by
  induction ps generalizing d with
  | nil => cases hps
  | cons part ps ih =>
    by_cases hpart : ∃ flag, part = .path flag ⟨[]⟩
    · obtain ⟨flag, rfl⟩ := hpart
      rfl
    · obtain ⟨d', hadd, hrest⟩ := h.step (not_exists.mp hpart)
      have hmem := (List.mem_cons.mp hps).resolve_left fun he => hpart ⟨flag, he.symm⟩
      rw [List.foldlM_cons, hadd]
      exact ih hrest (Draft.stage_of_add hd hadd) hmem

lemma hasEmptyPath_iff (h : Completes ps {} a) :
    a.HasEmptyPath ↔ ∃ flag, .path flag ⟨[]⟩ ∈ ps := by
  refine exists_congr fun flag => ?_
  rw [← h.paths flag]
  have hstart : Choices.paths {} flag = [] := by cases flag <;> rfl
  simp [hstart, Part.path?_eq_some_iff]

end Completes

/-- **What a command line says is what is understood**, unless a flag is given an empty path. -/
theorem parse_of_says {as : List Bytes} {a : Arguments} (h : Says as a) :
    (¬ a.HasEmptyPath → Arguments.parse as = .ok a) ∧
      (a.HasEmptyPath → Arguments.parse as = .error .usage) := by
  obtain ⟨ps, hline, hcompletes⟩ := h
  have hparse : Arguments.parse as = ps.foldlM Draft.add {} >>= Draft.finish :=
    Draft.finish_of_line rfl hline
  rw [hparse, hcompletes.hasEmptyPath_iff]
  refine ⟨fun hps => hcompletes.run rfl (not_exists.mp hps), ?_⟩
  rintro ⟨flag, hflag⟩
  exact hcompletes.run_empty rfl hflag

end StyleVars.Command
