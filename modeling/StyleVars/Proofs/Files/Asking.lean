import Mathlib.Tactic.Lemma
import StyleVars.Files.State

/-!
What programs that only ask a file system come to. The state stays as it is, so a program goes on with
what the one before it has come to, as if that one had not run.
-/

namespace StyleVars.FileState

variable {σ ε α β : Type}

lemma run_bind (x : StateM σ α) (f : α → StateM σ β) (s : σ) :
    (x >>= f).run s = (f (x.run s).1).run (x.run s).2 := rfl

lemma run_lift_bind (x : StateM σ α) (f : α → ExceptT ε (StateM σ) β) (s : σ) :
    (liftM x >>= f).run.run s = (f (x.run s).1).run.run (x.run s).2 := rfl

/-- In the state `s` the program comes to `a` and changes nothing. -/
def Yields (x : StateM σ α) (s : σ) (a : α) : Prop := x.run s = (a, s)

namespace Yields

variable {x : StateM σ α} {s : σ} {a b : α} {e : ε}

lemma pure (s : σ) (a : α) : Yields (Pure.pure a) s a := rfl

lemma run_bind (h : Yields x s a) (f : α → StateM σ β) : (x >>= f).run s = (f a).run s := by
  have hbind : (x >>= f).run s = (f (x.run s).1).run (x.run s).2 := rfl
  rw [hbind, h]

lemma bind {f : α → StateM σ β} {c : β} (h : Yields x s a) (hf : Yields (f a) s c) :
    Yields (x >>= f) s c := by
  rw [Yields, h.run_bind]
  exact hf

lemma unique (ha : Yields x s a) (hb : Yields x s b) : a = b :=
  congrArg Prod.fst (ha.symm.trans hb)

/-- The search for a first hit comes to the first of what is found. -/
lemma findSomeM? {f : α → StateM σ (Option β)} {g : α → Option β} {s : σ}
    (h : ∀ a, Yields (f a) s (g a)) (l : List α) : Yields (l.findSomeM? f) s (l.findSome? g) := by
  induction l with
  | nil => exact pure s none
  | cons a l ih =>
    rw [List.findSomeM?, List.findSome?_cons]
    refine (h a).bind ?_
    cases g a with
    | none => exact ih
    | some b => exact pure s (some b)

/-! ### Programs that may fail -/

lemma run_bind_ok {x : ExceptT ε (StateM σ) α} (h : Yields x.run s (.ok a))
    (f : α → ExceptT ε (StateM σ) β) : (x >>= f).run.run s = (f a).run.run s := by
  rw [ExceptT.run_bind, h.run_bind]

lemma bind_error {x : ExceptT ε (StateM σ) α} (h : Yields x.run s (.error e))
    (f : α → ExceptT ε (StateM σ) β) : Yields (x >>= f).run s (.error e) := by
  rw [ExceptT.run_bind]
  exact h.bind (.pure s _)

lemma run_lift_bind (h : Yields x s a) (f : α → ExceptT ε (StateM σ) β) :
    (liftM x >>= f).run.run s = (f a).run.run s := by
  rw [FileState.run_lift_bind, h]

end Yields

/-! ### Questions about files -/

variable [FileState σ] (s : σ) (p : Path)

lemma yields_workingDirectory :
    Yields FileSystem.workingDirectory s (workingDirectory s) := rfl

/-- Whether a path opens as a regular file. -/
def opens : Bool := !p.hasZeroByte && hasFile s p

lemma yields_isFile : Yields p.isFile s (opens s p) := by
  rw [Path.isFile, opens]
  cases p.hasZeroByte <;> rfl

lemma yields_readBytes : Yields (FileSystem.readBytes p) s (read s p) := rfl

/-- The text of the file at a path. -/
def textAt : Except Fault Text :=
  if p.hasZeroByte then .error .zeroByteInName
  else match read s p with
    | .error f => .error f
    | .ok content =>
      match Utf8.decode? content with
      | some text => .ok text
      | none => .error .notText

lemma yields_readText : Yields p.readText s (textAt s p) := by
  rw [Path.readText, textAt]
  split
  · exact .pure s _
  · refine (yields_readBytes s p).bind ?_
    cases read s p with
    | error f => exact .pure s _
    | ok content =>
      dsimp only
      cases Utf8.decode? content <;> exact .pure s _

variable {s p} in
lemma textAt_of_read {content : Utf8.Bytes} (hp : p.hasZeroByte = false)
    (h : read s p = .ok content) :
    textAt s p =
      match Utf8.decode? content with
      | some text => .ok text
      | none => .error .notText := by
  rw [textAt, hp, h]
  rfl

end StyleVars.FileState
