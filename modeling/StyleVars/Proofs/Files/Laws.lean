import StyleVars.Proofs.Files.Asking

/-!
What may be relied on in a file system. Many paths may lead to one file; what is written to it is
what it holds then, and all other files hold what they did.
-/

namespace StyleVars.FileState

class Lawful (σ : Type) [FileState σ] where
  /-- What tells files apart. -/
  File : Type
  /-- The file to which a path leads. -/
  fileAt? : σ → Path → Option File
  /-- What a file holds, if there is one. -/
  content? : σ → File → Option Utf8.Bytes
  read_of_hasFile {s : σ} {p : Path} (h : hasFile s p = true) :
    ∃ f content, fileAt? s p = some f ∧ content? s f = some content ∧ read s p = .ok content
  of_write {s s' : σ} {p : Path} {content : Utf8.Bytes} (h : write s p content = .ok s') :
    ∃ f, fileAt? s' p = some f ∧ content? s' f = some content ∧
      ∀ g, g ≠ f → content? s' g = content? s g

open Lawful

variable {σ : Type} [FileState σ] {s : σ} {p : Path}

/-- A path that opens as a regular file can be read. -/
lemma read_of_opens [Lawful σ] (h : opens s p = true) :
    p.hasZeroByte = false ∧ ∃ content, read s p = .ok content := by
  rw [opens, Bool.and_eq_true, Bool.not_eq_true'] at h
  obtain ⟨_, content, _, _, hread⟩ := read_of_hasFile h.2
  exact ⟨h.1, content, hread⟩

/-! ### Writing -/

variable (s p)

/-- From `s` to `s'` the file at `p` receives the content and no other file changes. -/
def Receives [Lawful σ] (s' : σ) (content : Utf8.Bytes) : Prop :=
  ∃ f, fileAt? s' p = some f ∧ content? s' f = some content ∧
    ∀ g, g ≠ f → content? s' g = content? s g

lemma run_writeBytes (content : Utf8.Bytes) :
    (FileSystem.writeBytes p content : StateM σ _).run s =
      match write s p content with
      | .ok s' => (.ok (), s')
      | .error f => (.error f, s) := by
  have hrun : (FileSystem.writeBytes p content : StateM σ _).run s =
      (match write s p content with
        | .ok s' => do
          set s'
          return .ok ()
        | .error f => return .error f : StateM σ _).run s := rfl
  rw [hrun]
  cases write s p content <;> rfl

/-- A text is written as a whole, or nothing changes. -/
lemma run_writeText (text : Text) :
    (∃ f, Yields (p.writeText text) s (.error f)) ∨
      ∃ s', (p.writeText text : StateM σ _).run s = (.ok (), s') ∧
        write s p (Utf8.encode text) = .ok s' := by
  rw [Path.writeText]
  split
  · exact .inl ⟨_, .pure s _⟩
  · have hrun := run_writeBytes s p (Utf8.encode text)
    cases h : write s p (Utf8.encode text) with
    | error f => exact .inl ⟨f, by rw [Yields, hrun, h]⟩
    | ok s' => exact .inr ⟨s', by rw [hrun, h], rfl⟩

end StyleVars.FileState
