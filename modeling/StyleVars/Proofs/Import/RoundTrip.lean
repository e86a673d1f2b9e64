import StyleVars.Import.Importer
import StyleVars.Proofs.Import.Search
import StyleVars.Proofs.Url.FilePath

/-!
Importing files given by path and by URL. The URL of a path leads back to the same path, and the same
importing file makes every reference mean the same document.
-/

namespace StyleVars

/-- Locators are the same when their URLs are equal and their paths are the same. -/
def Locator.Same (l k : Locator) : Prop := l.url = k.url ∧ l.path.Same k.path

namespace Import

variable {m : Type → Type} [Monad m] [FileSystem m]

/-! ### The same importing file -/

lemma withoutRepeats_same {seen seen' ps qs : List Path} (hseen : List.Forall₂ Path.Same seen seen')
    (h : List.Forall₂ Path.Same ps qs) :
    List.Forall₂ Path.Same (withoutRepeats seen ps) (withoutRepeats seen' qs) := by
  induction h generalizing seen seen' with
  | nil => exact .nil
  | @cons p q ps qs hpq _ ih =>
    have hany : (seen.any fun r => decide (r.Same p)) = seen'.any fun r => decide (r.Same q) := by
      clear ih
      induction hseen with
      | nil => rfl
      | @cons r r' seen seen' hr _ ih =>
        have hdec : decide (r.Same p) = decide (r'.Same q) :=
          decide_eq_decide.mpr ⟨fun h => (hr.symm.trans h).trans hpq,
            fun h => (hr.trans h).trans hpq.symm⟩
        rw [List.any_cons, List.any_cons, hdec, ih]
    rw [withoutRepeats, withoutRepeats, hany]
    split
    · exact ih hseen
    · exact .cons hpq (ih (.cons hpq hseen))

/-- A search comes to the same in directories that are the same. -/
lemma probe_same {p q : Path} (h : p.Same q) (reference : Text) :
    (probe reference p : m (Option Locator)) = probe reference q := by
  simp only [probe, h.absolute_join]

lemma findSomeM?_probe_same {ps qs : List Path} (h : List.Forall₂ Path.Same ps qs)
    (reference : Text) :
    (ps.findSomeM? (probe reference) : m (Option Locator)) = qs.findSomeM? (probe reference) := by
  induction h with
  | nil => rfl
  | cons hpq _ ih => rw [List.findSomeM?, List.findSomeM?, probe_same hpq, ih]

lemma forall₂_same_refl (ps : List Path) : List.Forall₂ Path.Same ps ps :=
  List.forall₂_same.mpr fun _ _ => rfl

/-- A reference means the same in importing files that are the same. -/
theorem resolve_same {p q : Path} (h : p.Same q) (roots : List Path) (reference : Text) :
    (resolve roots reference (some p) : m (Option Locator)) =
      resolve roots reference (some q) := by
  have hdirs : List.Forall₂ Path.Same (p.parent?.toList ++ roots) (q.parent?.toList ++ roots) :=
    List.rel_append h.parent? (forall₂_same_refl roots)
  have hcandidates : List.Forall₂ Path.Same (candidates roots (some p))
      (candidates roots (some q)) := withoutRepeats_same .nil hdirs
  rw [resolve, resolve]
  split
  · exact findSomeM?_probe_same hcandidates reference
  · rfl

/-! ### Paths and their URLs -/

/-- **An importing file may be given by its path or by the URL of its path**: the URL leads back to
the same path, and every reference means the same document in every file system. -/
theorem locator_roundTrip {p : Path} (h : p.isAbsolute = true) :
    ∃ l, Locator.ofPath? p = some l ∧ l.path = p ∧
      (∃ k, Locator.ofUrl? l.url = some k ∧ k.Same l) ∧
      (∃ q, l.url.filePath? = some q ∧ q.Same p) ∧
      ∀ {m : Type → Type} [Monad m] [FileSystem m] (o : Settings) (reference : Text),
        (canonicalize o reference (some l.url) : m (Option Locator)) =
          resolve o.loadPaths reference (some p) := by
  obtain ⟨u, q, hu, hscheme, hq, hsame⟩ := Url.toPath?_of_ofPath? h
  have hfile : u.filePath? = some q := by rw [Url.filePath?, if_pos hscheme, hq]
  refine ⟨⟨p, u⟩, ?_, rfl, ⟨⟨q, u⟩, ?_, rfl, hsame⟩, ⟨q, hfile, hsame⟩, ?_⟩
  · rw [Locator.ofPath?, hu]
    rfl
  · rw [Locator.ofUrl?, hq]
    rfl
  · intro m _ _ o reference
    rw [canonicalize, Option.bind_some, hfile, resolve_same hsame]

/-- A path with a space, an encoded-looking byte, a byte that is no UTF-8, a double dot, a drive letter
and slashes too many. -/
def awkwardPath : Path :=
  ⟨Utf8.encode "//a b/%41#?/./".toList ++ [0xFF] ++ Utf8.encode "/../C:/".toList⟩

theorem locator_roundTrip_awkwardPath :
    awkwardPath.isAbsolute = true ∧
      ∃ l, Locator.ofPath? awkwardPath = some l ∧ l.path = awkwardPath ∧
        (∃ k, Locator.ofUrl? l.url = some k ∧ k.Same l) ∧
        (∃ q, l.url.filePath? = some q ∧ q.Same awkwardPath) ∧
        ∀ {m : Type → Type} [Monad m] [FileSystem m] (o : Settings) (reference : Text),
          (canonicalize o reference (some l.url) : m (Option Locator)) =
            resolve o.loadPaths reference (some awkwardPath) :=
  ⟨by decide, locator_roundTrip (by decide)⟩

end Import

end StyleVars
