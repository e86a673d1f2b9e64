import Mathlib.Tactic.Lemma
import StyleVars.Import.Locator
import StyleVars.Url.Parser

/-!
URLs as paths, once for documents and once for importing files. Both ways take the same path from a
URL, but only the second one looks at the scheme.
-/

namespace StyleVars

namespace Url

/-- The URL has a path that begins with a slash, and the path does not lie with another host. -/
structure IsLocal (u : Url) : Prop where
  segments : ∃ s list, u.place = .segments (s :: list)
  host : u.host = .empty ∨ u.host = .localhost

lemma exists_toPath?_iff (u : Url) : (∃ p, u.toPath? = some p) ↔ u.IsLocal := by
  constructor
  · rintro ⟨p, hp⟩
    rw [toPath?] at hp
    split at hp
    · cases hp
    · next list hne hplace hhost =>
      obtain ⟨s, list, rfl⟩ := List.exists_cons_of_ne_nil hne
      exact ⟨⟨s, list, hplace⟩, .inl hhost⟩
    · next list hne hplace hhost =>
      obtain ⟨s, list, rfl⟩ := List.exists_cons_of_ne_nil hne
      exact ⟨⟨s, list, hplace⟩, .inr hhost⟩
    · cases hp
  · rintro ⟨⟨s, list, hplace⟩, hhost⟩
    rcases hhost with hhost | hhost
    all_goals
      rw [toPath?, hplace, hhost]
      exact ⟨_, rfl⟩

end Url

namespace Locator

lemma ofUrl?_eq_some_iff {u : Url} {l : Locator} :
    ofUrl? u = some l ↔ u.toPath? = some l.path ∧ l.url = u := by
  rw [ofUrl?, Option.map_eq_some_iff]
  constructor
  · rintro ⟨p, hp, rfl⟩
    exact ⟨hp, rfl⟩
  · rintro ⟨hp, rfl⟩
    exact ⟨_, hp, rfl⟩

lemma ofUrl?_eq_none_iff {u : Url} : ofUrl? u = none ↔ ¬ u.IsLocal := by
  rw [← Url.exists_toPath?_iff, ofUrl?, Option.map_eq_none_iff, Option.eq_none_iff_forall_ne_some]
  simp

end Locator

namespace Url

lemma filePath?_eq_some_iff {u : Url} {p : Path} :
    u.filePath? = some p ↔ u.scheme = "file".toList ∧ u.toPath? = some p := by
  rw [filePath?]
  split <;> simp_all

lemma filePath?_of_not_local {u : Url} (h : ¬ u.IsLocal) : u.filePath? = none := by
  rw [Option.eq_none_iff_forall_ne_some]
  exact fun p hp => h ((exists_toPath?_iff u).mp ⟨p, (filePath?_eq_some_iff.mp hp).2⟩)

/-- A document and an importing file at the URL have the same path or none, and they have none if
the scheme is not that of files. -/
structure Agrees (u : Url) : Prop where
  both : (∃ l, Locator.ofUrl? u = some l) ↔ ∃ p, u.filePath? = some p
  path : ∀ l p, Locator.ofUrl? u = some l → u.filePath? = some p → l.path = p
  scheme : u.scheme ≠ "file".toList → Locator.ofUrl? u = none ∧ u.filePath? = none

lemma agrees_of_file {u : Url} (h : u.scheme = "file".toList) : u.Agrees where
  both := by
    constructor
    · rintro ⟨l, hl⟩
      exact ⟨l.path, filePath?_eq_some_iff.mpr ⟨h, (Locator.ofUrl?_eq_some_iff.mp hl).1⟩⟩
    · rintro ⟨p, hp⟩
      exact ⟨⟨p, u⟩, Locator.ofUrl?_eq_some_iff.mpr ⟨(filePath?_eq_some_iff.mp hp).2, rfl⟩⟩
  path l p hl hp := by
    obtain ⟨hl, -⟩ := Locator.ofUrl?_eq_some_iff.mp hl
    obtain ⟨-, hp⟩ := filePath?_eq_some_iff.mp hp
    exact Option.some.inj (hl.symm.trans hp)
  scheme hne := absurd h hne

/-- **Documents and importing files agree exactly on file URLs and on URLs that are not local**: a
local URL with another scheme has a path for a document only. -/
theorem agrees_iff (u : Url) : u.Agrees ↔ u.scheme = "file".toList ∨ ¬ u.IsLocal := by
  constructor
  · intro h
    by_cases hscheme : u.scheme = "file".toList
    · exact .inl hscheme
    · exact .inr (Locator.ofUrl?_eq_none_iff.mp (h.scheme hscheme).1)
  · rintro (hscheme | hlocal)
    · exact agrees_of_file hscheme
    · have hdocument : Locator.ofUrl? u = none := Locator.ofUrl?_eq_none_iff.mpr hlocal
      have himporting : u.filePath? = none := filePath?_of_not_local hlocal
      exact ⟨by simp [hdocument, himporting], by simp [hdocument],
        fun _ => ⟨hdocument, himporting⟩⟩

/-- A document has a path at a URL without a host, whatever the scheme is. -/
theorem not_agrees_otherScheme :
    ∃ u, parse "pkg:/a.json".toList = .ok u ∧ ¬ u.Agrees := by
  refine ⟨⟨"pkg".toList, none, .segments ["a.json".toList], none, none⟩, rfl, fun h => ?_⟩
  exact absurd (h.scheme (by decide)).1 (by decide)

end Url

end StyleVars
