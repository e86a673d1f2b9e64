import StyleVars.Files.Tree
import StyleVars.Proofs.Import.Search
import StyleVars.Proofs.Path.Absolute
import StyleVars.Proofs.Text.Utf8

/-!
How a document that was found is named. Its path is absolute, has no dots and ends as the reference
does; so as a reference it means the same document again, whichever directories are searched.
-/

namespace StyleVars.Import

open FileState (Yields)
open StyleVars.Path (IsName slash dot ofNames)

/-- The ending of the files that references mean, as bytes. -/
def jsonEnding : Utf8.Bytes := Utf8.encode ".json".toList

/-- A reference that is looked for ends in a name with this ending. -/
lemma getLast?_components_reference {reference : Text} (h : isJsonFile reference = true) :
    ∃ q, (Path.ofText reference).components.getLast? = some (.name (q ++ jsonEnding)) := by
  obtain ⟨r, rfl⟩ := List.isSuffixOf_iff_suffix.mp h
  exact Path.getLast?_components (Utf8.encode_append r _) (by decide) (by decide)

/-- A path that ends in such a name is the path of such a reference, if it is a text at all. -/
lemma isJsonFile_of_encode {ns : List Utf8.Bytes} {q : Utf8.Bytes} {text : Text}
    (h : (ofNames (ns ++ [q ++ jsonEnding])).bytes = Utf8.encode text) :
    isJsonFile text = true := by
  have hending : jsonEnding <:+ Utf8.encode text := by
    rw [← h]
    exact ((List.suffix_append q jsonEnding).trans (isSuffix_joinPieces slash ns _)).trans
      (List.suffix_cons slash _)
  have hascii : ".json".toList.all (·.toNat < 0x80) = true := by decide
  rw [List.all_eq_true] at hascii
  exact List.isSuffixOf_iff_suffix.mpr
    (Utf8.isSuffix_of_isSuffix_encode (fun c hc => of_decide_eq_true (hascii c hc)) hending)

section

variable {σ : Type} [FileState σ] {s : σ} {roots : List Path} {reference : Text}
  {containing : Option Path} {l : Locator}

/-- What was found, with its names, the last of which is that of the reference. -/
lemma exists_names_of_resolve (h : Yields (resolve roots reference containing) s (some l)) :
    ∃ ns q, (Path.ofText reference).components.getLast? = some (.name (q ++ jsonEnding)) ∧
      l.path = ofNames (ns ++ [q ++ jsonEnding]) ∧ (∀ n ∈ ns ++ [q ++ jsonEnding], IsName n) ∧
      FileState.opens s l.path = true ∧ Locator.ofPath? l.path = some l := by
  obtain ⟨hjson, d, -, hd⟩ := exists_hit?_of_resolve h
  obtain ⟨path, ⟨hplace, hopens⟩, hl⟩ := (hit?_eq_some_iff s reference d l).mp hd
  obtain ⟨q, hq⟩ := getLast?_components_reference hjson
  obtain ⟨ns, hpath, hnames⟩ := Path.exists_names_of_absolute hq hplace
  rw [path_of_ofPath? hl]
  exact ⟨ns, q, hq, hpath, hnames, hopens, hl⟩

/-- An absolute reference without dots is found in every directory if its path opens. -/
lemma hit?_of_names {ns : List Utf8.Bytes} {text : Text} (hnames : ∀ n ∈ ns, IsName n)
    (htext : (ofNames ns).bytes = Utf8.encode text) (hopens : FileState.opens s (ofNames ns) = true)
    (hl : Locator.ofPath? (ofNames ns) = some l) (directory : Path) :
    hit? s text directory = some l := by
  have hpath : Path.ofText text = ofNames ns := by rw [Path.ofText, ← htext]
  have hplace : placeIn s text directory = .ok (ofNames ns) := by
    rw [placeIn, hpath, Path.join_of_isAbsolute _ rfl, Path.absolute_ofNames hnames]
  exact (hit?_eq_some_iff s text directory l).mpr ⟨_, ⟨hplace, hopens⟩, hl⟩

/-- What every directory holds is found if there is a candidate. -/
lemma yields_resolve_of_hits {text : Text} (hjson : isJsonFile text = true)
    (hhits : ∀ d, hit? s text d = some l) (hcandidates : candidates roots containing ≠ []) :
    Yields (resolve roots text containing) s (some l) := by
  obtain ⟨d, ds, hd⟩ : ∃ d ds, searched roots containing = d :: ds := by
    refine List.exists_cons_of_ne_nil fun hnil => hcandidates ?_
    rw [candidates_eq, hnil]
    rfl
  have hfound := yields_resolve s roots text containing hjson
  rwa [hd, List.findSome?_cons, hhits d] at hfound

/-- **A document has one path**: what is found has an absolute path without dots, which ends in the
last component of the reference and means the same document as a reference, from everywhere. -/
theorem resolve_path_of_found (h : Yields (resolve roots reference containing) s (some l)) :
    l.path.isAbsolute = true ∧
      (∀ piece ∈ pieces slash l.path.bytes, piece ≠ [dot] ∧ piece ≠ [dot, dot]) ∧
      (.current ∉ l.path.components ∧ .parent ∉ l.path.components) ∧
      (∃ n, l.path.fileName? = some n ∧
        (Path.ofText reference).components.getLast? = some (.name n)) ∧
      ∀ text, l.path.bytes = Utf8.encode text → ∀ roots' containing',
        candidates roots' containing' ≠ [] →
          Yields (resolve roots' text containing') s (some l) := by
  obtain ⟨ns, q, hq, hpath, hnames, hopens, hl⟩ := exists_names_of_resolve h
  rw [hpath] at hopens hl ⊢
  refine ⟨rfl, fun piece => Path.ne_dots_of_mem_pieces_ofNames hnames, ?_,
    ⟨_, Path.fileName?_ofNames hnames, hq⟩, fun text htext roots' containing' => ?_⟩
  · rw [Path.components_ofNames hnames]
    simp
  · exact yields_resolve_of_hits (isJsonFile_of_encode htext)
      (hit?_of_names hnames htext hopens hl)

end

/-- A disk on which relative paths begin beside the directory of a document. -/
def neighbours : Disk where
  root := .directory
    [(Utf8.encode "é".toList, .directory [(Utf8.encode ".json".toList, .file [])]),
      (Utf8.encode "w".toList, .directory [])]
  workingNames := [Utf8.encode "w".toList]

theorem resolve_path_of_found_neighbours :
    ∃ l, Yields (resolve [⟨[dot]⟩] "../../é/x/..//.json".toList none) neighbours (some l) ∧
      l.path.isAbsolute = true ∧
      (∀ piece ∈ pieces slash l.path.bytes, piece ≠ [dot] ∧ piece ≠ [dot, dot]) ∧
      (.current ∉ l.path.components ∧ .parent ∉ l.path.components) ∧
      l.path.fileName? = some (Utf8.encode ".json".toList) ∧
      Yields (resolve [] "/é/.json".toList (some (.ofText "a".toList))) neighbours (some l) := by
  have h : Yields (resolve [⟨[dot]⟩] "../../é/x/..//.json".toList none) neighbours
      (some ⟨.ofText "/é/.json".toList, _⟩) := rfl
  obtain ⟨habsolute, hpieces, hcomponents, -, hagain⟩ := resolve_path_of_found h
  exact ⟨_, h, habsolute, hpieces, hcomponents, by decide, hagain _ rfl _ _ (by decide)⟩

end StyleVars.Import
