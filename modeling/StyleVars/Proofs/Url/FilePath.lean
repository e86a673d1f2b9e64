import StyleVars.Proofs.Path.Components
import StyleVars.Proofs.Url.Percent
import StyleVars.Url.FilePath

/-!
From a file path to its URL and back. Each component becomes a segment and each segment a component
again, so the path that comes back is the same, though it may be written in another way: without
needless slashes and dots, and with a slash behind a drive letter.
-/

namespace StyleVars

open Utf8 (Bytes)

namespace Path

/-- The bytes of components that stand behind slashes. -/
def written (cs : List Component) : Bytes := cs.flatMap fun c => slash :: c.bytes

lemma written_eq (cs : List Component) (hcs : cs ≠ []) :
    written cs = slash :: joinPieces slash (cs.map Component.bytes) := by
  induction cs with
  | nil => exact absurd rfl hcs
  | cons c cs ih =>
    cases cs with
    | nil => simp [written, joinPieces]
    | cons d cs =>
      have hcons : written (c :: d :: cs) = slash :: c.bytes ++ written (d :: cs) := rfl
      rw [hcons, ih (by simp)]
      rfl

lemma bytes_componentOf (p : Bytes) : (componentOf p).bytes = p := by
  rw [componentOf]
  split
  · next h => rw [h]; rfl
  · rfl

lemma map_bytes_counted (ps : List Bytes) :
    (counted ps).map Component.bytes = ps.filter fun p => !isVoid p := by
  rw [counted, List.map_map]
  exact List.map_congr_left (fun p _ => bytes_componentOf p) |>.trans (List.map_id _)

lemma counted_filter (ps : List Bytes) : counted (ps.filter fun p => !isVoid p) = counted ps := by
  simp [counted]

/-- What counts in an absolute path, written again behind slashes, is the same path. -/
lemma same_written {p : Path} (h : p.isAbsolute = true) :
    Same ⟨if counted (pieces slash p.bytes) = [] then [slash]
      else written (counted (pieces slash p.bytes))⟩ p := by
  rw [Same, components_eq p, leadOf_of_isAbsolute h]
  set ps := pieces slash p.bytes with hps
  split
  · next hnil =>
    rw [hnil]
    rfl
  · next hne =>
    have hslash : ∀ q ∈ ps.filter (fun q => !isVoid q), slash ∉ q := fun q hq =>
      not_mem_of_mem_pieces (List.mem_of_mem_filter hq)
    have hnil : ps.filter (fun q => !isVoid q) ≠ [] := by
      rw [← map_bytes_counted]
      simpa using hne
    rw [written_eq _ hne, map_bytes_counted, components_eq, pieces_cons_self,
      pieces_joinPieces hnil hslash, leadOf_root hnil, counted_empty, counted_filter]

/-- A slash at the end of an absolute path says nothing. -/
lemma same_append_slash {p : Path} (h : p.isAbsolute = true) : Same ⟨p.bytes ++ [slash]⟩ p := by
  have habs : isAbsolute ⟨p.bytes ++ [slash]⟩ = true := by
    obtain ⟨r, hr⟩ := isAbsolute_iff.mp h
    rw [isAbsolute_iff, hr]
    exact ⟨r ++ [slash], rfl⟩
  rw [Same, components_eq, components_eq, leadOf_of_isAbsolute habs, leadOf_of_isAbsolute h,
    pieces_append_cons, counted_append]
  simp

end Path

namespace Url

/-- The segments of the URL of a path. -/
def segmentsOfPath (p : Path) : List Text :=
  let list := (p.components.drop 1).map fun c => percentEncode .fileName c.bytes
  if list.isEmpty then [[]] else list

/-- The bytes that segments stand for. -/
def bytesOf (list : List Text) : Bytes := list.flatMap fun s => Path.slash :: percentDecode s

lemma bytesOf_segmentsOfPath (p : Path) :
    bytesOf (segmentsOfPath p) =
      if p.components.drop 1 = [] then [Path.slash] else Path.written (p.components.drop 1) := by
  have hpercent : '%' ∈ EncodeSet.fileName := by decide
  by_cases hcs : p.components.drop 1 = []
  · simp [segmentsOfPath, bytesOf, hcs, percentDecode]
  · simp only [segmentsOfPath, bytesOf, List.isEmpty_map, List.isEmpty_iff, if_neg hcs]
    rw [List.flatMap_map, Path.written]
    simp only [percentDecode_percentEncode hpercent]

/-- A URL with a path and nothing else. -/
def ofSegments (list : List Text) : Url := ⟨"file".toList, some {}, .segments list, none, none⟩

lemma ofPath?_eq {p : Path} (h : p.isAbsolute = true) :
    ofPath? p = some (ofSegments (segmentsOfPath p)) := by
  rw [ofPath?, if_pos h]
  rfl

lemma toPath?_ofSegments {list : List Text} (h : list ≠ []) :
    (ofSegments list).toPath? =
      some ⟨if endsInDriveLetter (bytesOf list) then bytesOf list ++ [Path.slash]
        else bytesOf list⟩ := by
  obtain ⟨s, list, rfl⟩ := List.exists_cons_of_ne_nil h
  rfl

/-- **The URL of an absolute path leads back to the same path.** -/
theorem toPath?_of_ofPath? {p : Path} (h : p.isAbsolute = true) :
    ∃ u q, ofPath? p = some u ∧ u.scheme = "file".toList ∧ u.toPath? = some q ∧ q.Same p := by
  have hcs : p.components.drop 1 = Path.counted (pieces Path.slash p.bytes) := by
    rw [Path.components_eq, Path.leadOf_of_isAbsolute h]
    rfl
  have hsame : Path.Same ⟨bytesOf (segmentsOfPath p)⟩ p := by
    rw [bytesOf_segmentsOfPath, hcs]
    exact Path.same_written h
  have hne : segmentsOfPath p ≠ [] := by
    rw [segmentsOfPath]
    split <;> simp_all
  refine ⟨_, _, ofPath?_eq h, rfl, toPath?_ofSegments hne, ?_⟩
  split
  · refine (Path.same_append_slash ?_).trans hsame
    rw [Path.isAbsolute_iff]
    obtain ⟨s, list, hlist⟩ := List.exists_cons_of_ne_nil hne
    exact ⟨percentDecode s ++ bytesOf list, by rw [hlist]; rfl⟩
  · exact hsame

end Url

end StyleVars
