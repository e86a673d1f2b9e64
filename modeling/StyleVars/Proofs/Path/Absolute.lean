import StyleVars.Proofs.Path.Components

/-!
Absolute paths as rows of names. Whatever a path is written with, it leads to names only; the path
with these names is left alone from every directory, and a path that ends in a name leads to a path
that ends in it.
-/

namespace StyleVars.Path

open Utf8 (Bytes)

/-! ### Names -/

/-- What stands between two slashes as the name of something. -/
structure IsName (n : Bytes) : Prop where
  counts : isVoid n = false
  ne_parent : n ≠ [dot, dot]
  slash_notMem : slash ∉ n

lemma IsName.componentOf_eq {n : Bytes} (h : IsName n) : componentOf n = .name n :=
  if_neg h.ne_parent

lemma isName_of_mem_components {p : Path} {n : Bytes} (h : .name n ∈ p.components) :
    IsName n := by
  rw [components_eq, List.mem_append] at h
  rcases h with h | h
  · cases hlead : leadOf (pieces slash p.bytes) <;> simp [hlead, Lead.components] at h
  · obtain ⟨piece, hpiece, heq⟩ := List.mem_map.mp h
    obtain ⟨hmem, hcounts⟩ := List.mem_filter.mp hpiece
    rw [componentOf] at heq
    split at heq
    · cases heq
    · next hparent =>
      cases heq
      exact ⟨by simpa using hcounts, hparent, not_mem_of_mem_pieces hmem⟩

/-- One step leads from names to names. -/
lemma isName_of_mem_climb {up : List Bytes} {c : Component} (hup : ∀ n ∈ up, IsName n)
    (hc : ∀ n, c = .name n → IsName n) : ∀ n ∈ climb up c, IsName n := by
  cases c with
  | root => nofun
  | current => exact hup
  | parent => exact fun n hn => hup n (List.mem_of_mem_drop hn)
  | name n => exact List.forall_mem_cons.mpr ⟨hc n rfl, hup⟩

lemma isName_of_mem_foldl {cs : List Component} (hcs : ∀ n, .name n ∈ cs → IsName n)
    {up : List Bytes} (hup : ∀ n ∈ up, IsName n) : ∀ n ∈ cs.foldl climb up, IsName n := by
  induction cs generalizing up with
  | nil => exact hup
  | cons c cs ih =>
    refine ih (fun n hn => hcs n (List.mem_cons_of_mem _ hn)) (isName_of_mem_climb hup ?_)
    rintro n rfl
    exact hcs n List.mem_cons_self

/-- **A path leads from names to names.** -/
theorem isName_of_mem_follow (p : Path) {up : List Bytes} (hup : ∀ n ∈ up, IsName n) :
    ∀ n ∈ p.follow up, IsName n :=
  isName_of_mem_foldl (fun _ => isName_of_mem_components) hup

/-! ### Paths with given names -/

lemma foldl_climb_names (ns up : List Bytes) :
    (ns.map Component.name).foldl climb up = ns.reverse ++ up := by
  induction ns generalizing up with
  | nil => rfl
  | cons n ns ih =>
    rw [List.map_cons, List.foldl_cons, ih]
    simp [climb]

section

variable {ns : List Bytes} (h : ∀ n ∈ ns, IsName n)
include h

lemma pieces_ofNames :
    pieces slash (ofNames ns).bytes = [] :: if ns = [] then [[]] else ns := by
  rw [ofNames, pieces_cons_self]
  split
  · next hns =>
    rw [hns]
    rfl
  · next hns => rw [pieces_joinPieces hns fun n hn => (h n hn).slash_notMem]

lemma counted_names : counted ns = ns.map .name := by
  have hcounts : ns.filter (fun piece => !isVoid piece) = ns :=
    List.filter_eq_self.mpr fun n hn => by simp [(h n hn).counts]
  rw [counted, hcounts]
  exact List.map_congr_left fun n hn => (h n hn).componentOf_eq

/-- Behind the root stand the names. -/
theorem components_ofNames : (ofNames ns).components = .root :: ns.map .name := by
  rw [components_eq, leadOf_of_isAbsolute rfl, pieces_ofNames h, counted_empty]
  split
  · next hns =>
    rw [hns]
    rfl
  · rw [counted_names h]
    rfl

lemma normal_ofNames : (ofNames ns).normal = ofNames ns := by
  have hroot : ∀ up, climb up .root = [] := fun _ => rfl
  rw [normal_eq, follow, components_ofNames h, List.foldl_cons, hroot, foldl_climb_names,
    List.append_nil, List.reverse_reverse]

/-- **The path with these names is left alone**, from every directory and from none. -/
theorem absolute_ofNames {ε : Type} (cwd : Except ε Path) :
    (ofNames ns).absolute cwd = .ok (ofNames ns) := by
  have hroot : (ofNames ns).fromRoot cwd = .ok (ofNames ns) := if_pos rfl
  rw [absolute, hroot, Except.map, normal_ofNames h]

/-- No dot stands between two slashes. -/
lemma ne_dots_of_mem_pieces_ofNames {piece : Bytes} (hp : piece ∈ pieces slash (ofNames ns).bytes) :
    piece ≠ [dot] ∧ piece ≠ [dot, dot] := by
  have hempty : ([] : Bytes) ≠ [dot] ∧ ([] : Bytes) ≠ [dot, dot] := by decide
  rw [pieces_ofNames h] at hp
  rcases List.mem_cons.mp hp with rfl | hp
  · exact hempty
  · split at hp
    · obtain rfl := List.mem_singleton.mp hp
      exact hempty
    · refine ⟨?_, (h piece hp).ne_parent⟩
      rintro rfl
      cases (h _ hp).counts

end

/-! ### The last name -/

/-- A path that ends in a name leads to names that end in it. -/
lemma exists_follow_eq {p : Path} {n : Bytes} (hp : p.components.getLast? = some (.name n))
    {up : List Bytes} (hup : ∀ m ∈ up, IsName m) :
    ∃ ns, (p.follow up).reverse = ns ++ [n] ∧ ∀ m ∈ ns ++ [n], IsName m := by
  have hnames := isName_of_mem_follow p hup
  obtain ⟨cs, hcs⟩ := List.getLast?_eq_some_iff.mp hp
  have hlast : p.follow up = n :: cs.foldl climb up := by
    rw [follow, hcs, List.foldl_append]
    rfl
  refine ⟨(cs.foldl climb up).reverse, by rw [hlast, List.reverse_cons], fun m hm => ?_⟩
  rw [hlast] at hnames
  exact hnames m (by simpa [or_comm] using hm)

/-- What a path that ends in a name names from a directory has a path that ends in it. -/
lemma exists_names_of_absolute {ε : Type} {cwd : Except ε Path} {d p q : Path} {n : Bytes}
    (hp : p.components.getLast? = some (.name n)) (h : (d.join p).absolute cwd = .ok q) :
    ∃ ns, q = ofNames (ns ++ [n]) ∧ ∀ m ∈ ns ++ [n], IsName m := by
  have hnormal {up : List Bytes} (hup : ∀ m ∈ up, IsName m) :
      ∃ ns, ofNames ((d.join p).follow up).reverse = ofNames (ns ++ [n]) ∧
        ∀ m ∈ ns ++ [n], IsName m := by
    obtain ⟨ns, hns, hnames⟩ := exists_follow_eq hp (isName_of_mem_follow d hup)
    exact ⟨ns, by rw [follow_join, hns], hnames⟩
  have hroot : ∀ m ∈ ([] : List Bytes), IsName m := List.forall_mem_nil IsName
  rcases exists_normal_of_absolute h with ⟨-, rfl⟩ | ⟨c, -, rfl⟩
  · rw [normal_eq]
    exact hnormal hroot
  · rw [normal_eq, follow_join]
    exact hnormal (isName_of_mem_follow c hroot)

lemma fileName?_ofNames {ns : List Bytes} {n : Bytes} (h : ∀ m ∈ ns ++ [n], IsName m) :
    (ofNames (ns ++ [n])).fileName? = some n := by
  have hlast : (ofNames (ns ++ [n])).components.getLast? = some (.name n) := by
    rw [components_ofNames h, List.map_append, ← List.cons_append]
    exact List.getLast?_concat
  rw [fileName?, hlast]

/-- A path with an ending that is too long for dots, and has no slash, ends in a name. -/
lemma getLast?_components {p : Path} {bs ending : Bytes} (hp : p.bytes = bs ++ ending)
    (hlength : 2 < ending.length) (hslash : slash ∉ ending) :
    ∃ q, p.components.getLast? = some (.name (q ++ ending)) := by
  obtain ⟨ps, q, -, hpieces⟩ := pieces_append_of_notMem_right (l := bs) hslash
  have hne : ∀ t : Bytes, t.length ≤ 2 → q ++ ending ≠ t := by
    rintro t ht rfl
    rw [List.length_append] at ht
    omega
  have hcounts : isVoid (q ++ ending) = false := by
    rw [isVoid, Bool.or_eq_false_iff, beq_eq_false_iff_ne, beq_eq_false_iff_ne]
    exact ⟨hne [] (by decide), hne [dot] (by decide)⟩
  have hname : componentOf (q ++ ending) = .name (q ++ ending) :=
    if_neg (hne [dot, dot] (by decide))
  refine ⟨q, ?_⟩
  rw [components_eq, hp, hpieces, counted_append, ← List.append_assoc]
  simp [counted, hcounts, hname]

end StyleVars.Path
