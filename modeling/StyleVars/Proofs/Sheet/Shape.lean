import StyleVars.Proofs.Sheet.Written

/-!
What a stylesheet can tell about a value. Quotes are left out where they are not needed, null is
written as an empty text, numbers and truth values as the texts that they print as, and an object
without entries as a list without items; these differences are lost. All others can be seen from the
text, at any depth: how an expression is written determines its shape and where it ends.
-/

namespace StyleVars.Sheet

open Json (Value Entries)

/-- An expression of a stylesheet: a text, a list, or a map with its names in order. -/
inductive Shape where
  | text (s : Text)
  | list (items : List Shape)
  | map (entries : List (Text × Shape))
deriving Repr

/-- A map without entries is no map. -/
def Shape.ofEntries : List (Text × Shape) → Shape
  | [] => .list []
  | e :: es => .map (e :: es)

mutual

/-- What remains of a value in a stylesheet. -/
def shapeOf : Value → Shape
  | .array items => .list (shapeOfItems items)
  | .object entries => .ofEntries (shapeOfEntries entries)
  | v => .text (scalarText v)

def shapeOfItems : List Value → List Shape
  | [] => []
  | v :: vs => shapeOf v :: shapeOfItems vs

def shapeOfEntries : Entries → List (Text × Shape)
  | [] => []
  | (key, v) :: es =>
    if survives key v then (stripColon key, shapeOf v) :: shapeOfEntries es
    else shapeOfEntries es

end

namespace Shape

mutual

/-- An expression as it is written with default settings. -/
def write : Shape → Text
  | .text s => quoteIfNeeded s
  | .list items => parenthesized (writeItems items)
  | .map entries => parenthesized (writeEntries entries)

def writeItems : List Shape → List Text
  | [] => []
  | x :: xs => write x :: writeItems xs

def writeEntries : List (Text × Shape) → List Text
  | [] => []
  | (name, x) :: es => entryText {} name (write x) :: writeEntries es

end

/-- An entry of a map with its name. -/
def writeEntry (e : Text × Shape) : Text := entryText {} e.1 e.2.write

lemma write_list (items : List Shape) : (list items).write = parenthesized (items.map write) := by
  have hitems : writeItems items = items.map write := by
    induction items with
    | nil => rfl
    | cons x xs ih => rw [writeItems, ih, List.map_cons]
  rw [write, hitems]

lemma write_map (es : List (Text × Shape)) :
    (map es).write = parenthesized (es.map writeEntry) := by
  have hentries : writeEntries es = es.map writeEntry := by
    induction es with
    | nil => rfl
    | cons e es ih =>
      obtain ⟨name, x⟩ := e
      rw [writeEntries, ih]
      rfl
  rw [write, hentries]

lemma write_ofEntries (es : List (Text × Shape)) :
    (ofEntries es).write = parenthesized (es.map writeEntry) := by
  cases es with
  | nil => rfl
  | cons e es => exact write_map (e :: es)

end Shape

lemma shapeOf_array (items : List Value) : shapeOf (.array items) = .list (items.map shapeOf) := by
  have hitems : shapeOfItems items = items.map shapeOf := by
    induction items with
    | nil => rfl
    | cons v vs ih => rw [shapeOfItems, ih, List.map_cons]
  rw [shapeOf, hitems]

lemma shapeOf_object (entries : Entries) :
    shapeOf (.object entries) =
      .ofEntries ((survivors entries).map fun e => (stripColon e.1, shapeOf e.2)) := by
  have hentries : shapeOfEntries entries =
      (survivors entries).map fun e => (stripColon e.1, shapeOf e.2) := by
    induction entries with
    | nil => rfl
    | cons e es ih =>
      obtain ⟨key, v⟩ := e
      rw [shapeOfEntries, survivors_cons, ih]
      split <;> rfl
  rw [shapeOf, hentries]

/-- **The shape is all that is written.** -/
theorem written_eq_write (v : Value) : written {} v = (shapeOf v).write := by
  induction v using Value.inductionOn with
  | null => rfl
  | bool b => rfl
  | number x => rfl
  | string s => rfl
  | array items ih =>
    rw [written_array, shapeOf_array, Shape.write_list, List.map_map]
    exact congrArg parenthesized (List.map_congr_left ih)
  | object entries ih =>
    rw [written_object, shapeOf_object, Shape.write_ofEntries, List.map_map]
    refine congrArg parenthesized (List.map_congr_left fun e he => ?_)
    rw [ih e (mem_survivors.mp he).1]
    rfl

/-! ### Characters that end a text -/

/-- The characters that no string may contain. -/
def brackets : List Char := ['(', ')', '\'']

/-- The characters that no name may contain. -/
def delimiters : List Char := ',' :: ':' :: brackets

instance decidableDisjoint (s t : Text) : Decidable (s.Disjoint t) :=
  decidable_of_iff (s.all (!t.contains ·) = true) (by simp [List.disjoint_left])

/-- Two texts without the characters `cs`, each in front of one of them or at the end. -/
lemma append_inj_of_disjoint {cs s t r r' : Text} (hs : s.Disjoint cs) (ht : t.Disjoint cs)
    (hr : ∀ c ∈ r.head?, c ∈ cs) (hr' : ∀ c ∈ r'.head?, c ∈ cs) (h : s ++ r = t ++ r') :
    s = t ∧ r = r' := by
  induction s generalizing t with
  | nil =>
    cases t with
    | nil => exact ⟨rfl, h⟩
    | cons d t =>
      subst h
      exact absurd (hr d rfl) (List.disjoint_cons_left.mp ht).1
  | cons c s ih =>
    obtain ⟨hc, hs⟩ := List.disjoint_cons_left.mp hs
    cases t with
    | nil =>
      subst h
      exact absurd (hr' c rfl) hc
    | cons d t =>
      rw [List.cons_append, List.cons_append] at h
      obtain ⟨rfl, htail⟩ := List.cons.inj h
      obtain ⟨rfl, hrest⟩ := ih hs (List.disjoint_cons_left.mp ht).2 htail
      exact ⟨rfl, hrest⟩

lemma mem_of_mem_head?_cons {cs : Text} {c : Char} (hc : c ∈ cs) (t : Text) :
    ∀ d ∈ (c :: t).head?, d ∈ cs := by
  rintro d ⟨⟩
  exact hc

lemma append_ne_cons_of_disjoint {cs s : Text} {c : Char} (hs : s.Disjoint cs) (hne : s ≠ [])
    (hc : c ∈ cs) (r t : Text) : s ++ r ≠ c :: t := by
  obtain ⟨d, s, rfl⟩ := List.exists_cons_of_ne_nil hne
  intro h
  obtain ⟨rfl, -⟩ := List.cons.inj h
  exact (List.disjoint_cons_left.mp hs).1 hc

/-- The first character that no name contains. -/
def firstDelimiter (t : Text) : Option Char := t.find? delimiters.contains

lemma firstDelimiter_append {s : Text} (hs : s.Disjoint delimiters) (r : Text) :
    firstDelimiter (s ++ r) = firstDelimiter r := by
  have hnone : s.find? delimiters.contains = none :=
    List.find?_eq_none.mpr fun c hc => by simpa using hs hc
  rw [firstDelimiter, List.find?_append, hnone, Option.none_or, firstDelimiter]

lemma escape_of_notMem {d : Char} {s : Text} (h : d ∉ s) : escape d s = s := by
  induction s with
  | nil => rfl
  | cons c s ih =>
    have hc : c ≠ d := (List.ne_of_not_mem_cons h).symm
    rw [escape, if_neg hc, ih (List.not_mem_of_not_mem_cons h)]

/-- A text is written as it is and is not empty, or it is written in quotes without any change. -/
lemma quoteIfNeeded_of_disjoint {s : Text} (hs : s.Disjoint brackets) :
    (quoteIfNeeded s = s ∧ s ≠ [] ∧ s.Disjoint delimiters) ∨
      quoteIfNeeded s = '\'' :: (s ++ ['\'']) := by
  rw [quoteIfNeeded]
  by_cases hq : needsQuotes s = true
  · have hquote : '\'' ∉ s := fun h => hs h (by decide)
    rw [if_pos hq, quote, escape_of_notMem hquote]
    exact .inr rfl
  · rw [if_neg hq]
    simp only [needsQuotes, Bool.or_eq_true, List.isEmpty_iff, List.any_eq_true, not_or,
      not_exists, not_and] at hq
    obtain ⟨hne, hreserved⟩ := hq
    refine .inl ⟨rfl, hne, ?_⟩
    intro c hc hmem
    simp only [delimiters, List.mem_cons] at hmem
    rcases hmem with rfl | rfl | hmem
    · exact hreserved _ hc rfl
    · exact hreserved _ hc rfl
    · exact hs hc hmem

/-! ### Where an expression ends -/

/-- What may stand behind an expression: another item, the end of a list, or nothing. -/
def Follows (r : Text) : Prop := ∀ c ∈ r.head?, c = ',' ∨ c = ')'

lemma follows_nil : Follows [] := fun _ h => nomatch h

lemma Follows.mem_delimiters {r : Text} (h : Follows r) : ∀ c ∈ r.head?, c ∈ delimiters := by
  intro c hc
  rcases h c hc with rfl | rfl <;> decide

lemma Follows.firstDelimiter_eq {r : Text} (h : Follows r) : firstDelimiter r = r.head? := by
  cases r with
  | nil => rfl
  | cons c r =>
    rcases h c rfl with rfl | rfl <;> rfl

/-- In front of what may follow, `f x` is taken for no other `f y` with the property `P`. -/
def Unmistakable {α : Type} (P : α → Prop) (f : α → Text) (x : α) : Prop :=
  ∀ ⦃y r r'⦄, P y → Follows r → Follows r' → f x ++ r = f y ++ r' → x = y ∧ r = r'

/-- What stands behind an item: the items after it, the end of the list, and the rest. -/
def closing : List Text → Text → Text
  | [], r => ')' :: r
  | p :: ps, r => ',' :: (p ++ closing ps r)

/-- What stands behind the beginning of a list. -/
def inside : List Text → Text → Text
  | [], r => ')' :: r
  | p :: ps, r => p ++ closing ps r

lemma follows_closing (ps : List Text) (r : Text) : Follows (closing ps r) := by
  cases ps with
  | nil =>
    rintro c ⟨⟩
    exact .inr rfl
  | cons p ps =>
    rintro c ⟨⟩
    exact .inl rfl

lemma parenthesized_append (ps : List Text) (r : Text) :
    parenthesized ps ++ r = '(' :: inside ps r := by
  have hclose : joinPieces ',' ps ++ ')' :: r = inside ps r := by
    induction ps with
    | nil => rfl
    | cons p ps ih =>
      cases ps with
      | nil => rfl
      | cons q ps =>
        rw [joinPieces, List.append_assoc, List.cons_append, ih]
        rfl
  rw [parenthesized, List.cons_append, List.append_assoc, List.singleton_append, hclose]

section

variable {α : Type} {P : α → Prop} {f : α → Text} {xs ys : List α} {r r' : Text}

lemma closing_inj (hxs : ∀ x ∈ xs, Unmistakable P f x) (hys : ∀ y ∈ ys, P y)
    (h : closing (xs.map f) r = closing (ys.map f) r') : xs = ys ∧ r = r' := by
  induction xs generalizing ys with
  | nil =>
    cases ys with
    | nil => exact ⟨rfl, (List.cons.inj h).2⟩
    | cons y ys => exact absurd (List.cons.inj h).1 (by decide)
  | cons x xs ih =>
    obtain ⟨hx, hxs⟩ := List.forall_mem_cons.mp hxs
    cases ys with
    | nil => exact absurd (List.cons.inj h).1 (by decide)
    | cons y ys =>
      obtain ⟨hy, hys'⟩ := List.forall_mem_cons.mp hys
      obtain ⟨rfl, htail⟩ :=
        hx hy (follows_closing _ _) (follows_closing _ _) (List.cons.inj h).2
      obtain ⟨rfl, hrest⟩ := ih hxs hys' htail
      exact ⟨rfl, hrest⟩

/-- **Lists of unmistakable items** are unmistakable, if no item begins as a list ends. -/
lemma inside_inj (hne : ∀ x, P x → ∀ s t, f x ++ s ≠ ')' :: t)
    (hxs : ∀ x ∈ xs, P x ∧ Unmistakable P f x) (hys : ∀ y ∈ ys, P y)
    (h : inside (xs.map f) r = inside (ys.map f) r') : xs = ys ∧ r = r' := by
  cases xs with
  | nil =>
    cases ys with
    | nil => exact ⟨rfl, (List.cons.inj h).2⟩
    | cons y ys => exact absurd h.symm (hne y (hys y (by simp)) _ _)
  | cons x xs =>
    obtain ⟨⟨hPx, hx⟩, hxs⟩ := List.forall_mem_cons.mp hxs
    cases ys with
    | nil => exact absurd h (hne x hPx _ _)
    | cons y ys =>
      obtain ⟨hy, hys'⟩ := List.forall_mem_cons.mp hys
      obtain ⟨rfl, htail⟩ := hx hy (follows_closing _ _) (follows_closing _ _) h
      obtain ⟨rfl, hrest⟩ := closing_inj (fun z hz => (hxs z hz).2) hys' htail
      exact ⟨rfl, hrest⟩

end

namespace Shape

/-- No text contains a bracket, no name a delimiter, and no map is empty. -/
inductive Clean : Shape → Prop where
  | text {s : Text} (h : s.Disjoint brackets) : Clean (.text s)
  | list {items : List Shape} (h : ∀ x ∈ items, Clean x) : Clean (.list items)
  | map {entries : List (Text × Shape)} (hne : entries ≠ [])
    (hname : ∀ e ∈ entries, e.1.Disjoint delimiters) (h : ∀ e ∈ entries, Clean e.2) :
    Clean (.map entries)

/-- The same for an entry. -/
def CleanEntry (e : Text × Shape) : Prop := e.1.Disjoint delimiters ∧ e.2.Clean

lemma clean_ofEntries {es : List (Text × Shape)} (h : ∀ e ∈ es, CleanEntry e) :
    (ofEntries es).Clean := by
  cases es with
  | nil => exact .list nofun
  | cons e es => exact .map (List.cons_ne_nil e es) (fun e he => (h e he).1) fun e he => (h e he).2

variable {x y : Shape} {s r r' : Text}

lemma write_text_inj {t : Text} (hs : s.Disjoint brackets) (ht : t.Disjoint brackets)
    (hr : Follows r) (hr' : Follows r') (h : (text s).write ++ r = (text t).write ++ r') :
    s = t ∧ r = r' := by
  have hdelimiter : '\'' ∈ delimiters := by decide
  rw [write, write] at h
  rcases quoteIfNeeded_of_disjoint hs with ⟨hs', hne, hbare⟩ | hs' <;>
    rcases quoteIfNeeded_of_disjoint ht with ⟨ht', hne', hbare'⟩ | ht' <;> rw [hs', ht'] at h
  · -- without quotes a text runs up to what follows
    exact append_inj_of_disjoint hbare hbare' hr.mem_delimiters hr'.mem_delimiters h
  · exact absurd h (append_ne_cons_of_disjoint hbare hne hdelimiter _ _)
  · exact absurd h.symm (append_ne_cons_of_disjoint hbare' hne' hdelimiter _ _)
  · -- in quotes it runs up to the next quote
    have hmem : ∀ z, ∀ c ∈ ('\'' :: z).head?, c ∈ brackets := mem_of_mem_head?_cons (by decide)
    simp only [List.cons_append, List.append_assoc] at h
    obtain ⟨rfl, hrest⟩ := append_inj_of_disjoint hs ht (hmem r) (hmem r') (List.cons.inj h).2
    exact ⟨rfl, (List.cons.inj hrest).2⟩

/-- The first delimiter in a text belongs to the quotes or to what follows. -/
lemma firstDelimiter_text (hs : s.Disjoint brackets) (hr : Follows r) :
    firstDelimiter ((text s).write ++ r) = some '\'' ∨
      firstDelimiter ((text s).write ++ r) = r.head? := by
  rw [write]
  rcases quoteIfNeeded_of_disjoint hs with ⟨hs', -, hbare⟩ | hs' <;> rw [hs']
  · rw [firstDelimiter_append hbare, hr.firstDelimiter_eq]
    exact .inr rfl
  · exact .inl rfl

lemma writeEntry_append (e : Text × Shape) (r : Text) :
    writeEntry e ++ r = e.1 ++ ':' :: ' ' :: (e.2.write ++ r) := by
  simp [writeEntry, entryText, mapKey]

lemma firstDelimiter_entry {e : Text × Shape} (he : e.1.Disjoint delimiters) (r : Text) :
    firstDelimiter (writeEntry e ++ r) = some ':' := by
  rw [writeEntry_append, firstDelimiter_append he]
  rfl

/-- A colon comes first only in the entries of a map. -/
lemma firstDelimiter_ne_colon (hx : x.Clean) (hr : Follows r) :
    firstDelimiter (x.write ++ r) ≠ some ':' := by
  cases hx with
  | text hs =>
    rcases firstDelimiter_text hs hr with h | h <;> rw [h]
    · decide
    · intro hhead
      rcases hr ':' hhead with h | h <;> cases h
  | list _ => nofun
  | map _ _ _ => nofun

/-- A parenthesis comes first only in lists and maps. -/
lemma write_text_ne_parenthesized (hs : s.Disjoint brackets) (hr : Follows r) (ps : List Text)
    (r' : Text) : (text s).write ++ r ≠ parenthesized ps ++ r' := by
  intro h
  have hfirst : firstDelimiter ((text s).write ++ r) = some '(' := by
    rw [h]
    rfl
  rcases firstDelimiter_text hs hr with htext | htext <;> rw [htext] at hfirst
  · cases hfirst
  · rcases hr '(' hfirst with h | h <;> cases h

lemma write_ne_close (hx : x.Clean) (r r' : Text) : x.write ++ r ≠ ')' :: r' := by
  intro h
  cases hx with
  | @text s hs =>
    rw [write] at h
    rcases quoteIfNeeded_of_disjoint hs with ⟨hs', hne, -⟩ | hs' <;> rw [hs'] at h
    · exact append_ne_cons_of_disjoint hs hne (by decide) _ _ h
    · exact absurd (List.cons.inj h).1 (by decide)
  | list _ => exact absurd (List.cons.inj h).1 (by decide)
  | map _ _ _ => exact absurd (List.cons.inj h).1 (by decide)

lemma writeEntry_ne_close {e : Text × Shape} (he : CleanEntry e) (r r' : Text) :
    writeEntry e ++ r ≠ ')' :: r' := by
  intro h
  have hfirst := firstDelimiter_entry he.1 r
  rw [h] at hfirst
  cases hfirst

/-- No list is written as a map. -/
lemma inside_items_ne_entries {items : List Shape} {entries : List (Text × Shape)}
    (hitems : ∀ x ∈ items, x.Clean) (hne : entries ≠ [])
    (hname : ∀ e ∈ entries, e.1.Disjoint delimiters) :
    inside (items.map write) r ≠ inside (entries.map writeEntry) r' := by
  obtain ⟨e, es, rfl⟩ := List.exists_cons_of_ne_nil hne
  intro h
  -- a name runs up to a colon, an item never does
  have hcolon := firstDelimiter_entry (hname e (by simp)) (closing (es.map writeEntry) r')
  rw [List.map_cons, inside] at h
  rw [← h] at hcolon
  cases items with
  | nil => cases hcolon
  | cons x xs => exact firstDelimiter_ne_colon (hitems x (by simp)) (follows_closing _ _) hcolon

lemma unmistakable_writeEntry {e : Text × Shape} (he : e.1.Disjoint delimiters)
    (hx : Unmistakable Clean write e.2) : Unmistakable CleanEntry writeEntry e := by
  intro e' r r' he' hr hr' h
  have hcolon : ∀ z, ∀ c ∈ (':' :: z).head?, c ∈ delimiters := mem_of_mem_head?_cons (by decide)
  rw [writeEntry_append, writeEntry_append] at h
  obtain ⟨hname, htail⟩ := append_inj_of_disjoint he he'.1 (hcolon _) (hcolon _) h
  obtain ⟨hvalue, hrest⟩ := hx he'.2 hr hr' (List.cons.inj (List.cons.inj htail).2).2
  exact ⟨Prod.ext hname hvalue, hrest⟩

/-- **How an expression is written determines it**, and where it ends. -/
theorem unmistakable_write (hx : x.Clean) : Unmistakable Clean write x := by
  induction hx with
  | text hs =>
    intro y r r' hy hr hr' h
    cases hy with
    | text ht =>
      obtain ⟨rfl, hrest⟩ := write_text_inj hs ht hr hr' h
      exact ⟨rfl, hrest⟩
    | list _ =>
      rw [write_list] at h
      exact absurd h (write_text_ne_parenthesized hs hr _ _)
    | map _ _ _ =>
      rw [write_map] at h
      exact absurd h (write_text_ne_parenthesized hs hr _ _)
  | list hitems ih =>
    intro y r r' hy hr hr' h
    rw [write_list] at h
    cases hy with
    | text ht => exact absurd h.symm (write_text_ne_parenthesized ht hr' _ _)
    | list hys =>
      rw [write_list, parenthesized_append, parenthesized_append] at h
      obtain ⟨rfl, hrest⟩ := inside_inj (fun x hx => write_ne_close hx)
        (fun x hx => ⟨hitems x hx, ih x hx⟩) hys (List.cons.inj h).2
      exact ⟨rfl, hrest⟩
    | map hne hname _ =>
      rw [write_map, parenthesized_append, parenthesized_append] at h
      exact absurd (List.cons.inj h).2 (inside_items_ne_entries hitems hne hname)
  | map hne hname hclean ih =>
    intro y r r' hy hr hr' h
    rw [write_map] at h
    cases hy with
    | text ht => exact absurd h.symm (write_text_ne_parenthesized ht hr' _ _)
    | list hys =>
      rw [write_list, parenthesized_append, parenthesized_append] at h
      exact absurd (List.cons.inj h).2.symm (inside_items_ne_entries hys hne hname)
    | map _ hname' hclean' =>
      rw [write_map, parenthesized_append, parenthesized_append] at h
      obtain ⟨rfl, hrest⟩ := inside_inj (fun e he => writeEntry_ne_close he)
        (fun e he => ⟨⟨hname e he, hclean e he⟩, unmistakable_writeEntry (hname e he) (ih e he)⟩)
        (fun e he => ⟨hname' e he, hclean' e he⟩) (List.cons.inj h).2
      exact ⟨rfl, hrest⟩

end Shape

/-! ### Values -/

/-- No string of a value contains a bracket, and no name a delimiter. What is left out may contain
anything. -/
inductive Separable : Value → Prop where
  | null : Separable .null
  | bool (b : Bool) : Separable (.bool b)
  | number (x : Double) : Separable (.number x)
  | string {s : Text} (h : s.Disjoint brackets) : Separable (.string s)
  | array {items : List Value} (h : ∀ v ∈ items, Separable v) : Separable (.array items)
  | object {entries : Entries}
    (hname : ∀ e ∈ survivors entries, (stripColon e.1).Disjoint delimiters)
    (h : ∀ e ∈ survivors entries, Separable e.2) : Separable (.object entries)

lemma Separable.clean_shapeOf {v : Value} (h : Separable v) : (shapeOf v).Clean := by
  induction h with
  | null => exact .text (disjoint_scalarText rfl rfl)
  | bool b => exact .text (disjoint_scalarText rfl rfl)
  | number x => exact .text (disjoint_scalarText rfl rfl)
  | string h => exact .text h
  | array _ ih =>
    rw [shapeOf_array]
    exact .list (List.forall_mem_map.mpr ih)
  | @object entries hname _ ih =>
    rw [shapeOf_object]
    refine Shape.clean_ofEntries (List.forall_mem_map.mpr fun e he => ?_)
    exact ⟨hname e he, ih e he⟩

/-- **Different shapes are never written alike.** Two values that can be written with default
settings have the same text if and only if they have the same shape, as long as no string contains a
parenthesis or a quote, and no name a comma or a colon besides. -/
theorem text_eq_iff_shapeOf_eq {v w : Value} {t u : Text} (hv : Separable v) (hw : Separable w)
    (ht : expression {} v = .ok t) (hu : expression {} w = .ok u) :
    t = u ↔ shapeOf v = shapeOf w := by
  rw [eq_written_of_eq_ok ht, eq_written_of_eq_ok hu, written_eq_write, written_eq_write]
  constructor
  · intro h
    exact (Shape.unmistakable_write hv.clean_shapeOf hw.clean_shapeOf follows_nil follows_nil
      (congrArg (· ++ []) h)).1
  · intro h
    rw [h]

/-- A value with a null, a truth value, a colon, and an object of which nothing is written. -/
def variedValue : Value :=
  .object [(":a".toList, .null),
    ("b c".toList, .array [.object [("$".toList, .string [')'])], .bool true, .string ['#']])]

/-- The same with texts and lists only. -/
def plainValue : Value :=
  .object [("a".toList, .string []),
    ("b c".toList, .array [.array [], .string "true".toList, .string ['#']])]

theorem shapeOf_variedValue :
    Separable variedValue ∧ Separable plainValue ∧
      expression {} variedValue = .ok "(a: '',b c: ((),true,#))".toList ∧
      expression {} plainValue = .ok "(a: '',b c: ((),true,#))".toList ∧
      shapeOf variedValue = shapeOf plainValue := by
  have hhash : Separable (.string ['#']) := .string (by decide)
  have htrue : Separable (.string "true".toList) := .string (by decide)
  have hleft : Separable (.object [("$".toList, .string [')'])]) := .object nofun nofun
  have hlist : Separable
      (.array [.object [("$".toList, .string [')'])], .bool true, .string ['#']]) :=
    .array (List.forall_mem_cons.mpr ⟨hleft,
      List.forall_mem_cons.mpr ⟨.bool true, List.forall_mem_singleton.mpr hhash⟩⟩)
  have hlist' : Separable (.array [.array [], .string "true".toList, .string ['#']]) :=
    .array (List.forall_mem_cons.mpr ⟨.array nofun,
      List.forall_mem_cons.mpr ⟨htrue, List.forall_mem_singleton.mpr hhash⟩⟩)
  have hvaried : Separable variedValue :=
    .object (by decide)
      (List.forall_mem_cons.mpr ⟨.null, List.forall_mem_singleton.mpr hlist⟩)
  have hplain : Separable plainValue :=
    .object (by decide)
      (List.forall_mem_cons.mpr ⟨.string nofun, List.forall_mem_singleton.mpr hlist'⟩)
  have htext : expression {} variedValue = .ok "(a: '',b c: ((),true,#))".toList := by
    decide +kernel
  have htext' : expression {} plainValue = .ok "(a: '',b c: ((),true,#))".toList := by
    decide +kernel
  exact ⟨hvaried, hplain, htext, htext',
    (text_eq_iff_shapeOf_eq hvaried hplain htext htext').mp rfl⟩

/-- A string in parentheses is taken for a list. -/
example : expression {} (.string "(a)".toList) = expression {} (.array [.string ['a']]) := by
  decide +kernel

end StyleVars.Sheet
