import StyleVars.Proofs.Sheet.Link
import StyleVars.Proofs.Sheet.Scanner
import StyleVars.Proofs.Sheet.Written

/-!
Stylesheets read back by their structure: one declaration for each entry that survives. Names are
written as they are, and so are strings without reserved characters, so each of these has to be
complete in itself; in quotes it is enough that no backslash takes the meaning from a delimiter.
Nothing else has any influence on the structure.
-/

namespace StyleVars.Sheet

open Json (Value Entries)
open Scanner (outside run)

/-- A string that has no influence on what is around it: in quotes no backslash breaks it open, and
without quotes it is a text with the property `P`. -/
def StringFits (P : Text → Prop) (o : Settings) (s : Text) : Prop :=
  if needsQuotes (linked o s) then Unbroken '\'' (linked o s) else P (linked o s)

/-- A name that has no influence on the map of which it is a key. -/
def KeyFits (o : Settings) (name : Text) : Prop :=
  if o.quoteKeys then Unbroken '"' name else Level name

/-- All keys and strings that are written within a value have no influence on what is around
them. -/
inductive Contained (o : Settings) : Value → Prop where
  | null : Contained o .null
  | bool (b : Bool) : Contained o (.bool b)
  | number (x : Double) : Contained o (.number x)
  | string {s : Text} (h : StringFits Level o s) : Contained o (.string s)
  | array {items : List Value} (h : ∀ v ∈ items, Contained o v) : Contained o (.array items)
  | object {entries : Entries} (hkey : ∀ e ∈ survivors entries, KeyFits o (nameOf o e.1))
    (h : ∀ e ∈ survivors entries, Contained o e.2) : Contained o (.object entries)

/-- An entry of a document whose keys and strings stay within its declaration. Outside of all lists
and maps a string must not end a declaration either. -/
structure Declarable (o : Settings) (key : Text) (v : Value) : Prop where
  name : Closed (nameOf o key)
  string : ∀ s, v = .string s → StringFits Closed o s
  value : Contained o v

instance (P : Text → Prop) [DecidablePred P] (o : Settings) (s : Text) :
    Decidable (StringFits P o s) :=
  inferInstanceAs (Decidable
    (if needsQuotes (linked o s) then Unbroken '\'' (linked o s) else P (linked o s)))

/-- A stylesheet, if there is one, is read as one declaration for each entry that survives. -/
def ReadsAsDeclarations (o : Settings) (document : Entries) : Prop :=
  ∀ t, stylesheet o document = .ok t →
    run (outside 0 0) t = some (outside 0 (survivors document).length)

/-! ### Strings and names -/

variable {o : Settings}

lemma fits_stringExpression {P : Text → Prop} (hP : ∀ t, Closed t → P t) {s : Text}
    (h : StringFits P o s) : P (stringExpression o s) := by
  rw [StringFits] at h
  rw [stringExpression_eq, quoteIfNeeded]
  by_cases hq : needsQuotes (linked o s) = true
  · rw [if_pos hq] at h ⊢
    exact hP _ (closed_quote (.inl rfl) h)
  · rwa [if_neg hq] at h ⊢

lemma level_mapKey {name : Text} (h : KeyFits o name) : Level (mapKey o name) := by
  rw [KeyFits] at h
  rw [mapKey]
  by_cases hq : o.quoteKeys = true
  · rw [if_pos hq] at h ⊢
    exact (closed_quote (.inr rfl) h).level
  · rwa [if_neg hq] at h ⊢

/-- Numbers and truth values are written with characters that mean nothing to the reader. -/
lemma isPlain_of_mem_scalarText {v : Value} (hv : v.string? = none) :
    ∀ c ∈ scalarText v, isPlain c = true := by
  intro c hc
  have hmark : c ∉ marks := fun h => disjoint_scalarText rfl hv hc h
  simpa [isPlain] using hmark

lemma unbroken_of_notMem {d : Char} {s : Text} (h : '\\' ∉ s) : Unbroken d s := by
  rw [Unbroken]
  induction s with
  | nil => rfl
  | cons c s ih =>
    have hc : (c == '\\') = false := by simpa using (List.ne_of_not_mem_cons h).symm
    rw [unbrokenFrom, if_neg Bool.false_ne_true, hc]
    exact ih (List.not_mem_of_not_mem_cons h)

/-- What is no string has no influence on what is around it. -/
lemma closed_scalar (o : Settings) {v : Value} (hv : v.string? = none) :
    Closed (stringExpression o (scalarText v)) := by
  have hlinked : linked o (scalarText v) = scalarText v :=
    linked_of_notMem (notMem_scalarText rfl hv) o
  have hfits : StringFits Closed o (scalarText v) := by
    rw [StringFits, hlinked]
    split
    · exact unbroken_of_notMem (notMem_scalarText rfl hv)
    · exact closed_of_plain (isPlain_of_mem_scalarText hv)
  exact fits_stringExpression (fun _ => id) hfits

/-! ### Values -/

/-- **A value that contains nothing harmful** is level, and ends no declaration unless it is a
string. -/
theorem level_written {v : Value} (h : Contained o v) :
    Level (written o v) ∧ (v.string? = none → Closed (written o v)) := by
  induction h with
  | null => exact ⟨(closed_scalar o rfl).level, fun _ => closed_scalar o rfl⟩
  | bool b => exact ⟨(closed_scalar o rfl).level, fun _ => closed_scalar o rfl⟩
  | number x => exact ⟨(closed_scalar o rfl).level, fun _ => closed_scalar o rfl⟩
  | string h => exact ⟨fits_stringExpression (fun _ => Closed.level) h, nofun⟩
  | @array items _ ih =>
    have hclosed : Closed (written o (.array items)) := by
      rw [written_array]
      exact closed_parenthesized (List.forall_mem_map.mpr fun v hv => (ih v hv).1)
    exact ⟨hclosed.level, fun _ => hclosed⟩
  | @object entries hkey _ ih =>
    have hclosed : Closed (written o (.object entries)) := by
      rw [written_object]
      refine closed_parenthesized (List.forall_mem_map.mpr fun e he => ?_)
      have hcolon : Closed ": ".toList := by decide
      exact ((level_mapKey (hkey e he)).append hcolon.level).append (ih e he).1
    exact ⟨hclosed.level, fun _ => hclosed⟩

lemma Declarable.closed_written {key : Text} {v : Value} (h : Declarable o key v) :
    Closed (written o v) := by
  cases v with
  | string s => exact fits_stringExpression (fun _ => id) (h.string s rfl)
  | _ => exact (level_written h.value).2 rfl

/-! ### Documents -/

/-- A declaration ends once. -/
lemma run_declaration {key : Text} {v : Value} (h : Declarable o key v) (n : Nat) (t : Text) :
    run (outside 0 n) (declaration (nameOf o key) (written o v) ++ t) =
      run (outside 0 (n + 1)) t := by
  have hcolon : Closed ": ".toList := by decide
  have hclosed : Closed ('$' :: (nameOf o key ++ ": ".toList ++ written o v)) :=
    .cons rfl ((h.name.append hcolon).append h.closed_written)
  have happend : declaration (nameOf o key) (written o v) ++ t =
      '$' :: (nameOf o key ++ ": ".toList ++ written o v) ++ (';' :: t) := by
    simp [declaration]
  rw [happend, Scanner.run_append_of_run (hclosed.run_eq 0 n)]
  rfl

lemma run_declarations (n : Nat) : ∀ es : Entries, (∀ e ∈ es, Declarable o e.1 e.2) →
    run (outside 0 n)
        (joinPieces '\n' (es.map fun e => declaration (nameOf o e.1) (written o e.2))) =
      some (outside 0 (n + es.length))
  | [], _ => rfl
  | [e], h => by
    have hrun := run_declaration (h e (by simp)) n []
    rwa [List.append_nil] at hrun
  | e :: f :: es, h => by
    obtain ⟨he, hes⟩ := List.forall_mem_cons.mp h
    have ih := run_declarations (n + 1) (f :: es) hes
    rw [List.map_cons, List.map_cons, joinPieces, run_declaration he]
    rw [List.map_cons] at ih
    have hline : Scanner.step (outside 0 (n + 1)) '\n' = some (outside 0 (n + 1)) := rfl
    rw [Scanner.run_cons_of_step hline, ih]
    simp only [List.length_cons]
    congr 2
    omega

/-- **A stylesheet is read as one declaration for each entry that survives**, if every name and
every string without quotes is complete in itself and no backslash breaks quotes open. -/
theorem reads_as_declarations {document : Entries}
    (h : ∀ e ∈ survivors document, Declarable o e.1 e.2) : ReadsAsDeclarations o document := by
  intro t ht
  rw [eq_written_of_stylesheet ht, writtenDeclarations, run_declarations 0 _ h, Nat.zero_add]

/-- A document full of marks that do no harm: quotes hide a semicolon and parentheses, a name has
quotes and parentheses that are complete, a semicolon inside of a list ends nothing, and what is
left out may be anything. -/
def markedDocument : Entries :=
  [(['a'], .string "x;y)(',".toList), ("$;".toList, .null),
    ("f('\"')".toList,
      .object [("k".toList, .array [.string [';'], .bool true]), ("$".toList, .string [')'])])]

theorem markedDocument_reads_as_declarations :
    (∀ e ∈ survivors markedDocument, Declarable {} e.1 e.2) ∧
      ∃ t, stylesheet {} markedDocument = .ok t ∧
        run (outside 0 0) t = some (outside 0 2) := by
  have hquoted : StringFits Closed {} "x;y)(',".toList := by decide
  have hstring : Declarable {} ['a'] (.string "x;y)(',".toList) :=
    ⟨by decide, fun s hs => by cases hs; exact hquoted, .string hquoted⟩
  have hlevel : Level [';'] := ⟨1, rfl⟩
  have hitems : Contained {} (.array [.string [';'], .bool true]) :=
    .array (List.forall_mem_cons.mpr ⟨.string hlevel, List.forall_mem_singleton.mpr (.bool _)⟩)
  have hobject : Contained {} (.object [("k".toList, .array [.string [';'], .bool true]),
      ("$".toList, .string [')'])]) :=
    .object (List.forall_mem_singleton.mpr ⟨0, rfl⟩) (List.forall_mem_singleton.mpr hitems)
  have hall : ∀ e ∈ survivors markedDocument, Declarable {} e.1 e.2 :=
    List.forall_mem_cons.mpr
      ⟨hstring, List.forall_mem_singleton.mpr ⟨by decide, nofun, hobject⟩⟩
  exact ⟨hall, _, rfl, reads_as_declarations hall _ rfl⟩

/-- **Texts without quotes are not looked into**, and in quotes a backslash at the end takes the
meaning from the delimiter: a string ends its declaration, closes a list or runs on, and a key ends
its declaration. -/
theorem not_reads_as_declarations :
    ¬ ReadsAsDeclarations {} [(['a'], .string [';'])] ∧
      ¬ ReadsAsDeclarations {} [(['a'], .array [.string [')']])] ∧
      ¬ ReadsAsDeclarations {} [(['a'], .string [',', '\\'])] ∧
      ¬ ReadsAsDeclarations {} [(['a', ';', 'b'], .null)] := by
  refine ⟨fun h => ?_, fun h => ?_, fun h => ?_, fun h => ?_⟩
  · exact absurd (h "$a: ;;".toList rfl) (by decide)
  · exact absurd (h "$a: ());".toList rfl) (by decide)
  · exact absurd (h "$a: ',\\';".toList rfl) (by decide)
  · exact absurd (h "$a;b: '';".toList rfl) (by decide)

end StyleVars.Sheet
