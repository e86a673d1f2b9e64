import Mathlib.Data.List.Nodup
import StyleVars.Proofs.Json.Value
import StyleVars.Proofs.Sheet.Kebab
import StyleVars.Proofs.Sheet.Written

/-!
When the entries of an object have names of their own. Different keys may become the same name in
two ways only: they have the same form, or one has a colon more at its beginning. How a name begins
is settled by its key: no key that becomes a name has a marker behind its colon, and kebab case puts
none there.
-/

namespace StyleVars.Sheet

open Json (Value Entries)
open Dictionary (keys)

/-- The names under which the entries of an object appear, in order. -/
def names (o : Settings) (es : Entries) : List Text := (survivors es).map fun e => nameOf o e.1

/-- The texts of the values of an object, in order. -/
def texts (o : Settings) (es : Entries) : List Text := (survivors es).map fun e => written o e.2

lemma zipWith_names_texts (o : Settings) (es : Entries) (f : Text → Text → Text) :
    List.zipWith f (names o es) (texts o es) =
      (survivors es).map fun e => f (nameOf o e.1) (written o e.2) := by
  simp [names, texts, List.zipWith_map]

lemma names_eq (o : Settings) (es : Entries) :
    names o es = (keys (survivors es)).map (nameOf o) := by
  rw [keys, List.map_map]
  rfl

lemma keys_survivors_sublist (es : Entries) : (keys (survivors es)).Sublist (keys es) :=
  List.filter_sublist.map _

lemma isEligible_of_mem_keys_survivors {es : Entries} {key : Text}
    (h : key ∈ keys (survivors es)) : isEligible key = true := by
  obtain ⟨e, he, rfl⟩ := List.mem_map.mp h
  have hs := (mem_survivors.mp he).2
  rw [survives, Bool.and_eq_true] at hs
  exact hs.1

/-- The names are those with which the declarations are written. -/
lemma eq_zipWith_of_stylesheet {o : Settings} {document : Entries} {t : Text}
    (h : stylesheet o document = .ok t) :
    t = joinPieces '\n' (List.zipWith declaration (names o document) (texts o document)) := by
  rw [eq_written_of_stylesheet h, writtenDeclarations, zipWith_names_texts]

/-- The names are those with which the entries of a map are written. -/
lemma eq_zipWith_of_expressionAt {o : Settings} {depth : Nat} {path : List Text} {es : Entries}
    {t : Text} (h : expressionAt o depth path (.object es) = .ok t) :
    t = parenthesized (List.zipWith (entryText o) (names o es) (texts o es)) := by
  rw [eq_written_of_eq_ok h, written_object, zipWith_names_texts]

/-! ### One colon -/

/-- A key that is eligible is its name, or its name behind a colon. -/
lemma eq_or_eq_of_stripColon (s : Text) : s = stripColon s ∨ s = ':' :: stripColon s := by
  unfold stripColon
  split
  · exact .inr rfl
  · exact .inl rfl

/-- What an eligible key has behind a colon begins with no other one. -/
lemma stripColon_of_isEligible_colon {s : Text} (h : isEligible (':' :: s) = true) :
    stripColon s = s := by
  cases s with
  | nil => rfl
  | cons c s =>
    refine stripColon_cons_of_ne ?_ s
    rintro rfl
    cases h

lemma stripColon_eq_iff {s t : Text} (hs : isEligible s = true) (ht : isEligible t = true) :
    stripColon s = stripColon t ↔ s = t ∨ s = ':' :: t ∨ t = ':' :: s := by
  constructor
  · intro h
    rcases eq_or_eq_of_stripColon s with hs | hs <;> rcases eq_or_eq_of_stripColon t with ht | ht
    · exact .inl (by rw [hs, ht, h])
    · exact .inr (.inr (by rw [ht, ← h, ← hs]))
    · exact .inr (.inl (by rw [hs, h, ← ht]))
    · exact .inl (by rw [hs, ht, h])
  · rintro (rfl | rfl | rfl)
    · rfl
    · exact (stripColon_of_isEligible_colon hs).symm
    · exact stripColon_of_isEligible_colon ht

/-! ### Objects -/

/-- Two keys that become the same name: their forms are the same, or one of them is the other
behind a colon. -/
def Coincide (o : Settings) (k l : Text) : Prop :=
  keyForm o k = keyForm o l ∨ keyForm o k = ':' :: keyForm o l ∨ keyForm o l = ':' :: keyForm o k

instance (o : Settings) (k l : Text) : Decidable (Coincide o k l) :=
  inferInstanceAs (Decidable (_ ∨ _))

lemma nameOf_eq_iff {o : Settings} {k l : Text} (hk : isEligible k = true)
    (hl : isEligible l = true) : nameOf o k = nameOf o l ↔ Coincide o k l := by
  rw [← isEligible_keyForm o] at hk hl
  rw [nameOf_eq, nameOf_eq, stripColon_eq_iff hk hl, Coincide]

theorem nodup_names_iff {o : Settings} {es : Entries} (h : (keys es).Nodup) :
    (names o es).Nodup ↔
      ∀ k ∈ keys (survivors es), ∀ l ∈ keys (survivors es), Coincide o k l → k = l := by
  rw [names_eq, List.nodup_map_iff_inj_on (h.sublist (keys_survivors_sublist es))]
  refine forall₄_congr fun k hk l hl => ?_
  rw [nameOf_eq_iff (isEligible_of_mem_keys_survivors hk) (isEligible_of_mem_keys_survivors hl)]

/-- **Different keys have different names, in every object at every depth, unless they coincide.**
The names are those with which the declarations and the entries of maps are written. -/
theorem names_distinct_unless_coincide (o : Settings) {document : Entries}
    (h : (Value.object document).EachObject fun es => (keys es).Nodup) :
    (∀ t, stylesheet o document = .ok t →
        t = joinPieces '\n' (List.zipWith declaration (names o document) (texts o document))) ∧
      (Value.object document).EachObject fun es =>
        (∀ depth path t, expressionAt o depth path (.object es) = .ok t →
          t = parenthesized (List.zipWith (entryText o) (names o es) (texts o es))) ∧
        ((names o es).Nodup ↔
          ∀ k ∈ keys (survivors es), ∀ l ∈ keys (survivors es), Coincide o k l → k = l) := by
  refine ⟨fun t ht => ?_, h.mono fun es hes => ⟨fun depth path t ht => ?_, nodup_names_iff hes⟩⟩
  · exact eq_zipWith_of_stylesheet ht
  · exact eq_zipWith_of_expressionAt ht

/-- Two objects inside of each other with a colon, capitals and a hyphen in their keys. -/
def mixedKeys : Entries :=
  [(":aB".toList, .object [("b".toList, .null), (":c".toList, .null)]), ("a-c".toList, .null),
    ("::aB".toList, .null)]

theorem nodup_names_mixedKeys :
    (Value.object mixedKeys).EachObject (fun es => (keys es).Nodup) ∧
      (names { convertCase := true } mixedKeys).Nodup := by
  have hinner : (Value.object [("b".toList, .null), (":c".toList, .null)]).EachObject
      (fun es => (keys es).Nodup) :=
    .object (by decide) (List.forall_mem_cons.mpr ⟨.null, List.forall_mem_singleton.mpr .null⟩)
  have hkeys : (Value.object mixedKeys).EachObject (fun es => (keys es).Nodup) :=
    .object (by decide) (List.forall_mem_cons.mpr
      ⟨hinner, List.forall_mem_cons.mpr ⟨.null, List.forall_mem_singleton.mpr .null⟩⟩)
  obtain ⟨-, heach⟩ := names_distinct_unless_coincide { convertCase := true } hkeys
  cases heach with
  | object here _ => exact ⟨hkeys, here.2.mpr (by decide +kernel)⟩

/-- **A name does not tell with which key it began**: a colon is taken away, and capitals are
lost in kebab case. -/
theorem not_nodup_names :
    stylesheet {} [(":a".toList, .null), ("a".toList, .null)] = .ok "$a: '';\n$a: '';".toList ∧
      ¬ (names {} [(":a".toList, .null), ("a".toList, .null)]).Nodup ∧
      ¬ (names { convertCase := true } [("aB".toList, .null), ("a-b".toList, .null)]).Nodup := by
  refine ⟨rfl, by decide, ?_⟩
  decide +kernel

/-! ### How names begin -/

/-- Behind the colon of an eligible key stands no marker. -/
lemma isMarker_of_isEligible {key : Text} {c : Char} (h : isEligible key = true)
    (hc : (stripColon key).head? = some c) : isMarker c = false := by
  obtain ⟨cs, hcs⟩ := List.head?_eq_some_iff.mp hc
  rw [isEligible, hcs] at h
  simpa using h

lemma isMarker_of_mem_names {o : Settings} {es : Entries} {name : Text} {c : Char}
    (h : name ∈ names o es) (hc : name.head? = some c) : isMarker c = false := by
  rw [names_eq] at h
  obtain ⟨key, hkey, rfl⟩ := List.mem_map.mp h
  have heligible : isEligible (keyForm o key) = true := by
    rw [isEligible_keyForm]
    exact isEligible_of_mem_keys_survivors hkey
  exact isMarker_of_isEligible heligible hc

/-- In quotes a name begins with the quote. -/
lemma isMarker_of_mapKey {o : Settings} {name : Text} {c : Char}
    (h : ∀ c, name.head? = some c → isMarker c = false) (hc : (mapKey o name).head? = some c) :
    isMarker c = false := by
  rw [mapKey] at hc
  split at hc
  · obtain rfl : '"' = c := Option.some.inj hc
    rfl
  · exact h c hc

/-- **No name begins with a marker**, neither of a declaration nor in a map, with any settings. Keys
are chosen before the conversion and lose their colon after it, but either could be done on the
other side of it as well. -/
theorem names_begin_without_marker :
    (∀ key, isEligible (kebab key) = isEligible key ∧
      stripColon (kebab key) = kebab (stripColon key)) ∧
    ∀ (o : Settings) (es : Entries),
      (∀ t, stylesheet o es = .ok t →
        t = joinPieces '\n' (List.zipWith declaration (names o es) (texts o es))) ∧
      (∀ depth path t, expressionAt o depth path (.object es) = .ok t →
        t = parenthesized (List.zipWith (entryText o) (names o es) (texts o es))) ∧
      ∀ name ∈ names o es, ∀ c ∈ ['$', '@', ':'],
        name.head? ≠ some c ∧ (mapKey o name).head? ≠ some c := by
  refine ⟨fun key => ⟨isEligible_kebab key, stripColon_kebab key⟩, fun o es =>
    ⟨fun t => eq_zipWith_of_stylesheet, fun depth path t => eq_zipWith_of_expressionAt, ?_⟩⟩
  intro name hname c hc
  have hmarker : isMarker c = true := by simpa [isMarker, or_assoc] using hc
  have hbegins : ∀ c, name.head? = some c → isMarker c = false := fun _ =>
    isMarker_of_mem_names hname
  exact ⟨fun h => Bool.false_ne_true ((hbegins c h).symm.trans hmarker),
    fun h => Bool.false_ne_true ((isMarker_of_mapKey hbegins h).symm.trans hmarker)⟩

/-- Keys with markers before and behind a colon, and with letters whose form hangs on what stands
around them. -/
def markedKeys : Entries :=
  [(":ΟΔΟΣ".toList, .object [("$a".toList, .null), (":@b".toList, .null), (":İd".toList, .null)]),
    ("::c".toList, .null)]

theorem markedKeys_begin_without_marker :
    stylesheet { convertCase := true } markedKeys = .ok "$οδος: (i\u0307d: '');".toList ∧
      "οδος".toList ∈ names { convertCase := true } markedKeys ∧
      ∀ c ∈ ['$', '@', ':'], "οδος".toList.head? ≠ some c ∧
        (mapKey { convertCase := true } "οδος".toList).head? ≠ some c := by
  obtain ⟨-, hnames⟩ := names_begin_without_marker
  have hmem : "οδος".toList ∈ names { convertCase := true } markedKeys := by decide +kernel
  exact ⟨by decide +kernel, hmem, (hnames _ markedKeys).2.2 _ hmem⟩

end StyleVars.Sheet
