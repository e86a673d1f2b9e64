import StyleVars.Proofs.Settings.Form
import StyleVars.Settings.Reader

/-!
What settings files say. An object describes settings if each of its members spells the value of the
setting that its key names, no setting is named twice, and those that are not named have their
defaults. Such a file is read as these settings.
-/

namespace StyleVars.Settings

open Json (StringSpelled IsWhole)
open Reader (Form Reads Exact Accepts)

/-! ### Descriptions -/

/-- The keys of the settings, with what they name. -/
def keys : List (Text × Field) :=
  [("loadPaths".toList, .loadPaths), ("convertCase".toList, .convertCase),
    ("resolveInternalLinks".toList, .resolveLinks),
    ("resolveWordPressInternals".toList, .resolveLinks), ("stringifyAllKeys".toList, .quoteKeys),
    ("stringifyKeys".toList, .quoteKeys), ("limits".toList, .limits)]

def limitKeys : List (Text × LimitField) :=
  [("maxInputSize".toList, .size), ("maxNestingDepth".toList, .depth)]

section Describes

variable {φ : Type} (keys : List (Text × φ))

/-- No two of the members `ms` name the same field. -/
def NamesOnce (ms : List (Text × Text)) : Prop :=
  ms.Pairwise fun m n => ∀ x, (m.1, x) ∈ keys → (n.1, x) ∉ keys

/-- The members `ms` describe a record. The text `v` is a value of its field `x` if `spelled x v`
holds, and the field has its default value if `isDefault x` does. -/
structure Describes (spelled : φ → Text → Prop) (isDefault : φ → Prop)
    (ms : List (Text × Text)) : Prop where
  spelled : ∀ m ∈ ms, ∀ x, (m.1, x) ∈ keys → spelled x m.2
  once : NamesOnce keys ms
  rest : ∀ x, (∀ m ∈ ms, (m.1, x) ∉ keys) → isDefault x

end Describes

def LimitField.value (limits : Json.Limits) : LimitField → Nat
  | size => limits.maxInputSize
  | depth => limits.maxNestingDepth

/-- The text `v` spells the limits: any of them that have their defaults may be missing, and other
keys stand for nothing. -/
def LimitsSpelled (limits : Json.Limits) (v : Text) : Prop :=
  ∃ ms, ObjectSpelled v ms ∧ (∀ m ∈ ms, IsJson m.2) ∧
    Describes limitKeys (fun x v => IsWhole v ∧ Numeral.value v = x.value limits)
      (fun x => x.value .standard = x.value limits) ms

namespace Field

/-- The text `v` spells what the settings `o` have in a field. -/
def Spelled (o : Settings) : Field → Text → Prop
  | loadPaths, v => ∃ vs ss, ArraySpelled v vs ∧ List.Forall₂ StringSpelled vs ss ∧
      ss.map Path.ofText = o.loadPaths
  | convertCase, v => v = boolText o.convertCase
  | resolveLinks, v => v = boolText o.resolveLinks
  | quoteKeys, v => v = boolText o.quoteKeys
  | limits, v => LimitsSpelled o.limits v

/-- The settings `o` and `p` are the same in a field. -/
def Agrees (o p : Settings) : Field → Prop
  | loadPaths => p.loadPaths = o.loadPaths
  | convertCase => p.convertCase = o.convertCase
  | resolveLinks => p.resolveLinks = o.resolveLinks
  | quoteKeys => p.quoteKeys = o.quoteKeys
  | limits => p.limits = o.limits

end Field

/-! ### Reading descriptions -/

section Describes

variable {φ α : Type} {keys : List (Text × φ)} {f : Form φ α} {ms : List (Text × Text)}

lemma nodup_mentioned_iff (hkeys : ∀ {key x}, f.field? key = some x ↔ (key, x) ∈ keys) :
    (f.mentioned ms).Nodup ↔ NamesOnce keys ms := by
  rw [Form.mentioned, List.Nodup, List.pairwise_filterMap, NamesOnce]
  simp only [hkeys]
  constructor
  · exact List.Pairwise.imp fun h x hm hn => h x hm x hn rfl
  · refine List.Pairwise.imp fun h x hm y hn hxy => ?_
    subst hxy
    exact h x hm hn

lemma agrees_foldl {agrees : φ → α → Prop} {update : φ → α → α}
    (hupdate : ∀ x y a, y = x ∨ agrees y a → agrees y (update x a)) {xs : List φ} {a : α} {y : φ}
    (h : y ∈ xs ∨ agrees y a) : agrees y (xs.foldl (fun a x => update x a) a) := by
  induction xs generalizing a with
  | nil => exact h.resolve_left List.not_mem_nil
  | cons x xs ih =>
    rw [List.mem_cons, or_right_comm] at h
    exact ih (h.symm.imp_right (hupdate x y a))

variable [DecidableEq φ]

/-- A description of the record `o` is read as `o`. -/
lemma reads_of_describes (hkeys : ∀ {key x}, f.field? key = some x ↔ (key, x) ∈ keys) {o a : α}
    {spelled : φ → Text → Prop} (agrees : φ → α → Prop) (update : φ → α → α)
    (hupdate : ∀ x y a, y = x ∨ agrees y a → agrees y (update x a))
    (heq : ∀ a, (∀ y, agrees y a) → a = o)
    (hfill : ∀ x v, spelled x v → ∀ a, Reads (f.fill x a) v (update x a)) {v : Text}
    (hv : ObjectSpelled v ms) (hjson : ∀ m ∈ ms, IsJson m.2)
    (hpass : ∀ m ∈ ms, f.field? m.1 = none → f.Passes m.1)
    (h : Describes keys spelled (fun y => agrees y a) ms) : Reads (f.read a) v o := by
  have hread := f.reads_object hv hjson
    (fun m hm x hx => hfill x m.2 (h.spelled m hm x (hkeys.mp hx))) hpass
    ((nodup_mentioned_iff hkeys).mpr h.once) a
  rwa [heq _ fun y => agrees_foldl hupdate ?_] at hread
  by_cases hy : ∃ m ∈ ms, (m.1, y) ∈ keys
  · obtain ⟨m, hm, hy⟩ := hy
    exact .inl (List.mem_filterMap.mpr ⟨m, hm, hkeys.mpr hy⟩)
  · push Not at hy
    exact .inr (h.rest y hy)

end Describes

namespace LimitField

lemma ofKey?_eq_some_iff {key : Text} {x : LimitField} :
    ofKey? key = some x ↔ (key, x) ∈ limitKeys := by
  constructor
  · intro h
    have hname : x.name.toList = key := by simpa using List.find?_some h
    subst hname
    cases x <;> decide
  · intro h
    have all : ∀ m ∈ limitKeys, ofKey? m.1 = some m.2 := by decide
    exact all (key, x) h

/-- The limits `l`, with what `limits` have in one field. -/
def copy (limits : Json.Limits) : LimitField → Json.Limits → Json.Limits
  | size, l => { l with maxInputSize := limits.maxInputSize }
  | depth, l => { l with maxNestingDepth := limits.maxNestingDepth }

lemma sound_form : form.Sound where
  fill x a v hv := by
    cases x with
    | size => exact (Reader.exact_natural hv .size).bind_pure _
    | depth => exact (Reader.exact_natural hv .depth).bind_pure _
  stranger _ := .inl rfl

lemma reads_fill {limits : Json.Limits} (hlt : ∀ x, value limits x < Reader.integerBound)
    (x : LimitField) {v : Text} (hw : IsWhole v) (hv : Numeral.value v = value limits x)
    (a : Json.Limits) : Reads (form.fill x a) v (copy limits x a) := by
  have hbound : Numeral.value v < Reader.integerBound := hv ▸ hlt x
  cases x with
  | size =>
    have h := (Reader.reads_natural hw hbound .size).bind_pure
      fun n => ({ a with maxInputSize := n } : Json.Limits)
    rwa [hv] at h
  | depth =>
    have h := (Reader.reads_natural hw hbound .depth).bind_pure
      fun n => ({ a with maxNestingDepth := n } : Json.Limits)
    rwa [hv] at h

end LimitField

lemma reads_limits {limits : Json.Limits}
    (hlt : ∀ x, LimitField.value limits x < Reader.integerBound) {v : Text}
    (h : LimitsSpelled limits v) : Reads (LimitField.form.read .standard) v limits := by
  obtain ⟨ms, hv, hjson, hms⟩ := h
  refine reads_of_describes (f := LimitField.form) LimitField.ofKey?_eq_some_iff
    (fun x a => x.value a = x.value limits) (LimitField.copy limits) ?_ ?_
    (fun x v h => LimitField.reads_fill hlt x h.1 h.2) hv hjson (fun _ _ _ => rfl) hms
  · intro x y a h
    cases x <;> cases y <;> simp_all [LimitField.value, LimitField.copy]
  · intro a h
    have hsize := h .size
    have hdepth := h .depth
    cases a
    simp_all [LimitField.value]

/-! ### Settings -/

namespace Field

lemma ofKey?_eq_some_iff {key : Text} {x : Field} : ofKey? key = some x ↔ (key, x) ∈ keys := by
  constructor
  · intro h
    have hname : ∃ s ∈ x.spellings, s.toList = key := by simpa using List.find?_some h
    obtain ⟨s, hs, rfl⟩ := hname
    have all : ∀ x : Field, ∀ s ∈ x.spellings, (s.toList, x) ∈ keys := by
      intro x
      cases x <;> decide
    exact all x s hs
  · intro h
    have all : ∀ m ∈ keys, ofKey? m.1 = some m.2 := by decide
    exact all (key, x) h

/-- The settings `p`, with what the settings `o` have in one field. -/
def copy (o : Settings) : Field → Settings → Settings
  | loadPaths, p => { p with loadPaths := o.loadPaths }
  | convertCase, p => { p with convertCase := o.convertCase }
  | resolveLinks, p => { p with resolveLinks := o.resolveLinks }
  | quoteKeys, p => { p with quoteKeys := o.quoteKeys }
  | limits, p => { p with limits := o.limits }

lemma sound_form : form.Sound where
  fill x a v hv := by
    cases x with
    | loadPaths => exact (Reader.exact_list hv fun _ => Reader.exact_path).bind_pure _
    | convertCase => exact (Reader.exact_bool hv).bind_pure _
    | resolveLinks => exact (Reader.exact_bool hv).bind_pure _
    | quoteKeys => exact (Reader.exact_bool hv).bind_pure _
    | limits => exact (LimitField.form.exact_read LimitField.sound_form hv .standard).bind_pure _
  stranger key := by
    refine .inr fun s p h => ?_
    cases h

lemma reads_fill {o : Settings} (hlt : ∀ x, LimitField.value o.limits x < Reader.integerBound)
    (x : Field) {v : Text} (hv : Spelled o x v) (p : Settings) :
    Reads (form.fill x p) v (copy o x p) := by
  cases x with
  | loadPaths =>
    obtain ⟨vs, ss, hlist, hss, hpaths⟩ := hv
    have hitems : List.Forall₂ (fun v a => IsJson v ∧ Reads Reader.path v a) vs
        (ss.map Path.ofText) :=
      List.forall₂_map_right_iff.mpr (hss.imp fun _ _ h => ⟨.string h, Reader.reads_path h⟩)
    have h := (Reader.reads_list hlist hitems).bind_pure
      fun paths => ({ p with loadPaths := paths } : Settings)
    rwa [hpaths] at h
  | convertCase =>
    obtain rfl := hv
    exact (Reader.reads_bool o.convertCase).bind_pure fun b => { p with convertCase := b }
  | resolveLinks =>
    obtain rfl := hv
    exact (Reader.reads_bool o.resolveLinks).bind_pure fun b => { p with resolveLinks := b }
  | quoteKeys =>
    obtain rfl := hv
    exact (Reader.reads_bool o.quoteKeys).bind_pure fun b => { p with quoteKeys := b }
  | limits => exact (reads_limits hlt hv).bind_pure fun l => { p with limits := l }

end Field

lemma reads_settings {o : Settings} (hlt : ∀ x, LimitField.value o.limits x < Reader.integerBound)
    {v : Text} {ms : List (Text × Text)} (hv : ObjectSpelled v ms) (hjson : ∀ m ∈ ms, IsJson m.2)
    (hknown : ∀ m ∈ ms, ∃ x, (m.1, x) ∈ keys)
    (h : Describes keys (Field.Spelled o) (Field.Agrees o {}) ms) :
    Reads (Field.form.read {}) v o := by
  refine reads_of_describes (f := Field.form) Field.ofKey?_eq_some_iff
    (fun x p => x.Agrees o p) (Field.copy o) ?_ ?_
    (fun x v h => Field.reads_fill hlt x h) hv hjson ?_ h
  · intro x y p h
    cases x <;> cases y <;> simp_all [Field.Agrees, Field.copy]
  · intro p h
    have hpaths := h .loadPaths
    have hcase := h .convertCase
    have hlinks := h .resolveLinks
    have hquote := h .quoteKeys
    have hlimits := h .limits
    cases p
    simp_all [Field.Agrees]
  · intro m hm hnone
    obtain ⟨x, hx⟩ := hknown m hm
    exact nomatch hnone.symm.trans (Field.ofKey?_eq_some_iff.mpr hx)

/-- Blanks may stand around the object, and nothing else. -/
lemma read_of_reads {x v : Text} {o : Settings} (hx : Padded x v)
    (h : Reads (Field.form.read {}) v o) : read x = .ok o := by
  obtain ⟨ha, hb⟩ := hx
  rename_i a b
  have hquiet : Json.Quiet b := by
    rw [← List.append_nil b]
    exact hb.quiet_append (by simp [Json.Quiet])
  have hend : b.dropWhile Json.isBlank = [] := List.dropWhile_eq_nil_iff.mpr hb
  rw [read, h a b ha hquiet]
  simp [hend]

lemma members_of_read {x v : Text} {ms : List (Text × Text)} {o : Settings} (hx : Padded x v)
    (hv : ObjectSpelled v ms) (hjson : ∀ m ∈ ms, IsJson m.2) (h : read x = .ok o) :
    (∀ m ∈ ms, ∃ y, (m.1, y) ∈ keys) ∧ NamesOnce keys ms ∧
      ∀ m ∈ ms, (m.1, .limits) ∈ keys → Accepts (LimitField.form.read .standard) m.2 := by
  obtain ⟨ha, hb⟩ := hx
  rename_i a b
  rw [read] at h
  split at h
  · cases h
  · next p r hread =>
    obtain ⟨-, hnodup, hms⟩ := Field.form.object_of_read Field.sound_form hv hjson ha hread
    refine ⟨fun m hm => ?_, (nodup_mentioned_iff Field.ofKey?_eq_some_iff).mp hnodup,
      fun m hm hlimits => ?_⟩
    · cases hy : Field.ofKey? m.1 with
      | none =>
        -- Its key is turned down even where nothing follows, and nothing could be read over there.
        cases congrFun (hms.passes m hm hy) []
      | some y => exact ⟨y, Field.ofKey?_eq_some_iff.mp hy⟩
    · obtain ⟨p, hp⟩ := hms.accepts m hm .limits (Field.ofKey?_eq_some_iff.mpr hlimits)
      exact Accepts.of_bind hp

/-- **A settings file is read as what it describes**, in whatever order, under whatever names and
with whatever spelling of its strings it does so. A file with a key that names nothing, or that
names a setting or a limit twice, is no settings file. -/
theorem read_object {x v : Text} {ms : List (Text × Text)} (hx : Padded x v)
    (hv : ObjectSpelled v ms) (hjson : ∀ m ∈ ms, IsJson m.2) :
    (∀ o : Settings, (∀ y, LimitField.value o.limits y < Nat.pow 2 64) →
      (∀ m ∈ ms, ∃ y, (m.1, y) ∈ keys) →
      Describes keys (Field.Spelled o) (Field.Agrees o {}) ms → read x = .ok o) ∧
    ((∃ m ∈ ms, ∀ y, (m.1, y) ∉ keys) ∨ ¬ NamesOnce keys ms ∨
      (∃ m ∈ ms, (m.1, .limits) ∈ keys ∧ ∃ ls, ObjectSpelled m.2 ls ∧ (∀ l ∈ ls, IsJson l.2) ∧
        ¬ NamesOnce limitKeys ls) → ∃ e, read x = .error e) := by
  constructor
  · intro o hlt hknown h
    exact read_of_reads hx (reads_settings hlt hv hjson hknown h)
  · intro h
    cases hread : read x with
    | error e => exact ⟨e, rfl⟩
    | ok o =>
      obtain ⟨hknown, honce, hlimits⟩ := members_of_read hx hv hjson hread
      exfalso
      rcases h with ⟨m, hm, hno⟩ | htwice | ⟨m, hm, hm', ls, hls, hlsjson, htwice⟩
      · obtain ⟨y, hy⟩ := hknown m hm
        exact hno y hy
      · exact htwice honce
      · obtain ⟨b, r, p, hb, hr, hp⟩ := hlimits m hm hm'
        obtain ⟨-, hnodup, -⟩ :=
          LimitField.form.object_of_read LimitField.sound_form hls hlsjson hb hp
        exact htwice ((nodup_mentioned_iff LimitField.ofKey?_eq_some_iff).mp hnodup)

/-- A key with an escape in it, limits in part and a setting under its other name; and a setting
under both of its names. -/
theorem read_object_otherNames :
    read
      "\x7b\"\\u006cimits\":\x7b\"a\":[],\"maxInputSize\":7\x7d,\"stringifyKeys\":true\x7d".toList =
      .ok ⟨[], false, false, true, ⟨7, 512⟩⟩ ∧
    ∃ e, read "\x7b\"stringifyAllKeys\":true,\"stringifyKeys\":true\x7d".toList = .error e := by
  have hquote := memberSpelled_tight (spelled_self (s := "stringifyKeys".toList) (by decide))
    "true".toList
  have htrue : IsJson "true".toList := .bool true
  constructor
  · have hlimits : ObjectSpelled "\x7b\"a\":[],\"maxInputSize\":7\x7d".toList
        [(['a'], "[]".toList), ("maxInputSize".toList, ['7'])] := by
      have hother := memberSpelled_tight (spelled_self (s := ['a']) (by decide)) "[]".toList
      have hsize :=
        memberSpelled_tight (spelled_self (s := "maxInputSize".toList) (by decide)) ['7']
      simpa using objectSpelled_pair hother hsize
    have hseven : IsWhole ['7'] := ⟨⟨by simp, List.forall_mem_singleton.mpr rfl⟩, by simp⟩
    have hjson : IsJson "[]".toList ∧ IsJson ['7'] :=
      ⟨.array ⟨[], .empty isBlanks_nil, .nil⟩ (by simp),
        .number (@Json.NumberSpelled.mk false _ _ _ _ _ hseven .none .none)⟩
    have hspelled :
        LimitsSpelled ⟨7, 512⟩ "\x7b\"a\":[],\"maxInputSize\":7\x7d".toList := by
      refine ⟨_, hlimits, by simpa using hjson, ?_, by simp [NamesOnce, limitKeys], fun x hx => ?_⟩
      · refine List.forall_mem_cons.mpr ⟨fun x hx => by simp [limitKeys] at hx,
          List.forall_mem_singleton.mpr fun x hx => ?_⟩
        cases x with
        | size => exact ⟨hseven, rfl⟩
        | depth => simp [limitKeys] at hx
      · cases x with
        | size => simp [limitKeys] at hx
        | depth => rfl
    have hkey : Json.Spelled "\\u006cimits".toList "limits".toList :=
      .unit (n := 0x6c) rfl rfl rfl (spelled_self (s := "imits".toList) (by decide))
    have hv := objectSpelled_pair
      (memberSpelled_tight hkey "\x7b\"a\":[],\"maxInputSize\":7\x7d".toList) hquote
    refine (read_object (padded_self _) (by simpa using hv) ?_).1 _ ?_ ?_ ⟨?_, ?_, fun x hx => ?_⟩
    · exact List.forall_mem_cons.mpr ⟨.object hlimits (by simpa using hjson), by simpa using htrue⟩
    · intro x
      cases x <;> decide
    · exact List.forall_mem_cons.mpr ⟨⟨.limits, by decide⟩,
        List.forall_mem_singleton.mpr ⟨.quoteKeys, by decide⟩⟩
    · refine List.forall_mem_cons.mpr ⟨fun x hx => ?_,
        List.forall_mem_singleton.mpr fun x hx => ?_⟩
      · cases x with
        | limits => exact hspelled
        | _ => simp [keys] at hx
      · cases x with
        | quoteKeys => rfl
        | _ => simp [keys] at hx
    · simp [NamesOnce, keys]
    · cases x with
      | loadPaths | convertCase | resolveLinks => rfl
      | quoteKeys | limits => simp [keys] at hx
  · have hall := memberSpelled_tight (spelled_self (s := "stringifyAllKeys".toList) (by decide))
      "true".toList
    refine (read_object (padded_self _) (by simpa using objectSpelled_pair hall hquote)
      (by simpa using htrue)).2 (.inr (.inl ?_))
    simp [NamesOnce, keys]

end StyleVars.Settings
