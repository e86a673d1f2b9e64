import StyleVars.Json.Value
import StyleVars.Proofs.Dictionary
import StyleVars.Json.Token

/-!
The grammar of tolerant JSON over tokens, with what each phrase stands for. A comma may stand
behind the last item or member, but not alone. The number that goes with a derivation bounds the
arrays and objects inside each other.
-/

namespace StyleVars.Json

/-- What a row of tokens may stand for. -/
inductive Phrase where
  | value (v : Value)
  /-- What stands between brackets. -/
  | items (vs : List Value)
  /-- What stands between braces; keys may repeat. -/
  | members (ps : List (Text × Value))

/-- The tokens `ts` are a phrase with at most `d` containers inside each other. -/
inductive Derives : Nat → Phrase → List Token → Prop where
  | null {d : Nat} : Derives d (.value .null) [.null]
  | bool {d : Nat} {b : Bool} : Derives d (.value (.bool b)) [.bool b]
  | number {d : Nat} {x : Double} : Derives d (.value (.number x)) [.number x]
  | string {d : Nat} {s : Text} : Derives d (.value (.string s)) [.string s]
  | array {d : Nat} {vs : List Value} {ts : List Token} :
      Derives d (.items vs) ts →
      Derives (d + 1) (.value (.array vs)) (.openBracket :: ts ++ [.closeBracket])
  | object {d : Nat} {ps : List (Text × Value)} {es : Entries} {ts : List Token} :
      Derives d (.members ps) ts → Dictionary.Merges ps es →
      Derives (d + 1) (.value (.object es)) (.openBrace :: ts ++ [.closeBrace])
  | noItems {d : Nat} : Derives d (.items []) []
  | lastItem {d : Nat} {v : Value} {ts : List Token} :
      Derives d (.value v) ts → Derives d (.items [v]) ts
  /-- Behind the comma there may be nothing more. -/
  | item {d : Nat} {v : Value} {vs : List Value} {ts us : List Token} :
      Derives d (.value v) ts → Derives d (.items vs) us →
      Derives d (.items (v :: vs)) (ts ++ .comma :: us)
  | noMembers {d : Nat} : Derives d (.members []) []
  | lastMember {d : Nat} {key : Text} {v : Value} {ts : List Token} :
      Derives d (.value v) ts →
      Derives d (.members [(key, v)]) (.string key :: .colon :: ts)
  | member {d : Nat} {key : Text} {v : Value} {ps : List (Text × Value)} {ts us : List Token} :
      Derives d (.value v) ts → Derives d (.members ps) us →
      Derives d (.members ((key, v) :: ps)) (.string key :: .colon :: ts ++ .comma :: us)

/-- A value begins with a token that does not end an array. -/
lemma Derives.value_eq_cons {d : Nat} {v : Value} {ts : List Token} (h : Derives d (.value v) ts) :
    ∃ t us, ts = t :: us ∧ t ≠ .closeBracket := by
  cases h <;> exact ⟨_, _, rfl, by simp⟩

/-! ### What stands before other items or members -/

/-- The tokens `ts` are the items `vs` with a comma behind each. -/
def ItemsBefore (d : Nat) (vs : List Value) (ts : List Token) : Prop :=
  ∀ ws us, Derives d (.items ws) us → Derives d (.items (vs ++ ws)) (ts ++ us)

/-- The tokens `ts` are the members `ps` with a comma behind each. -/
def MembersBefore (d : Nat) (ps : List (Text × Value)) (ts : List Token) : Prop :=
  ∀ qs us, Derives d (.members qs) us → Derives d (.members (ps ++ qs)) (ts ++ us)

lemma itemsBefore_nil (d : Nat) : ItemsBefore d [] [] := fun _ _ h => h

lemma membersBefore_nil (d : Nat) : MembersBefore d [] [] := fun _ _ h => h

lemma ItemsBefore.concat {d : Nat} {vs : List Value} {v : Value} {ts us : List Token}
    (h : ItemsBefore d vs ts) (hv : Derives d (.value v) us) :
    ItemsBefore d (vs ++ [v]) (ts ++ us ++ [.comma]) := by
  intro ws us' hws
  simpa using h (v :: ws) _ (.item hv hws)

lemma MembersBefore.concat {d : Nat} {ps : List (Text × Value)} {v : Value} {ts us : List Token}
    (h : MembersBefore d ps ts) (key : Text) (hv : Derives d (.value v) us) :
    MembersBefore d (ps ++ [(key, v)]) (ts ++ .string key :: .colon :: us ++ [.comma]) := by
  intro qs us' hqs
  simpa using h ((key, v) :: qs) _ (.member hv hqs)

lemma ItemsBefore.items {d : Nat} {vs : List Value} {ts : List Token} (h : ItemsBefore d vs ts) :
    Derives d (.items vs) ts := by
  simpa using h [] [] .noItems

lemma MembersBefore.members {d : Nat} {ps : List (Text × Value)} {ts : List Token}
    (h : MembersBefore d ps ts) : Derives d (.members ps) ts := by
  simpa using h [] [] .noMembers

lemma ItemsBefore.items_concat {d : Nat} {vs : List Value} {v : Value} {ts us : List Token}
    (h : ItemsBefore d vs ts) (hv : Derives d (.value v) us) :
    Derives d (.items (vs ++ [v])) (ts ++ us) :=
  h [v] us (.lastItem hv)

lemma MembersBefore.members_concat {d : Nat} {ps : List (Text × Value)} {v : Value}
    {ts us : List Token} (h : MembersBefore d ps ts) (key : Text) (hv : Derives d (.value v) us) :
    Derives d (.members (ps ++ [(key, v)])) (ts ++ .string key :: .colon :: us) :=
  h [(key, v)] _ (.lastMember hv)

end StyleVars.Json
