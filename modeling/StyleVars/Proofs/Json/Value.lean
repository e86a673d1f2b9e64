import Mathlib.Data.List.Basic
import StyleVars.Json.Value

/-!
Induction over values, and properties of all the objects inside of one.
-/

namespace StyleVars.Json.Value

/-- What holds of every value, if it holds of lists and objects whenever it holds of all that they
contain. -/
@[elab_as_elim]
theorem inductionOn {P : Value → Prop} (v : Value) (null : P .null) (bool : ∀ b, P (.bool b))
    (number : ∀ x, P (.number x)) (string : ∀ s, P (.string s))
    (array : ∀ items, (∀ v ∈ items, P v) → P (.array items))
    (object : ∀ entries, (∀ e ∈ entries, P e.2) → P (.object entries)) : P v :=
  @Value.rec P (fun vs => ∀ v ∈ vs, P v) (fun es => ∀ e ∈ es, P e.2) (fun e => P e.2)
    null bool number string array object (fun _ h => nomatch h)
    (fun _ _ hv hvs => List.forall_mem_cons.mpr ⟨hv, hvs⟩) (fun _ h => nomatch h)
    (fun _ _ he hes => List.forall_mem_cons.mpr ⟨he, hes⟩) (fun _ _ h => h) v

/-- Every object inside of a value, at whatever depth, has the property `P`. -/
inductive EachObject (P : Entries → Prop) : Value → Prop where
  | null : EachObject P .null
  | bool (b : Bool) : EachObject P (.bool b)
  | number (x : Double) : EachObject P (.number x)
  | string (s : Text) : EachObject P (.string s)
  | array {items : List Value} (h : ∀ v ∈ items, EachObject P v) : EachObject P (.array items)
  | object {entries : Entries} (here : P entries) (h : ∀ e ∈ entries, EachObject P e.2) :
    EachObject P (.object entries)

namespace EachObject

variable {P Q : Entries → Prop} {v : Value}

lemma mono (h : v.EachObject P) (hPQ : ∀ es, P es → Q es) : v.EachObject Q := by
  induction h with
  | null => exact .null
  | bool b => exact .bool b
  | number x => exact .number x
  | string s => exact .string s
  | array _ ih => exact .array ih
  | object here _ ih => exact .object (hPQ _ here) ih

end EachObject

end StyleVars.Json.Value
