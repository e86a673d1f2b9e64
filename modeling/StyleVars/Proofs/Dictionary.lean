import Mathlib.Data.List.Induction
import StyleVars.Dictionary

/-!
What becomes of pairs that are inserted one after another: the distinct keys in the order in which
they first appeared, each with the value that was given last. The two facts determine the entries.
-/

namespace StyleVars.Dictionary

variable {κ α : Type} [DecidableEq κ]

/-- The value of the last pair with the key `k`. -/
def lastValue? (ps : List (κ × α)) (k : κ) : Option α :=
  (ps.filter (·.1 = k)).getLast?.map (·.2)

/-- The entries `es` sum up the pairs `ps`. -/
structure Merges (ps : List (κ × α)) (es : Dictionary κ α) : Prop where
  keys_eq : keys es = (ps.map (·.1)).eraseDups
  find?_eq : ∀ k, find? k es = lastValue? ps k

lemma ofPairs_concat (ps : List (κ × α)) (p : κ × α) :
    ofPairs (ps ++ [p]) = insert p.1 p.2 (ofPairs ps) := by
  simp [ofPairs]

lemma lastValue?_concat (ps : List (κ × α)) (p : κ × α) (k : κ) :
    lastValue? (ps ++ [p]) k = if k = p.1 then some p.2 else lastValue? ps k := by
  unfold lastValue?
  rw [List.filter_append]
  by_cases hk : k = p.1
  · simp [hk]
  · have hk' : p.1 ≠ k := fun h => hk h.symm
    simp [hk, hk']

omit [DecidableEq κ] in
lemma eraseDups_concat [BEq κ] [LawfulBEq κ] (ks : List κ) (k : κ) [Decidable (k ∈ ks.eraseDups)] :
    (ks ++ [k]).eraseDups =
      if k ∈ ks.eraseDups then ks.eraseDups else ks.eraseDups ++ [k] := by
  rw [List.eraseDups_append]
  by_cases hk : k ∈ ks
  · simp [hk, List.removeAll]
  · simp [hk, List.removeAll, List.eraseDups_cons]

/-- Entries that arise by insertion sum up the pairs that were inserted. -/
theorem merges_ofPairs (ps : List (κ × α)) : Merges ps (ofPairs ps) := by
  induction ps using List.reverseRecOn with
  | nil => exact ⟨rfl, fun k => rfl⟩
  | append_singleton ps p ih =>
    rw [ofPairs_concat]
    constructor
    · rw [keys_insert, ih.keys_eq, List.map_append, List.map_singleton, eraseDups_concat]
    · intro k
      rw [find?_insert, ih.find?_eq, lastValue?_concat]

lemma mem_of_mem_insert {k : κ} {a : α} {es : Dictionary κ α} {e : κ × α}
    (h : e ∈ insert k a es) : e = (k, a) ∨ e ∈ es := by
  induction es with
  | nil => simpa [insert] using h
  | cons f es ih =>
    obtain ⟨k', b⟩ := f
    rw [insert] at h
    split at h
    · next hk =>
      rcases List.mem_cons.mp h with rfl | h
      · exact .inl (by rw [hk])
      · exact .inr (by simp [h])
    · rcases List.mem_cons.mp h with rfl | h
      · exact .inr (by simp)
      · exact (ih h).imp_right fun he => by simp [he]

/-- Every entry is one of the pairs. -/
lemma mem_of_mem_ofPairs {ps : List (κ × α)} {e : κ × α} (h : e ∈ ofPairs ps) : e ∈ ps := by
  induction ps using List.reverseRecOn with
  | nil => cases h
  | append_singleton ps p ih =>
    rw [ofPairs_concat] at h
    rcases mem_of_mem_insert h with rfl | h
    · simp
    · simp [ih h]

/-- Nothing is lost when something is inserted. -/
lemma isSome_find?_insert {k : κ} {es : Dictionary κ α} (h : (find? k es).isSome) (key : κ)
    (a : α) : (find? k (insert key a es)).isSome := by
  rw [find?_insert]
  split
  · rfl
  · exact h

lemma nodup_keys_insert {es : Dictionary κ α} (h : (keys es).Nodup) (k : κ) (a : α) :
    (keys (insert k a es)).Nodup := by
  rw [keys_insert]
  split
  · exact h
  · next hk =>
    refine List.nodup_append.mpr ⟨h, by simp, ?_⟩
    rintro j hj _ hjk rfl
    rw [List.mem_singleton] at hjk
    exact hk (hjk ▸ hj)

lemma nodup_keys_ofPairs (ps : List (κ × α)) : (keys (ofPairs ps)).Nodup := by
  induction ps using List.reverseRecOn with
  | nil => exact List.nodup_nil
  | append_singleton ps p ih =>
    rw [ofPairs_concat]
    exact nodup_keys_insert ih p.1 p.2

lemma insert_of_notMem {es : Dictionary κ α} {k : κ} (h : k ∉ keys es) (a : α) :
    insert k a es = es ++ [(k, a)] := by
  induction es with
  | nil => rfl
  | cons e es ih =>
    simp only [keys, List.map_cons, List.mem_cons, not_or] at h
    rw [insert, if_neg fun he => h.1 he.symm, ih h.2, List.cons_append]

/-- Pairs with distinct keys are the entries that arise from them. -/
lemma ofPairs_of_nodup {ps : List (κ × α)} (h : (keys ps).Nodup) : ofPairs ps = ps := by
  induction ps using List.reverseRecOn with
  | nil => rfl
  | append_singleton ps p ih =>
    simp only [keys, List.map_append, List.map_singleton, List.nodup_append] at h
    have hp : p.1 ∉ keys ps := fun hmem => h.2.2 p.1 hmem p.1 (List.mem_singleton_self _) rfl
    rw [ofPairs_concat, ih h.1, insert_of_notMem hp]

lemma find?_of_notMem {es : Dictionary κ α} {k : κ} (h : k ∉ keys es) : find? k es = none := by
  induction es with
  | nil => rfl
  | cons e es ih =>
    simp only [keys, List.map_cons, List.mem_cons, not_or] at h
    rw [find?, if_neg fun he => h.1 he.symm]
    exact ih h.2

/-- Entries with distinct keys are determined by their keys and what they hold under each. -/
theorem eq_of_keys_of_find? {es fs : Dictionary κ α} (hnd : (keys es).Nodup)
    (hk : keys es = keys fs) (hf : ∀ k, find? k es = find? k fs) : es = fs := by
  induction es generalizing fs with
  | nil =>
    cases fs with
    | nil => rfl
    | cons f fs => simp [keys] at hk
  | cons e es ih =>
    cases fs with
    | nil => simp [keys] at hk
    | cons f fs =>
      obtain ⟨k, a⟩ := e
      obtain ⟨k', b⟩ := f
      simp only [keys, List.map_cons, List.cons.injEq] at hk
      obtain ⟨rfl, hk⟩ := hk
      have hnot : k ∉ keys es := (List.nodup_cons.mp hnd).1
      have hab : a = b := by simpa [find?] using hf k
      have hrest : es = fs := by
        refine ih (List.nodup_cons.mp hnd).2 hk fun j => ?_
        by_cases hj : k = j
        · subst hj
          have hnot' : k ∉ keys fs := by
            rw [keys, ← hk]
            exact hnot
          rw [find?_of_notMem hnot, find?_of_notMem hnot']
        · simpa [find?, hj] using hf j
      rw [hab, hrest]

theorem Merges.eq_ofPairs {ps : List (κ × α)} {es : Dictionary κ α} (h : Merges ps es) :
    es = ofPairs ps := by
  have hof := merges_ofPairs ps
  symm
  refine eq_of_keys_of_find? (nodup_keys_ofPairs ps) ?_ fun k => ?_
  · rw [hof.keys_eq, h.keys_eq]
  · rw [hof.find?_eq, h.find?_eq]

end StyleVars.Dictionary
