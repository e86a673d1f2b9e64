import StyleVars.Proofs.Json.NumberToken
import StyleVars.Proofs.Number.Canonical
import StyleVars.Proofs.Number.Notation

/-!
Numbers as they are written in stylesheets, read again. Each form is a literal that says the number
of its digits, and so it is rounded to the number that was written.
-/

namespace StyleVars.Json

open Double (signText)

/-- The text `t` is a literal that says the magnitude `q` with a sign. -/
def Says (t : Text) (negative : Bool) (q : ℚ) : Prop :=
  ∃ n, NumberSpelled t n ∧ n.negative = negative ∧ n.magnitude = q

/-! ### Numerals as parts of literals -/

lemma isDigits_ofNat (n : Nat) : IsDigits (Numeral.ofNat n) :=
  ⟨Numeral.ofNat_ne_nil n, fun _ h => Numeral.isDigit_of_mem_ofNat h⟩

lemma isWhole_of_prefix {n : Nat} {ds : Text} (hn : 0 < n) (hds : ds <+: Numeral.ofNat n)
    (hne : ds ≠ []) : IsWhole ds := by
  obtain ⟨c, cs, rfl⟩ := List.exists_cons_of_ne_nil hne
  refine ⟨⟨hne, fun d hd => Numeral.isDigit_of_mem_ofNat (hds.subset hd)⟩, fun hzero => ?_⟩
  obtain ⟨r, hr⟩ := hds
  refine absurd ?_ (Numeral.head?_ofNat hn)
  rw [← hr]
  exact hzero

lemma isWhole_ofNat (n : Nat) : IsWhole (Numeral.ofNat n) := by
  rcases Nat.eq_zero_or_pos n with rfl | hn
  · rw [Numeral.ofNat_zero]
    exact ⟨⟨by simp, by simp [Numeral.isDigit]⟩, fun _ => rfl⟩
  · exact isWhole_of_prefix hn List.prefix_rfl (Numeral.ofNat_ne_nil n)

lemma value_replicate_zero (n : Nat) : Numeral.value (List.replicate n '0') = 0 := by
  induction n with
  | zero => rfl
  | succ n ih =>
    rw [List.replicate_succ', Numeral.value_append_singleton, ih]
    rfl

/-! ### The forms of a number -/

lemma says_ofNat (negative : Bool) (n : Nat) :
    Says (signText negative ++ Numeral.ofNat n) negative n := by
  have hspelled := @NumberSpelled.mk negative _ _ _ _ _ (isWhole_ofNat n) .none .none
  simp only [List.append_nil] at hspelled
  refine ⟨_, hspelled, rfl, ?_⟩
  simp [NumberText.magnitude, Numeral.value_ofNat]

/-- With a point the digits behind it count as many powers of ten less. -/
lemma says_fraction (negative : Bool) {whole fraction : Text} (hw : IsWhole whole)
    (hf : IsDigits fraction) :
    Says (signText negative ++ (whole ++ '.' :: fraction)) negative
      (Numeral.value (whole ++ fraction) / 10 ^ fraction.length) := by
  have hspelled := @NumberSpelled.mk negative _ _ _ _ _ hw (.some hf) .none
  rw [List.append_nil, List.append_assoc] at hspelled
  refine ⟨_, hspelled, rfl, ?_⟩
  rw [NumberText.magnitude, Numeral.value_append, zpow_zero, mul_one]
  push_cast
  field_simp

/-- The point stands between two of the digits of `n`. -/
lemma says_cut (negative : Bool) {n places : Nat} (hn : 0 < n) (hplaces : 0 < places)
    (hcut : places < (Numeral.ofNat n).length) :
    Says (signText negative ++ ((Numeral.ofNat n).take ((Numeral.ofNat n).length - places) ++
      '.' :: (Numeral.ofNat n).drop ((Numeral.ofNat n).length - places))) negative
      (n / 10 ^ places) := by
  have hvalue := Numeral.value_ofNat n
  have hprefix := List.take_prefix ((Numeral.ofNat n).length - places) (Numeral.ofNat n)
  have hmem : ∀ c ∈ (Numeral.ofNat n).drop ((Numeral.ofNat n).length - places),
      Numeral.isDigit c = true := fun c hc =>
    Numeral.isDigit_of_mem_ofNat (List.mem_of_mem_drop hc)
  have hjoin := List.take_append_drop ((Numeral.ofNat n).length - places) (Numeral.ofNat n)
  have htake := (Numeral.ofNat n).length_take (i := (Numeral.ofNat n).length - places)
  have hdrop := (Numeral.ofNat n).length_drop (i := (Numeral.ofNat n).length - places)
  generalize (Numeral.ofNat n).take ((Numeral.ofNat n).length - places) = whole at *
  generalize (Numeral.ofNat n).drop ((Numeral.ofNat n).length - places) = fraction at *
  have hwhole : IsWhole whole :=
    isWhole_of_prefix hn hprefix (List.ne_nil_of_length_pos (by omega))
  have hfraction : IsDigits fraction := ⟨List.ne_nil_of_length_pos (by omega), hmem⟩
  have hsays := says_fraction negative hwhole hfraction
  rwa [hjoin, hvalue, show fraction.length = places by omega] at hsays

/-- All digits of `n` stand behind the point. -/
lemma says_behind (negative : Bool) {n places : Nat} (hcut : (Numeral.ofNat n).length ≤ places) :
    Says (signText negative ++
      '0' :: '.' :: (List.replicate (places - (Numeral.ofNat n).length) '0' ++ Numeral.ofNat n))
      negative (n / 10 ^ places) := by
  have hfraction : IsDigits
      (List.replicate (places - (Numeral.ofNat n).length) '0' ++ Numeral.ofNat n) := by
    refine ⟨List.append_ne_nil_of_right_ne_nil _ (Numeral.ofNat_ne_nil n), fun c hc => ?_⟩
    rcases List.mem_append.mp hc with hc | hc
    · rw [List.eq_of_mem_replicate hc]
      rfl
    · exact Numeral.isDigit_of_mem_ofNat hc
  have hvalue : Numeral.value (['0'] ++
      (List.replicate (places - (Numeral.ofNat n).length) '0' ++ Numeral.ofNat n)) = n := by
    rw [← List.append_assoc, Numeral.value_append, ← List.replicate_one, ← List.replicate_add,
      value_replicate_zero, Numeral.value_ofNat]
    omega
  have hlength :
      (List.replicate (places - (Numeral.ofNat n).length) '0' ++ Numeral.ofNat n).length =
        places := by
    rw [List.length_append, List.length_replicate]
    omega
  have hsays := says_fraction negative (isWhole_ofNat 0) hfraction
  rwa [Numeral.ofNat_zero, hvalue, hlength] at hsays

lemma says_positional (negative : Bool) {d : Decimal} (hd : 0 < d.digits) :
    Says (signText negative ++ d.positional) negative d.value := by
  rw [Decimal.positional]
  by_cases hplaces : (-d.exponent).toNat = 0
  · have hten : d.value = (d.digits * 10 ^ d.exponent.toNat : ℕ) := by
      rw [Decimal.value, Double.ten_zpow_eq, hplaces]
      simp
    rw [if_pos hplaces, ← Numeral.ofNat_mul_pow hd, hten]
    exact says_ofNat negative _
  · have hten : d.value = (d.digits : ℕ) / 10 ^ (-d.exponent).toNat := by
      rw [Decimal.value, Double.ten_zpow_eq, show d.exponent.toNat = 0 by omega]
      simp [div_eq_mul_inv]
    rw [if_neg hplaces, hten]
    split
    · next hcut => exact says_cut negative hd (Nat.pos_of_ne_zero hplaces) hcut
    · next hcut => exact says_behind negative (not_lt.mp hcut)

/-- An exponent with its sign. -/
lemma exponentSpelled_ofNat (e : ℤ) :
    ExponentSpelled ('e' :: (if e < 0 then '-' else '+') :: Numeral.ofNat e.natAbs) e := by
  have hdigits := isDigits_ofNat e.natAbs
  by_cases he : e < 0
  · have hspelled := ExponentSpelled.some (c := 'e') (.inl rfl) .minus hdigits
    rw [Numeral.value_ofNat, if_pos rfl, show -(e.natAbs : ℤ) = e by omega] at hspelled
    rwa [if_pos he]
  · have hspelled := ExponentSpelled.some (c := 'e') (.inl rfl) .plus hdigits
    rw [Numeral.value_ofNat, if_neg Bool.false_ne_true, show (e.natAbs : ℤ) = e by omega]
      at hspelled
    rwa [if_neg he]

lemma says_scientific (negative : Bool) {d : Decimal} (hd : 0 < d.digits) :
    Says (signText negative ++ d.scientific) negative d.value := by
  have hexponent := exponentSpelled_ofNat d.leading
  have hlength := Numeral.length_ofNat d.digits
  have hvalue := Numeral.value_ofNat d.digits
  have hmem : ∀ c ∈ Numeral.ofNat d.digits, Numeral.isDigit c = true :=
    fun _ => Numeral.isDigit_of_mem_ofNat
  have hhead := Numeral.head?_ofNat hd
  obtain ⟨c, cs, hcons⟩ := List.exists_cons_of_ne_nil (Numeral.ofNat_ne_nil d.digits)
  rw [hcons] at hlength hvalue hmem hhead
  have hwhole : IsWhole [c] :=
    ⟨⟨by simp, fun x hx => hmem x (by simp_all)⟩, fun hzero => absurd hzero hhead⟩
  -- The leading digit is worth as many powers of ten as there are digits behind it.
  have hten : d.value =
      (Numeral.value [c] + Numeral.value cs / 10 ^ cs.length) * 10 ^ d.leading := by
    rw [List.length_cons] at hlength
    rw [Decimal.value, show d.exponent = d.leading - cs.length by rw [Decimal.leading]; omega,
      ← hvalue, ← List.singleton_append, Numeral.value_append, zpow_sub₀ (by norm_num),
      zpow_natCast]
    push_cast
    field_simp
  rw [Decimal.scientific, Decimal.mantissa, hcons, hten]
  cases cs with
  | nil =>
    have hspelled := @NumberSpelled.mk negative _ _ _ _ _ hwhole .none hexponent
    rw [List.append_nil, List.append_assoc] at hspelled
    exact ⟨_, hspelled, rfl, rfl⟩
  | cons c' cs =>
    have hfraction : IsDigits (c' :: cs) := ⟨by simp, fun x hx => hmem x (by simp_all)⟩
    have hspelled := @NumberSpelled.mk negative _ _ _ _ _ hwhole (.some hfraction) hexponent
    rw [List.append_assoc, List.append_assoc] at hspelled
    exact ⟨_, hspelled, rfl, rfl⟩

/-! ### How long they are -/

lemma length_positional_le {d : Decimal} (hwidth : Numeral.width d.digits ≤ 17)
    (hlo : -6 ≤ d.leading) (hhi : d.leading ≤ 20) : d.positional.length ≤ 24 := by
  have hlength := Numeral.length_ofNat d.digits
  rw [Decimal.leading] at hlo hhi
  rw [Decimal.positional]
  split
  · rw [List.length_append, List.length_replicate]
    omega
  · split
    · rw [List.length_append, List.length_take, List.length_cons, List.length_drop]
      omega
    · rw [List.length_cons, List.length_cons, List.length_append, List.length_replicate]
      omega

lemma length_mantissa_le (d : Decimal) : d.mantissa.length ≤ Numeral.width d.digits + 1 := by
  have hlength := Numeral.length_ofNat d.digits
  rw [Decimal.mantissa]
  split
  · simp
  · simp
  · next heq =>
    rw [heq] at hlength
    simp_all

lemma length_scientific_le {d : Decimal} (hwidth : Numeral.width d.digits ≤ 17)
    (hleading : d.leading.natAbs < 1000) : d.scientific.length ≤ 24 := by
  have hmantissa := length_mantissa_le d
  have hexponent : Numeral.width d.leading.natAbs ≤ 3 := Numeral.width_le_of_lt (by decide) hleading
  rw [← Numeral.length_ofNat] at hexponent
  rw [Decimal.scientific, List.length_append, List.length_cons, List.length_cons]
  omega

lemma length_canonicalMagnitude_le {r : Nat} (hr : 0 < r) (hfinite : r < Double.rankCount) :
    (Double.canonicalMagnitude r).length ≤ 24 := by
  obtain ⟨-, hwidth⟩ := Decimal.shortest_spec .up hr
  have hform := Double.form_canonicalMagnitude hr
  generalize Double.canonicalMagnitude r = t at *
  cases hform with
  | scientific => exact length_scientific_le hwidth (Double.natAbs_leading_lt hr hfinite)
  | @whole n hlt hn =>
    rw [hn] at hlt
    have hwhole : Numeral.width n ≤ 21 := Numeral.width_le_of_lt (by decide) (by exact_mod_cast hlt)
    rw [Numeral.length_ofNat]
    omega
  | positional hlt hge =>
    refine length_positional_le hwidth (not_lt.mp fun h => ?_) ?_
    · exact absurd ((Double.leading_lt_lower_iff hr).mp h) (not_lt.mpr hge)
    · exact Int.lt_add_one_iff.mp ((Double.leading_lt_upper_iff hr).mpr hlt)

lemma length_canonical_le {x : Double} {t : Text} (h : x.canonical = some t) : t.length ≤ 25 := by
  obtain ⟨negative, r, -, ⟨-, rfl⟩ | ⟨hr, rfl⟩⟩ := Double.canonical_eq_some h
  · decide
  · have hmagnitude := length_canonicalMagnitude_le hr r.isLt
    have hsign : (signText negative).length ≤ 1 := by cases negative <;> decide
    rw [List.length_append]
    omega

/-- Written numbers take one byte for each character. -/
lemma utf8Size_canonical {x : Double} {t : Text} (h : x.canonical = some t) :
    utf8Size t = t.length := by
  have hnumeric := Double.numeric_canonical h
  clear h
  rw [utf8Size_eq]
  induction t with
  | nil => rfl
  | cons c t ih =>
    obtain ⟨hc, ht⟩ := List.forall_mem_cons.mp hnumeric
    rw [Utf8.encode, List.flatMap_cons, List.length_append, ← Utf8.encode, ih ht,
      String.length_utf8EncodeChar, utf8Size_of_isNumeric hc, List.length_cons, Nat.add_comm]

/-! ### Reading them again -/

/-- **The text of a magnitude says a number next to it**, nearer to it than to any other. -/
lemma says_canonicalMagnitude (negative : Bool) {r : Nat} (hr : 0 < r) :
    ∃ q, Double.Near r q ∧ Says (signText negative ++ Double.canonicalMagnitude r) negative q := by
  obtain ⟨hspec, -⟩ := Decimal.shortest_spec .up hr
  have hpos := Decimal.digits_pos hspec.holds
  have hform := Double.form_canonicalMagnitude hr
  generalize Double.canonicalMagnitude r = t at *
  cases hform with
  | scientific => exact ⟨_, hspec.holds, says_scientific negative hpos⟩
  | @whole n _ hn => exact ⟨_, hn ▸ Double.near_magnitude hr, says_ofNat negative n⟩
  | positional => exact ⟨_, hspec.holds, says_positional negative hpos⟩

lemma Says.value {t : Text} {negative : Bool} {q : ℚ} {x : Double} (h : Says t negative q)
    (hx : Double.Rounds negative q x) : ∃ n, NumberSpelled t n ∧ n.value = x := by
  obtain ⟨n, hn, rfl, rfl⟩ := h
  exact ⟨n, hn, (rounds_value n).unique hx⟩

/-- The text of a number is a literal for it. -/
lemma spelled_canonical {x : Double} {t : Text} (h : x.canonical = some t) :
    ∃ n, NumberSpelled t n ∧ n.value = x.withOneZero := by
  obtain ⟨negative, r, rfl, ⟨hr, rfl⟩ | ⟨hr, rfl⟩⟩ := Double.canonical_eq_some h
  · have hzero := says_ofNat false 0
    rw [Numeral.ofNat_zero, Nat.cast_zero] at hzero
    rw [Double.withOneZero, if_pos hr]
    exact hzero.value (Double.rounds_zero_self false)
  · obtain ⟨q, hq, hsays⟩ := says_canonicalMagnitude negative hr
    rw [Double.withOneZero, if_neg hr.ne']
    exact hsays.value ((Double.rounds_iff_near hr).mpr hq)

/-- A spelling alone in a text is its only token. -/
lemma scan_of_spells {u : Text} {t : Token} (h : Spells u t) (hmark : u.head? ≠ some '\uFEFF') :
    Scan.ofText u = ⟨[⟨t, .start⟩], .ok (Position.start.right u.length)⟩ := by
  obtain ⟨c, x, rfl, hblank, hslash, -⟩ := h.head
  obtain ⟨c', x', hcx, hread⟩ := h
  obtain ⟨rfl, rfl⟩ := List.cons.inj hcx
  have hdrop : Scan.dropMark (c :: x) = c :: x := by
    unfold Scan.dropMark
    split
    · next heq =>
      obtain ⟨rfl, -⟩ := List.cons.inj heq
      exact absurd rfl hmark
    · rfl
  have htoken := hread .start [] (endsBefore_nil t)
  rw [List.append_nil] at htoken
  have hend (p : Position) : Cursor.Reads ⟨p, []⟩ [] p :=
    @Cursor.Reads.ending ⟨p, []⟩ ⟨p, []⟩ (Cursor.next_eq_none_iff.mpr ⟨by rw [skip], rfl⟩)
  rw [Scan.ofText_eq_iff, Lexes, Cursor.ofText, hdrop]
  exact .token (Cursor.next_eq_some_iff.mpr ⟨c, x, skip_token hblank hslash, htoken⟩) (hend _)

/-- **Numbers are read as they were written.** Each finite number has a text; the text is a literal
and its only token is that number, or the positive zero for either zero. So the text tells apart
all numbers except the two zeros. -/
theorem scan_canonical {x : Double} (hx : x.isFinite = true) :
    ∃ t, x.canonical = some t ∧ (∃ n, NumberSpelled t n) ∧
      Scan.ofText t = ⟨[⟨.number x.withOneZero, .start⟩], .ok (Position.start.right t.length)⟩ ∧
      (∀ limits : Limits, 25 ≤ limits.maxInputSize → scan limits t = .ok (Scan.ofText t)) ∧
      ∀ y : Double, y.canonical = some t → y.withOneZero = x.withOneZero := by
  have hscan {y : Double} {t : Text} (h : y.canonical = some t) : Scan.ofText t =
      ⟨[⟨.number y.withOneZero, .start⟩], .ok (Position.start.right t.length)⟩ := by
    obtain ⟨n, hn, hvalue⟩ := spelled_canonical h
    rw [← hvalue]
    refine scan_of_spells (spells_number hn) fun hmark => ?_
    have hnumeric := Double.numeric_canonical h _ (List.mem_of_mem_head? hmark)
    exact absurd hnumeric (by decide)
  obtain ⟨t, ht⟩ : ∃ t, x.canonical = some t := by
    cases x with
    | nan => cases hx
    | infinite => cases hx
    | finite negative r => exact Double.exists_canonical negative r
  obtain ⟨n, hn, -⟩ := spelled_canonical ht
  refine ⟨t, ht, ⟨n, hn⟩, hscan ht, fun limits hlimits => ?_, fun y hy => ?_⟩
  · have hlength := length_canonical_le ht
    rw [scan, utf8Size_canonical ht, if_neg (by omega)]
  · have hsame := (hscan hy).symm.trans (hscan ht)
    simpa using hsame

/-- The negative number next to zero. -/
theorem scan_canonical_nextToZero :
    (Double.finite true ⟨1, by decide⟩).isFinite = true ∧
      ∃ t, (Double.finite true ⟨1, by decide⟩).canonical = some t ∧ (∃ n, NumberSpelled t n) ∧
        Scan.ofText t = ⟨[⟨.number (.finite true ⟨1, by decide⟩), .start⟩],
          .ok (Position.start.right t.length)⟩ ∧
        (∀ limits : Limits, 25 ≤ limits.maxInputSize → scan limits t = .ok (Scan.ofText t)) ∧
        ∀ y : Double, y.canonical = some t → y.withOneZero = .finite true ⟨1, by decide⟩ :=
  ⟨rfl, scan_canonical rfl⟩

end StyleVars.Json
