import StyleVars.Proofs.Text.Utf8
import StyleVars.Url.Percent

/-!
Percent encoding is undone by decoding, whatever the bytes are, if the percent sign itself is encoded.
-/

namespace StyleVars.Url

open Utf8 (Bytes)

lemma hexValue?_hexChar {d : Nat} (h : d < 16) : Numeral.hexValue? (Numeral.hexChar d) = some d := by
  have all : ∀ e : Fin 16, Numeral.hexValue? (Numeral.hexChar e) = some e.val := by decide
  exact all ⟨d, h⟩

lemma lt_of_not_mustEncode {set : EncodeSet} {b : UInt8} (h : ¬ mustEncode set b = true) :
    b.toNat < 0x80 := by
  simp only [mustEncode, Bool.or_eq_true, decide_eq_true_eq, not_or] at h
  have hb : ¬ (0x7E : UInt8).toNat < b.toNat := h.1.2
  have h7e : (0x7E : UInt8).toNat = 0x7E := rfl
  omega

lemma percentDecode_cons {c : Char} (hc : c ≠ '%') (s : Text) :
    percentDecode (c :: s) = String.utf8EncodeChar c ++ percentDecode s := by
  rw [percentDecode]
  intro a b t h
  exact absurd h hc

lemma percentDecode_encodeByte {set : EncodeSet} (hset : '%' ∈ set) (b : UInt8) (s : Text) :
    percentDecode (encodeByte set b ++ s) = b :: percentDecode s := by
  have hb : b.toNat < 256 := b.toNat_lt
  rw [encodeByte]
  split
  · have hvalue : 16 * (b.toNat / 16) + b.toNat % 16 = b.toNat := by omega
    simp only [List.cons_append, List.nil_append, percentDecode,
      hexValue?_hexChar (show b.toNat / 16 < 16 by omega),
      hexValue?_hexChar (show b.toNat % 16 < 16 by omega), hvalue, UInt8.ofNat_toNat]
  · next h =>
    have hne : Char.ofNat b.toNat ≠ '%' := by
      intro hc
      simp [mustEncode, hc, hset] at h
    rw [List.singleton_append, percentDecode_cons hne,
      Utf8.encode_one (lt_of_not_mustEncode h), List.singleton_append]

/-- **What is encoded is decoded to the same bytes.** -/
theorem percentDecode_percentEncode {set : EncodeSet} (hset : '%' ∈ set) (bs : Bytes) :
    percentDecode (percentEncode set bs) = bs := by
  induction bs with
  | nil => rfl
  | cons b bs ih =>
    have hcons : percentEncode set (b :: bs) = encodeByte set b ++ percentEncode set bs := rfl
    rw [hcons, percentDecode_encodeByte hset, ih]

end StyleVars.Url
