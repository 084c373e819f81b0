import Mathlib.Tactic.Common
import RecursiveMatrix.Decimal.Numeral
import RecursiveMatrix.Proofs.Results

/-!
# Which texts are numerals

A numeral is one decimal digit or more, after a plus sign if there is one, and leading zeros do not
matter (`Decimal.Numeral`). Reading accepts exactly the numerals whose values fit.

Reading gives up as soon as the value read so far is too large, while a numeral is judged by its
whole value. The two agree because more digits never make a value smaller.
-/

namespace RecursiveMatrix.Decimal

/-- The text is a numeral of the value: digits, after a plus sign if there is one. -/
inductive Numeral : List Char → ℕ → Prop
  | plain {digits : List Char} (hne : digits ≠ []) (hdigits : ∀ c ∈ digits, c.isDigit = true) :
    Numeral digits (Nat.ofDigitChars 10 digits 0)
  | plus {digits : List Char} (hne : digits ≠ []) (hdigits : ∀ c ∈ digits, c.isDigit = true) :
    Numeral ('+' :: digits) (Nat.ofDigitChars 10 digits 0)

theorem readDigits_eq_ok_iff {limit : ℕ} {past : NumeralFault} {s : List Char} {v n : ℕ}
    (hv : v ≤ limit) :
    readDigits limit past v s = .ok n
      ↔ (∀ c ∈ s, c.isDigit = true) ∧ Nat.ofDigitChars 10 s v = n ∧ n ≤ limit := by
  constructor
  · intro h
    induction s generalizing v with
    | nil =>
      obtain rfl : v = n := Except.ok.inj h
      exact ⟨fun c hc ↦ absurd hc List.not_mem_nil, rfl, hv⟩
    | cons c s ih =>
      simp only [readDigits] at h
      split_ifs at h with hdigit hle
      obtain ⟨hdigits, hvalue, hlimit⟩ := ih hle h
      refine ⟨fun d hd ↦ ?_, by rw [ofDigitChars_cons, hvalue], hlimit⟩
      rcases List.mem_cons.mp hd with rfl | hd
      · exact hdigit
      · exact hdigits d hd
  · rintro ⟨hdigits, rfl, hlimit⟩
    exact readDigits_eq_ok hdigits hlimit

theorem readMagnitude_eq_ok_iff {limit : ℕ} {past : NumeralFault} {s : List Char} {n : ℕ} :
    readMagnitude limit past s = .ok n
      ↔ s ≠ [] ∧ (∀ c ∈ s, c.isDigit = true) ∧ Nat.ofDigitChars 10 s 0 = n ∧ n ≤ limit := by
  rw [readMagnitude]
  cases s with
  | nil => simp
  | cons c s =>
    rw [if_neg (by simp), readDigits_eq_ok_iff (Nat.zero_le limit)]
    exact (and_iff_right (List.cons_ne_nil c s)).symm

theorem not_isDigit_plus : ¬ '+'.isDigit = true := by decide

/-- A digit or a plus sign, which is what numerals are made of. -/
theorem Numeral.isDigit_or_eq {s : List Char} {n : ℕ} (h : Numeral s n) :
    ∀ c ∈ s, c.isDigit = true ∨ c = '+' := by
  intro c hc
  cases h with
  | plain _ hdigits => exact .inl (hdigits c hc)
  | plus _ hdigits =>
    rcases List.mem_cons.mp hc with rfl | hc
    · exact .inr rfl
    · exact .inl (hdigits c hc)

theorem Numeral.ne_nil {s : List Char} {n : ℕ} (h : Numeral s n) : s ≠ [] := by
  cases h with
  | plain hne => exact hne
  | plus => exact List.cons_ne_nil _ _

theorem numeral_cons_plus_iff {s : List Char} {n : ℕ} :
    Numeral ('+' :: s) n
      ↔ s ≠ [] ∧ (∀ c ∈ s, c.isDigit = true) ∧ Nat.ofDigitChars 10 s 0 = n := by
  constructor
  · intro h
    cases h with
    | plain _ hdigits => exact absurd (hdigits '+' List.mem_cons_self) not_isDigit_plus
    | plus hne hdigits => exact ⟨hne, hdigits, rfl⟩
  · rintro ⟨hne, hdigits, rfl⟩
    exact .plus hne hdigits

theorem head?_ne_of_ne_cons {c : Char} {s : List Char} (h : ∀ rest, s ≠ c :: rest) :
    s.head? ≠ some c := by
  intro hhead
  obtain ⟨rest, rfl⟩ := List.head?_eq_some_iff.mp hhead
  exact h rest rfl

theorem numeral_iff_of_head {s : List Char} {n : ℕ} (h : s.head? ≠ some '+') :
    Numeral s n ↔ s ≠ [] ∧ (∀ c ∈ s, c.isDigit = true) ∧ Nat.ofDigitChars 10 s 0 = n := by
  constructor
  · intro hnumeral
    cases hnumeral with
    | plain hne hdigits => exact ⟨hne, hdigits, rfl⟩
    | plus => exact absurd rfl h
  · rintro ⟨hne, hdigits, rfl⟩
    exact .plain hne hdigits

/-- **Exactly the numerals within the limit are read.** -/
theorem readUnsigned_eq_ok_iff {limit : ℕ} {s : List Char} {n : ℕ} :
    readUnsigned limit s = .ok n ↔ Numeral s n ∧ n ≤ limit := by
  rw [readUnsigned.eq_def]
  split
  · refine iff_of_false (by simp) fun h ↦ absurd rfl h.1.ne_nil
  · rw [readMagnitude_eq_ok_iff, numeral_cons_plus_iff]
    simp only [and_assoc]
  · rename_i hplus
    rw [readMagnitude_eq_ok_iff, numeral_iff_of_head (head?_ne_of_ne_cons hplus)]
    simp only [and_assoc]

theorem readWord_eq_ok_iff {s : List Char} {v : UInt64} :
    readWord s = .ok v ↔ Numeral s v.toNat := by
  have hle : v.toNat ≤ maxWord := Nat.le_sub_one_of_lt v.toNat_lt
  rw [readWord, Except.map_eq_ok_iff]
  constructor
  · rintro ⟨n, hn, rfl⟩
    obtain ⟨hnumeral, hn⟩ := readUnsigned_eq_ok_iff.mp hn
    rwa [UInt64.toNat_ofNat_of_lt' (Nat.lt_of_le_pred (by decide) hn)]
  · intro hnumeral
    exact ⟨v.toNat, readUnsigned_eq_ok_iff.mpr ⟨hnumeral, hle⟩, UInt64.ofNat_toNat⟩

theorem Numeral.head?_ne {s : List Char} {n : ℕ} (h : Numeral s n) : s.head? ≠ some '-' := by
  intro hhead
  rcases h.isDigit_or_eq '-' (List.mem_of_head? hhead) with hdigit | heq
  · exact absurd hdigit (by decide)
  · exact absurd heq (by decide)

/-- Where negative numbers are read as well, a numeral is read as itself. -/
theorem Numeral.readSigned_eq_ok {limit : ℕ} {s : List Char} {n : ℕ} (h : Numeral s n)
    (hn : n ≤ limit) : readSigned limit s = .ok (Int.ofNat n) := by
  rw [readSigned.eq_def]
  split
  · exact absurd rfl h.ne_nil
  · obtain ⟨hne, hdigits, hvalue⟩ := numeral_cons_plus_iff.mp h
    rw [readMagnitude_eq_ok_iff.mpr ⟨hne, hdigits, hvalue, hn⟩]
    rfl
  · exact absurd rfl h.head?_ne
  · rename_i hplus _
    obtain ⟨hne, hdigits, hvalue⟩ := (numeral_iff_of_head (head?_ne_of_ne_cons hplus)).mp h
    rw [readMagnitude_eq_ok_iff.mpr ⟨hne, hdigits, hvalue, hn⟩]
    rfl

theorem numeral_toDigits (n : ℕ) : Numeral (Nat.toDigits 10 n) n :=
  (readUnsigned_eq_ok_iff.mp (readUnsigned_toDigits (Nat.le_refl n))).1

end RecursiveMatrix.Decimal
