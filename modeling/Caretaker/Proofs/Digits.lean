import Caretaker.Text.Number

/-!
# Digits that are printed and read

The digits that are printed for a number are read as that number, with any zeros in front.

Main statements:

- `readDigits_paddedDigits`: reading undoes printing.
- `paddedDigits_injective`: two numbers that are printed alike are the same.
-/

namespace Caretaker.Text

variable {radix limit n : Nat}

/-- The character of a digit has the value of the digit. -/
theorem digitValue?_digitChar {d : Nat} (hd : d < radix) (hradix : radix ≤ 16) :
    digitValue? radix d.digitChar = some d := by
  have hsixteen : ∀ d < 16, digitValue? 16 d.digitChar = some d := by decide
  have hvalue := hsixteen d (by omega)
  simp only [digitValue?, Option.filter_eq_some_iff] at hvalue ⊢
  exact ⟨hvalue.1, decide_eq_true hd⟩

/-- One more digit is read after the others. -/
theorem readDigits_concat {acc value d : Nat} {digits : List Char} {c : Char}
    (h : readDigits radix limit acc digits = .ok value) (hc : digitValue? radix c = some d)
    (hlimit : radix * value + d ≤ limit) :
    readDigits radix limit acc (digits ++ [c]) = .ok (radix * value + d) := by
  induction digits generalizing acc with
  | nil =>
    cases h
    simp [readDigits, hc, hlimit]
  | cons first digits ih =>
    rw [readDigits] at h
    rw [List.cons_append, readDigits]
    split at h
    · cases h
    · split at h
      · next hle =>
        rw [if_pos hle]
        exact ih h
      · cases h

theorem readDigits_toDigits (hone : 1 < radix) (hradix : radix ≤ 16) (h : n ≤ limit) :
    readDigits radix limit 0 (Nat.toDigits radix n) = .ok n := by
  induction n using Nat.strongRecOn with
  | ind n ih =>
    by_cases hn : n < radix
    · -- One digit is left.
      have hvalue := digitValue?_digitChar hn hradix
      rw [Nat.toDigits_of_lt_base hn]
      simp [readDigits, hvalue, h]
    · have hsmaller : n / radix < n := Nat.div_lt_self (by omega) hone
      have hlast : n % radix < radix := Nat.mod_lt n (by omega)
      have hparts : radix * (n / radix) + n % radix = n := Nat.div_add_mod n radix
      have hread := readDigits_concat (ih _ hsmaller (by omega))
        (digitValue?_digitChar hlast hradix) (by omega)
      rw [Nat.toDigits_of_base_le hone (by omega)]
      rwa [hparts] at hread

/-- Zeros in front do not change what is read. -/
theorem readDigits_padZeros (hone : 1 < radix) (width : Nat) (digits : List Char) :
    readDigits radix limit 0 (padZeros width digits) = readDigits radix limit 0 digits := by
  have hzero : digitValue? radix '0' = some 0 := by
    simp [digitValue?, Option.filter_eq_some_iff]
    omega
  unfold padZeros
  induction width - digits.length with
  | zero => rfl
  | succ zeros ih => simpa [List.replicate_succ, readDigits, hzero] using ih

/-- Digits that are printed are read as the number they are printed for. -/
theorem readDigits_paddedDigits (hone : 1 < radix) (hradix : radix ≤ 16) (width : Nat)
    (h : n ≤ limit) : readDigits radix limit 0 (paddedDigits radix width n) = .ok n := by
  unfold paddedDigits
  rw [readDigits_padZeros hone]
  exact readDigits_toDigits hone hradix h

theorem paddedDigits_injective (hone : 1 < radix) (hradix : radix ≤ 16) {width m n : Nat}
    (h : paddedDigits radix width m = paddedDigits radix width n) : m = n := by
  -- Both are read within a limit that is large enough for both.
  have hm := readDigits_paddedDigits hone hradix width (Nat.le_max_left m n)
  have hn := readDigits_paddedDigits hone hradix width (Nat.le_max_right m n)
  rw [h, hn] at hm
  exact (Except.ok.inj hm).symm

end Caretaker.Text
