import Caretaker.Proofs.BlockNumber

/-!
# Quantities

A quantity is `0x` and one hexadecimal digit or more, and nothing else.  Every quantity below
`2 ^ 64` is read as the number that its digits have by their places, whatever zeros it starts with,
and no larger one is read at all.  The reader of numbers behind it lets a plus sign stand in front
of the digits, though, and so does the reader of quantities: that is the one way in which what is
read can fail to be a quantity.

Main definitions:

- `IsQuantity`: a quantity and its number.
- `IsSigned`: the same with a plus sign, which is no quantity.

Main statements:

- `quantity_eq_ok_iff`: what is read as a quantity, and when that is one.
- `signed_accepted`: a text that is read and is none.
-/

namespace Caretaker

namespace Text

variable {radix n : Nat} {text : List Char}

theorem not_isDigit_plus (hradix : radix ≤ 16) (d : Nat) : ¬ IsDigit radix '+' d :=
  (digitValue?_eq_none_iff hradix).1 rfl d

/-- Digits have no sign in front of them. -/
theorem Spells.ne_plus (hradix : radix ≤ 16) (h : Spells radix text n) (rest : List Char) :
    text ≠ '+' :: rest := by
  rintro rfl
  obtain ⟨values, -, hdigits, -⟩ := h
  cases hdigits with
  | cons hplus _ => exact not_isDigit_plus hradix _ hplus

/-- A numeral is digits, or a plus sign and digits. -/
theorem isNumeral_iff (hradix : radix ≤ 16) :
    IsNumeral radix text n ↔
      Spells radix text n ∨ ∃ digits, text = '+' :: digits ∧ Spells radix digits n := by
  by_cases hplus : ∃ digits, text = '+' :: digits
  · obtain ⟨digits, rfl⟩ := hplus
    constructor
    · intro h
      exact .inr ⟨digits, rfl, h⟩
    · rintro (h | ⟨_, ⟨⟩, h⟩)
      · exact absurd rfl (h.ne_plus hradix digits)
      · exact h
  · have hunsigned : unsigned text = text := by
      unfold unsigned
      split
      · exact absurd ⟨_, rfl⟩ hplus
      · rfl
    rw [IsNumeral, hunsigned]
    constructor
    · exact .inl
    · rintro (h | ⟨digits, rfl, -⟩)
      · exact h
      · exact absurd ⟨digits, rfl⟩ hplus

end Text

namespace Probe

open Text (Spells)

/-- A quantity and its number: `0x`, and one hexadecimal digit or more that spell the number. -/
def IsQuantity (value : String) (n : Nat) : Prop :=
  ∃ digits, value.toList = '0' :: 'x' :: digits ∧ Spells 16 digits n

/-- What would be a quantity without the plus sign in front of its digits. -/
def IsSigned (value : String) (n : Nat) : Prop :=
  ∃ digits, value.toList = '0' :: 'x' :: '+' :: digits ∧ Spells 16 digits n

variable {value : String} {n : Nat}

/-- A text with a sign is no quantity, of whatever number. -/
theorem IsSigned.not_isQuantity (h : IsSigned value n) (m : Nat) : ¬ IsQuantity value m := by
  obtain ⟨digits, hvalue, -⟩ := h
  rintro ⟨digits', hvalue', hdigits'⟩
  have hsame : '+' :: digits = digits' := by
    rw [hvalue] at hvalue'
    exact (List.cons.inj (List.cons.inj hvalue').2).2
  exact hdigits'.ne_plus (by decide) digits hsame.symm

/-- What stands behind `0x` is read as a numeral. -/
theorem quantity_of_digits {digits : List Char} (hvalue : value.toList = '0' :: 'x' :: digits) :
    quantity value = .ok n ↔ Text.IsNumeral 16 digits n ∧ n ≤ 2 ^ 64 - 1 := by
  have hcause : ∀ answer : Except Text.NumberFault Nat,
      answer.mapError (Fault.invalidQuantity value) = .ok n ↔ answer = .ok n := by
    intro answer
    cases answer <;> simp [Except.mapError]
  rw [quantity_eq hvalue, hcause]
  exact Text.readNumber_eq_ok_iff (by decide) (by decide)

/-- A text is read if it is a quantity, perhaps with a sign. -/
theorem quantity_reads :
    quantity value = .ok n ↔ (IsQuantity value n ∨ IsSigned value n) ∧ n ≤ 2 ^ 64 - 1 := by
  by_cases hhex : ∃ digits, value.toList = '0' :: 'x' :: digits
  · obtain ⟨digits, hvalue⟩ := hhex
    have hquantity : IsQuantity value n ↔ Spells 16 digits n := by
      simp [IsQuantity, hvalue]
    have hsigned : IsSigned value n ↔ ∃ rest, digits = '+' :: rest ∧ Spells 16 rest n := by
      simp [IsSigned, hvalue]
    rw [quantity_of_digits hvalue, Text.isNumeral_iff (by decide), hquantity, hsigned]
  · rw [quantity_eq_notHex (not_exists.1 hhex)]
    constructor
    · intro h
      cases h
    · rintro ⟨⟨digits, hvalue, -⟩ | ⟨digits, hvalue, -⟩, -⟩
      · exact absurd ⟨_, hvalue⟩ hhex
      · exact absurd ⟨_, hvalue⟩ hhex

/-- A text is read as a number exactly if it is a quantity of that number, perhaps with a sign, and
the number has 64 bits at most.  So what is read of a text is what it is as a quantity exactly if it
has no such sign. -/
theorem quantity_eq_ok_iff (value : String) :
    (∀ n, quantity value = .ok n ↔
      (IsQuantity value n ∨ IsSigned value n) ∧ n ≤ 2 ^ 64 - 1) ∧
    ((∀ n, quantity value = .ok n ↔ IsQuantity value n ∧ n ≤ 2 ^ 64 - 1) ↔
      ∀ n ≤ 2 ^ 64 - 1, ¬ IsSigned value n) := by
  refine ⟨fun n => quantity_reads, fun h n hle hsigned => ?_, fun hunsigned n => ?_⟩
  · exact hsigned.not_isQuantity n ((h n).1 (quantity_reads.2 ⟨.inr hsigned, hle⟩)).1
  · rw [quantity_reads]
    constructor
    · rintro ⟨hquantity | hsigned, hle⟩
      · exact ⟨hquantity, hle⟩
      · exact absurd hsigned (hunsigned n hle)
    · rintro ⟨hquantity, hle⟩
      exact ⟨.inl hquantity, hle⟩

/-- A plus sign is read over, though with it there is no quantity. -/
theorem signed_accepted :
    quantity "0x+10" = .ok 16 ∧ ∀ n, ¬ IsQuantity "0x+10" n := by
  have hread : quantity "0x+10" = .ok 16 := by decide
  have hdigits : Text.IsDigits 16 ['1', '0'] [1, 0] :=
    .cons ⟨by decide, .inl rfl⟩ (.cons ⟨by decide, .inl rfl⟩ .nil)
  have hsigned : IsSigned "0x+10" 16 := ⟨['1', '0'], rfl, [1, 0], by simp, hdigits, rfl⟩
  exact ⟨hread, hsigned.not_isQuantity⟩

end Probe
end Caretaker
