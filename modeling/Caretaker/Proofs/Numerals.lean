import Mathlib.Data.List.Forall2
import Mathlib.Data.List.Induction
import Mathlib.Data.Nat.Digits.Lemmas
import Caretaker.Text.Number

/-!
# Numerals

A numeral is one digit or more, perhaps behind a plus sign, and spells the number that its digits
have by their places.  Every numeral within the limit is read as that number.  Any other text is
refused for the first thing that is wrong with it: it is empty, it has no digit, something that is
no digit comes while the number is still within the limit, or the number is too large at some digit.
A number is printed as the one numeral in decimal without a sign and without a leading zero.

Main definitions:

- `Spells`: digits and the number that they spell.
- `IsNumeral`: a numeral, which may have a plus sign, and the number that it spells.
- `Refused`: why a text is no numeral within the limit.

Main statements:

- `readNumber_eq_ok_iff`, `readNumber_eq_error_iff`: what is read, and what is refused and why.
- `toDigits_placeValue`: the digits with which a number is printed.
-/

namespace Caretaker.Text

/-- A digit of a radix, letters in either case, and its value. -/
def IsDigit (radix : Nat) (c : Char) (d : Nat) : Prop :=
  d < radix ∧ (c = d.digitChar ∨ c = d.digitChar.toUpper)

/-- Digits with their values. -/
abbrev IsDigits (radix : Nat) : List Char → List Nat → Prop := List.Forall₂ (IsDigit radix)

/-- The number that digits have by their places; the last one counts single. -/
def placeValue (radix : Nat) (values : List Nat) : Nat := Nat.ofDigits radix values.reverse

/-- A text without the plus sign that it may start with. -/
def unsigned : List Char → List Char
  | '+' :: text => text
  | text => text

/-- One digit or more, and the number that they spell. -/
def Spells (radix : Nat) (text : List Char) (n : Nat) : Prop :=
  ∃ values, values ≠ [] ∧ IsDigits radix text values ∧ n = placeValue radix values

/-- A numeral and the number that it spells. -/
def IsNumeral (radix : Nat) (text : List Char) (n : Nat) : Prop := Spells radix (unsigned text) n

/-- The digits in front end where a text starts: it has no digit to go on with. -/
def DigitsEnd (radix : Nat) (rest : List Char) : Prop := ∀ c ∈ rest.head?, ∀ d, ¬ IsDigit radix c d

/-- Why a text is no numeral within a limit. -/
inductive Refused (radix limit : Nat) (text : List Char) : NumberFault → Prop where
  | empty (h : text = []) : Refused radix limit text .empty
  | bare (h : text = ['+']) : Refused radix limit text .invalidDigit
  | invalidDigit {front rest : List Char} {c : Char} {values : List Nat}
      (htext : unsigned text = front ++ c :: rest) (hfront : IsDigits radix front values)
      (hle : placeValue radix values ≤ limit) (hc : ∀ d, ¬ IsDigit radix c d) :
      Refused radix limit text .invalidDigit
  | tooLarge {front rest : List Char} {values : List Nat} (htext : unsigned text = front ++ rest)
      (hfront : IsDigits radix front values) (hlt : limit < placeValue radix values) :
      Refused radix limit text .tooLarge

variable {radix limit n : Nat} {digits rest text : List Char} {before values : List Nat}

/-! ## Digits -/

theorem digitValue?_sixteen_iff {c : Char} {d : Nat} :
    digitValue? 16 c = some d ↔ IsDigit 16 c d := by
  constructor
  · intro h
    -- the digits are ASCII characters, so there are few to look at
    have hsmall : c.toNat < 128 := by
      obtain ⟨hvalue, -⟩ := Option.filter_eq_some_iff.1 h
      simp only [Char.le_def, UInt32.le_iff_toNat_le] at hvalue
      split at hvalue
      · next hc => exact Nat.lt_of_le_of_lt hc.2 (by decide)
      · split at hvalue
        · next hc => exact Nat.lt_of_le_of_lt hc.2 (by decide)
        · split at hvalue
          · next hc => exact Nat.lt_of_le_of_lt hc.2 (by decide)
          · cases hvalue
    have hall : ∀ k < 128, ∀ d ∈ digitValue? 16 (Char.ofNat k), d < 16 ∧
        (Char.ofNat k = d.digitChar ∨ Char.ofNat k = d.digitChar.toUpper) := by
      decide
    have hc := hall c.toNat hsmall d
    rw [Char.ofNat_toNat] at hc
    exact hc h
  · have hall : ∀ d < 16, digitValue? 16 d.digitChar = some d ∧
        digitValue? 16 d.digitChar.toUpper = some d := by
      decide
    rintro ⟨hd, rfl | rfl⟩
    · exact (hall d hd).1
    · exact (hall d hd).2

/-- The reader takes the digits of a radix for what they are. -/
theorem digitValue?_eq_some_iff (hradix : radix ≤ 16) {c : Char} {d : Nat} :
    digitValue? radix c = some d ↔ IsDigit radix c d := by
  have hsixteen := @digitValue?_sixteen_iff c d
  simp only [digitValue?, Option.filter_eq_some_iff, decide_eq_true_eq, IsDigit] at hsixteen ⊢
  constructor
  · rintro ⟨hvalue, hd⟩
    exact ⟨hd, (hsixteen.1 ⟨hvalue, by omega⟩).2⟩
  · rintro ⟨hd, hc⟩
    exact ⟨(hsixteen.2 ⟨by omega, hc⟩).1, hd⟩

theorem digitValue?_eq_none_iff (hradix : radix ≤ 16) {c : Char} :
    digitValue? radix c = none ↔ ∀ d, ¬ IsDigit radix c d := by
  simp only [Option.eq_none_iff_forall_ne_some, ne_eq, digitValue?_eq_some_iff hradix]

/-- The digits at the start of a text. -/
theorem exists_digits (hradix : radix ≤ 16) (text : List Char) :
    ∃ digits rest values, text = digits ++ rest ∧ IsDigits radix digits values ∧
      DigitsEnd radix rest := by
  induction text with
  | nil => exact ⟨[], [], [], rfl, .nil, nofun⟩
  | cons c text ih =>
    cases hc : digitValue? radix c with
    | none =>
      refine ⟨[], c :: text, [], rfl, .nil, ?_⟩
      rintro _ ⟨⟩
      exact (digitValue?_eq_none_iff hradix).1 hc
    | some d =>
      obtain ⟨digits, rest, values, rfl, hdigits, hrest⟩ := ih
      exact ⟨c :: digits, rest, d :: values, rfl,
        .cons ((digitValue?_eq_some_iff hradix).1 hc) hdigits, hrest⟩

/-- A character that is no digit ends the digits. -/
theorem digitsEnd_cons {c : Char} (hradix : radix ≤ 16) (hc : digitValue? radix c = none) :
    DigitsEnd radix (c :: rest) := by
  rintro _ ⟨⟩
  exact (digitValue?_eq_none_iff hradix).1 hc

theorem digitsEnd_nil : DigitsEnd radix [] := nofun

theorem lt_of_isDigits (h : IsDigits radix digits values) : ∀ d ∈ values, d < radix := by
  induction h with
  | nil => simp
  | cons hc _ ih => exact List.forall_mem_cons.2 ⟨hc.1, ih⟩

/-! ## Place values -/

@[simp] theorem placeValue_nil : placeValue radix [] = 0 := rfl

@[simp] theorem placeValue_concat (values : List Nat) (d : Nat) :
    placeValue radix (values ++ [d]) = radix * placeValue radix values + d := by
  simp [placeValue, Nat.ofDigits_cons, Nat.add_comm]

/-- More digits make a number no smaller. -/
theorem placeValue_le_append (hradix : 0 < radix) (before values : List Nat) :
    placeValue radix before ≤ placeValue radix (before ++ values) := by
  have hpow : 0 < radix ^ values.length := Nat.pow_pos hradix
  rw [placeValue, placeValue, List.reverse_append, Nat.ofDigits_append, List.length_reverse]
  calc
    Nat.ofDigits radix before.reverse
      ≤ radix ^ values.length * Nat.ofDigits radix before.reverse := Nat.le_mul_of_pos_left _ hpow
    _ ≤ _ := Nat.le_add_left _ _

theorem placeValue_lt (h : IsDigits radix digits values) (hradix : 1 < radix) :
    placeValue radix values < radix ^ values.length := by
  have hdigits : ∀ d ∈ values.reverse, d < radix := by simpa using lt_of_isDigits h
  simpa [placeValue] using Nat.ofDigits_lt_base_pow_length hradix hdigits

/-! ## Decimal numbers without leading zeros -/

/-- No zero stands in front of another digit. -/
def NoLeadingZero (values : List Nat) : Prop := values.head? = some 0 → values = [0]

theorem isDigits_ten_iff :
    IsDigits 10 digits values ↔ (∀ d ∈ values, d < 10) ∧ digits = values.map Nat.digitChar := by
  have hlower : ∀ d < 10, d.digitChar.toUpper = d.digitChar := by decide
  constructor
  · intro h
    induction h with
    | nil => simp
    | cons hc _ ih =>
      obtain ⟨hd, hc⟩ := hc
      rw [hlower _ hd, or_self] at hc
      exact ⟨List.forall_mem_cons.2 ⟨hd, ih.1⟩, by rw [hc, ih.2, List.map_cons]⟩
  · rintro ⟨hvalues, rfl⟩
    exact List.forall₂_map_left_iff.2 (List.forall₂_same.2 fun d hd => ⟨hvalues d hd, .inl rfl⟩)

/-- A number is printed with the digits that have its value. -/
theorem toDigits_placeValue (hradix : 1 < radix) (hvalues : ∀ d ∈ values, d < radix)
    (hne : values ≠ []) (hzero : NoLeadingZero values) :
    Nat.toDigits radix (placeValue radix values) = values.map Nat.digitChar := by
  induction values using List.reverseRecOn with
  | nil => exact absurd rfl hne
  | append_singleton values d ih =>
    have hd : d < radix := hvalues d (by simp)
    rw [placeValue_concat]
    cases values with
    | nil => simp [Nat.toDigits_of_lt_base hd]
    | cons first values =>
      have hfirst : first ≠ 0 := by
        rintro rfl
        simpa using hzero rfl
      have hpos : 0 < placeValue radix (first :: values) := by
        refine Nat.lt_of_lt_of_le (Nat.pos_of_ne_zero hfirst) ?_
        have hle : placeValue radix [first] ≤ placeValue radix (first :: values) :=
          placeValue_le_append (by omega) [first] values
        rwa [← List.nil_append [first], placeValue_concat, placeValue_nil, Nat.mul_zero,
          Nat.zero_add] at hle
      have hbase : radix ≤ radix * placeValue radix (first :: values) :=
        Nat.le_mul_of_pos_right _ hpos
      have hfront := ih (fun e he => hvalues e (List.mem_append_left _ he)) (by simp)
        (fun h => absurd (Option.some.inj h) hfirst)
      rw [Nat.toDigits_of_base_le hradix (by omega), Nat.mul_add_div (by omega),
        Nat.mul_add_mod, Nat.div_eq_of_lt hd, Nat.mod_eq_of_lt hd, Nat.add_zero, hfront]
      simp

/-- Every number has digits. -/
theorem exists_values (hradix : 1 < radix) (n : Nat) : ∃ values, values ≠ [] ∧
    (∀ d ∈ values, d < radix) ∧ NoLeadingZero values ∧ placeValue radix values = n := by
  by_cases hn : n = 0
  · exact ⟨[0], by simp, by simpa using by omega, fun _ => rfl, by simp [placeValue, hn]⟩
  · have hdigits : Nat.digits radix n ≠ [] := Nat.digits_ne_nil_iff_ne_zero.2 hn
    refine ⟨(Nat.digits radix n).reverse, by simpa using hdigits, ?_, ?_, ?_⟩
    · simpa using fun d hd => Nat.digits_lt_base hradix hd
    · intro hhead
      rw [List.head?_reverse] at hhead
      have hlast := Nat.getLast_digit_ne_zero radix hn
      rw [List.getLast?_eq_some_getLast hdigits] at hhead
      exact absurd (Option.some.inj hhead) hlast
    · rw [placeValue, List.reverse_reverse, Nat.ofDigits_digits]

theorem isDigits_toDigits (hradix : 10 ≤ radix) (n : Nat) :
    ∃ values, IsDigits radix (Nat.toDigits 10 n) values := by
  obtain ⟨values, hne, hvalues, hzero, rfl⟩ := exists_values (by decide : 1 < 10) n
  rw [toDigits_placeValue (by decide) hvalues hne hzero]
  exact ⟨values, (isDigits_ten_iff.2 ⟨hvalues, rfl⟩).imp fun _ _ h => ⟨h.1.trans_le hradix, h.2⟩⟩

/-! ## Reading -/

section readDigits

variable (hradix : radix ≤ 16) (hpos : 0 < radix)
include hradix

/-- One more digit within the limit. -/
theorem readDigits_digit {c : Char} {d : Nat} (hc : IsDigit radix c d) (rest : List Char) :
    readDigits radix limit (placeValue radix before) (c :: rest) =
      if placeValue radix (before ++ [d]) ≤ limit then
        readDigits radix limit (placeValue radix (before ++ [d])) rest
      else .error .tooLarge := by
  rw [readDigits, (digitValue?_eq_some_iff hradix).2 hc, placeValue_concat]

/-- Digits that go beyond the limit are refused, whatever follows. -/
theorem readDigits_tooLarge (h : IsDigits radix digits values)
    (hbefore : placeValue radix before ≤ limit)
    (hlt : limit < placeValue radix (before ++ values)) (rest : List Char) :
    readDigits radix limit (placeValue radix before) (digits ++ rest) = .error .tooLarge := by
  induction h generalizing before with
  | nil =>
    rw [List.append_nil] at hlt
    omega
  | @cons c d digits values hc _ ih =>
    rw [List.append_cons] at hlt
    rw [List.cons_append, readDigits_digit hradix hc]
    split
    next hle => exact ih hle hlt
    next => rfl

include hpos

/-- Digits within the limit are read, whatever follows. -/
theorem readDigits_append (h : IsDigits radix digits values)
    (hle : placeValue radix (before ++ values) ≤ limit) (rest : List Char) :
    readDigits radix limit (placeValue radix before) (digits ++ rest) =
      readDigits radix limit (placeValue radix (before ++ values)) rest := by
  induction h generalizing before with
  | nil => rw [List.append_nil, List.nil_append]
  | @cons c d digits values hc _ ih =>
    rw [List.append_cons] at hle ⊢
    have hfirst := (placeValue_le_append hpos (before ++ [d]) values).trans hle
    rw [List.cons_append, readDigits_digit hradix hc, if_pos hfirst]
    exact ih hle

end readDigits

/-- Reading starts behind the sign. -/
theorem readNumber_eq (hempty : text ≠ []) (hbare : text ≠ ['+']) :
    readNumber radix limit text =
      readDigits radix limit (placeValue radix []) (unsigned text) := by
  unfold readNumber unsigned
  split
  · exact absurd rfl hempty
  · exact absurd rfl hbare
  · rfl
  · next hsign =>
    split
    · exact absurd rfl (hsign _)
    · rfl

section readNumber

variable (hradix : radix ≤ 16) (hpos : 0 < radix)
include hradix hpos

theorem IsNumeral.readNumber (h : IsNumeral radix text n) (hle : n ≤ limit) :
    readNumber radix limit text = .ok n := by
  obtain ⟨values, hne, hdigits, rfl⟩ := h
  have hunsigned : unsigned text ≠ [] := by
    intro hnil
    rw [hnil] at hdigits
    cases hdigits
    exact hne rfl
  have hempty : text ≠ [] := by
    rintro rfl
    exact hunsigned rfl
  have hbare : text ≠ ['+'] := by
    rintro rfl
    exact hunsigned rfl
  have hread := @readDigits_append radix limit _ [] values hradix hpos hdigits hle []
  rw [List.append_nil, List.nil_append] at hread
  rw [readNumber_eq hempty hbare, hread]
  rfl

theorem Refused.readNumber {fault : NumberFault} (h : Refused radix limit text fault) :
    readNumber radix limit text = .error fault := by
  cases h with
  | empty htext =>
    subst htext
    rfl
  | bare htext =>
    subst htext
    rfl
  | @invalidDigit front rest c values htext hfront hle hc =>
    have hempty : text ≠ [] := by
      rintro rfl
      simp [unsigned] at htext
    have hbare : text ≠ ['+'] := by
      rintro rfl
      simp [unsigned] at htext
    rw [readNumber_eq hempty hbare, htext, readDigits_append hradix hpos hfront hle, readDigits,
      (digitValue?_eq_none_iff hradix).2 hc]
  | @tooLarge front rest values htext hfront hlt =>
    have hfront' : front ≠ [] := by
      rintro rfl
      cases hfront
      simp at hlt
    have hempty : text ≠ [] := by
      rintro rfl
      simp [unsigned, hfront'] at htext
    have hbare : text ≠ ['+'] := by
      rintro rfl
      simp [unsigned, hfront'] at htext
    rw [readNumber_eq hempty hbare, htext]
    exact readDigits_tooLarge hradix hfront (Nat.zero_le limit) hlt rest

omit hpos in
/-- A text is a numeral within the limit, or there is a reason why it is none. -/
theorem isNumeral_or_refused (limit : Nat) (text : List Char) :
    (∃ n ≤ limit, IsNumeral radix text n) ∨ ∃ fault, Refused radix limit text fault := by
  obtain ⟨digits, rest, values, htext, hdigits, hrest⟩ := exists_digits hradix (unsigned text)
  by_cases hle : placeValue radix values ≤ limit
  · cases rest with
    | cons c rest => exact .inr ⟨_, .invalidDigit htext hdigits hle (hrest c rfl)⟩
    | nil =>
      rw [List.append_nil] at htext
      by_cases hne : values = []
      · -- there is no digit at all
        subst hne
        cases hdigits
        have hbare : text = [] ∨ text = ['+'] := by
          unfold unsigned at htext
          split at htext
          · exact .inr (congrArg _ htext)
          · exact .inl htext
        exact .inr (hbare.elim (fun h => ⟨_, .empty h⟩) fun h => ⟨_, .bare h⟩)
      · exact .inl ⟨_, hle, values, hne, htext ▸ hdigits, rfl⟩
  · exact .inr ⟨_, .tooLarge htext hdigits (Nat.not_le.1 hle)⟩

/-- A numeral within the limit is read as the number that it spells, and nothing else is read. -/
theorem readNumber_eq_ok_iff :
    readNumber radix limit text = .ok n ↔ IsNumeral radix text n ∧ n ≤ limit := by
  constructor
  · intro h
    rcases isNumeral_or_refused hradix limit text with ⟨m, hle, hm⟩ | ⟨fault, hfault⟩
    · have hread := hm.readNumber hradix hpos hle
      rw [h] at hread
      cases hread
      exact ⟨hm, hle⟩
    · rw [hfault.readNumber hradix hpos] at h
      cases h
  · rintro ⟨h, hle⟩
    exact h.readNumber hradix hpos hle

/-- Every other text is refused for the first thing that is wrong with it. -/
theorem readNumber_eq_error_iff {fault : NumberFault} :
    readNumber radix limit text = .error fault ↔ Refused radix limit text fault := by
  refine ⟨fun h => ?_, fun h => h.readNumber hradix hpos⟩
  rcases isNumeral_or_refused hradix limit text with ⟨m, hle, hm⟩ | ⟨other, hother⟩
  · rw [hm.readNumber hradix hpos hle] at h
    cases h
  · have hread := hother.readNumber hradix hpos
    rw [h] at hread
    cases hread
    exact hother

end readNumber

end Caretaker.Text
