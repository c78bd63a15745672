import Caretaker.Json.Token

/-!
# How strings and numbers are written in JSON

What may be written for a text and for a number is told here apart from the reader: the ways to
write a character inside a string, and the parts of a number.  The reader takes exactly what was
written: a string ends at the first quote that is not escaped, and a number where it cannot go on.

Main definitions:

- `SpellsChar`, `SpellsText`: what may be written inside a string for a character and for a text.
- `IsBody`: what may stand inside a string, with the characters and codes in it.
- `IsNumeral`, `EndsNumber`: a number, and what may stand behind it.

Main statements:

- `IsBody.stringUnits?`, `exists_isBody`: the body of a string is read up to its quote, and whatever
  is read as a body is one.
- `SpellsText.exists_units`, `IsBody.spellsText`: a body was written for the text its units spell.
- `numeral?_append`, `eq_append_of_numeral?`: the same for numbers.
-/

namespace Caretaker.Json

/-! ## Strings -/

/-- A hexadecimal digit in either case, and its value. -/
def IsHexDigit (c : Char) (n : Nat) : Prop :=
  n < 16 ∧ (c = n.digitChar ∨ c = n.digitChar.toUpper)

/-- Four hexadecimal digits, and the code they stand for. -/
inductive IsHexCode : List Char → Nat → Prop where
  | digits {p q r s : Char} {a b c d : Nat} (hp : IsHexDigit p a) (hq : IsHexDigit q b)
      (hr : IsHexDigit r c) (hs : IsHexDigit s d) :
      IsHexCode [p, q, r, s] (a * 0x1000 + b * 0x100 + c * 0x10 + d)

/-- The letters that may stand behind a backslash, each with its character. -/
def letterEscapes : List (Char × Char) :=
  [('"', '"'), ('\\', '\\'), ('/', '/'), ('b', '\x08'), ('f', '\x0c'), ('n', '\n'), ('r', '\r'),
    ('t', '\t')]

/-- A character that may stand for itself inside a string. -/
structure IsPlain (c : Char) : Prop where
  notQuote : c ≠ '"'
  notBackslash : c ≠ '\\'
  printable : 0x20 ≤ c.toNat

/-- What may be written for a character inside a string: the character itself, a letter behind a
backslash, its code, or the codes of a surrogate pair. -/
inductive SpellsChar : List Char → Char → Prop where
  | plain {c : Char} (h : IsPlain c) : SpellsChar [c] c
  | letter {letter c : Char} (h : (letter, c) ∈ letterEscapes) : SpellsChar ['\\', letter] c
  | code {digits : List Char} {c : Char} (h : IsHexCode digits c.toNat) :
      SpellsChar ('\\' :: 'u' :: digits) c
  | pair {digits digits' : List Char} {high low : Nat} {c : Char} (hhigh : IsHexCode digits high)
      (hlow : IsHexCode digits' low) (hfirst : 0xD800 ≤ high ∧ high ≤ 0xDBFF)
      (hsecond : 0xDC00 ≤ low ∧ low ≤ 0xDFFF)
      (h : c.toNat = 0x10000 + (high - 0xD800) * 0x400 + (low - 0xDC00)) :
      SpellsChar ('\\' :: 'u' :: digits ++ '\\' :: 'u' :: digits') c

/-- What may be written for a text between the quotes of a string. -/
inductive SpellsText : List Char → List Char → Prop where
  | nil : SpellsText [] []
  | cons {written body text : List Char} {c : Char} (hchar : SpellsChar written c)
      (hrest : SpellsText body text) : SpellsText (written ++ body) (c :: text)

/-- What may stand between the quotes of a string, whether it spells a text or not, with the
characters and codes in it. -/
inductive IsBody : List Char → List StringUnit → Prop where
  | nil : IsBody [] []
  | plain {c : Char} {body : List Char} {units : List StringUnit} (h : IsPlain c)
      (hrest : IsBody body units) : IsBody (c :: body) (.char c :: units)
  | letter {letter c : Char} {body : List Char} {units : List StringUnit}
      (h : (letter, c) ∈ letterEscapes) (hrest : IsBody body units) :
      IsBody ('\\' :: letter :: body) (.char c :: units)
  | code {digits body : List Char} {n : Nat} {units : List StringUnit} (h : IsHexCode digits n)
      (hrest : IsBody body units) : IsBody ('\\' :: 'u' :: digits ++ body) (.code n :: units)

/-! ### Reading codes -/

theorem hexValue?_of_isHexDigit {c : Char} {n : Nat} (h : IsHexDigit c n) :
    hexValue? c = some n := by
  have hall : ∀ n < 16,
      hexValue? n.digitChar = some n ∧ hexValue? n.digitChar.toUpper = some n := by
    decide
  obtain ⟨hn, rfl | rfl⟩ := h
  · exact (hall n hn).1
  · exact (hall n hn).2

theorem isHexDigit_of_hexValue? {c : Char} {n : Nat} (h : hexValue? c = some n) :
    IsHexDigit c n := by
  -- the digits are ASCII characters, so there are few to look at
  have hsmall : c.toNat < 128 := by
    unfold hexValue? at h
    simp only [Char.le_def, UInt32.le_iff_toNat_le] at h
    split at h
    · next hc => exact Nat.lt_of_le_of_lt hc.2 (by decide)
    · split at h
      · next hc => exact Nat.lt_of_le_of_lt hc.2 (by decide)
      · split at h
        · next hc => exact Nat.lt_of_le_of_lt hc.2 (by decide)
        · cases h
  have hall : ∀ k < 128, ∀ n ∈ hexValue? (Char.ofNat k), n < 16 ∧
      (Char.ofNat k = n.digitChar ∨ Char.ofNat k = n.digitChar.toUpper) := by
    decide
  have hc := hall c.toNat hsmall n
  rw [Char.ofNat_toNat] at hc
  exact hc h

theorem hexCode?_eq_some_iff {p q r s : Char} {n : Nat} :
    hexCode? p q r s = some n ↔ IsHexCode [p, q, r, s] n := by
  constructor
  · intro h
    unfold hexCode? at h
    split at h
    next a b c d hp hq hr hs =>
      have hcode := IsHexCode.digits (isHexDigit_of_hexValue? hp) (isHexDigit_of_hexValue? hq)
        (isHexDigit_of_hexValue? hr) (isHexDigit_of_hexValue? hs)
      have hn : n = a * 0x1000 + b * 0x100 + c * 0x10 + d := by
        rw [← Option.some.inj h]
        omega
      exact hn ▸ hcode
    · cases h
  · intro h
    cases h with
    | digits hp hq hr hs =>
      simp only [hexCode?, hexValue?_of_isHexDigit hp, hexValue?_of_isHexDigit hq,
        hexValue?_of_isHexDigit hr, hexValue?_of_isHexDigit hs, Option.some.injEq]
      omega

theorem IsHexCode.lt {digits : List Char} {n : Nat} (h : IsHexCode digits n) : n < 0x10000 := by
  cases h with
  | digits hp hq hr hs =>
    have := hp.1
    have := hq.1
    have := hr.1
    have := hs.1
    omega

theorem IsHexCode.exists_four {digits : List Char} {n : Nat} (h : IsHexCode digits n) :
    ∃ p q r s, digits = [p, q, r, s] := by
  cases h with
  | digits => exact ⟨_, _, _, _, rfl⟩

theorem simpleEscape?_eq_some_iff {letter c : Char} :
    simpleEscape? letter = some c ↔ (letter, c) ∈ letterEscapes := by
  constructor
  · intro h
    unfold simpleEscape? at h
    split at h <;> cases h <;> decide
  · intro h
    simp only [letterEscapes, List.mem_cons, Prod.mk.injEq, List.not_mem_nil, or_false] at h
    rcases h with ⟨rfl, rfl⟩ | ⟨rfl, rfl⟩ | ⟨rfl, rfl⟩ | ⟨rfl, rfl⟩ | ⟨rfl, rfl⟩ | ⟨rfl, rfl⟩ |
      ⟨rfl, rfl⟩ | ⟨rfl, rfl⟩ <;> rfl

/-! ### Reading the body of a string -/

/-- A character that is written as it is stands for itself. -/
theorem stringUnits?_plain {c : Char} (h : IsPlain c) (rest : List Char) :
    stringUnits? (c :: rest) =
      (stringUnits? rest).map fun (units, after) => (.char c :: units, after) := by
  rw [stringUnits?.eq_def]
  split
  · next heq => cases heq
  · next heq => exact absurd (List.cons.inj heq).1 h.notQuote
  · next heq => exact absurd (List.cons.inj heq).1 h.notBackslash
  · next heq => exact absurd (List.cons.inj heq).1 h.notBackslash
  · next heq =>
    obtain ⟨rfl, rfl⟩ := List.cons.inj heq
    rw [if_neg h.notBackslash, if_neg (Nat.not_lt.2 h.printable)]

theorem stringUnits?_letter {letter c : Char} (h : (letter, c) ∈ letterEscapes)
    (rest : List Char) :
    stringUnits? ('\\' :: letter :: rest) =
      (stringUnits? rest).map fun (units, after) => (.char c :: units, after) := by
  have hnotU : letter ≠ 'u' := by
    rintro rfl
    simp [letterEscapes] at h
  rw [stringUnits?.eq_def]
  split
  · next heq => cases heq
  · next heq => exact absurd (List.cons.inj heq).1 (by decide)
  · next heq => exact absurd (List.cons.inj (List.cons.inj heq).2).1 hnotU
  · next heq =>
    obtain ⟨rfl, rfl⟩ := List.cons.inj (List.cons.inj heq).2
    rw [simpleEscape?_eq_some_iff.2 h]
  · next hne heq =>
    obtain ⟨rfl, rfl⟩ := List.cons.inj heq
    exact (hne _ _ rfl rfl).elim

theorem stringUnits?_code {digits : List Char} {n : Nat} (h : IsHexCode digits n)
    (rest : List Char) :
    stringUnits? ('\\' :: 'u' :: digits ++ rest) =
      (stringUnits? rest).map fun (units, after) => (.code n :: units, after) := by
  obtain ⟨p, q, r, s, rfl⟩ := h.exists_four
  show stringUnits? ('\\' :: 'u' :: p :: q :: r :: s :: rest) = _
  rw [stringUnits?, hexCode?_eq_some_iff.2 h]

/-- The body of a string ends at the first quote that is not escaped. -/
theorem IsBody.stringUnits? {body : List Char} {units : List StringUnit} (h : IsBody body units)
    (rest : List Char) : stringUnits? (body ++ '"' :: rest) = some (units, rest) := by
  induction h with
  | nil => rfl
  | plain hplain _ ih => rw [List.cons_append, stringUnits?_plain hplain, ih, Option.map_some]
  | letter hletter _ ih =>
    rw [List.cons_append, List.cons_append, stringUnits?_letter hletter, ih, Option.map_some]
  | code hcode _ ih => rw [List.append_assoc, stringUnits?_code hcode, ih, Option.map_some]

theorem exists_isBody {text rest : List Char} {units : List StringUnit}
    (h : stringUnits? text = some (units, rest)) :
    ∃ body, text = body ++ '"' :: rest ∧ IsBody body units := by
  fun_induction stringUnits? text generalizing units with
  | case1 => cases h
  | case2 after =>
    cases h
    exact ⟨[], rfl, .nil⟩
  | case3 => cases h
  | case4 p q r s after n hcode ih =>
    obtain ⟨⟨units, after⟩, hrest, heq⟩ := Option.map_eq_some_iff.1 h
    cases heq
    obtain ⟨body, rfl, hbody⟩ := ih hrest
    exact ⟨'\\' :: 'u' :: [p, q, r, s] ++ body, by simp,
      .code (hexCode?_eq_some_iff.1 hcode) hbody⟩
  | case5 => cases h
  | case6 letter after hne c hletter ih =>
    obtain ⟨⟨units, after⟩, hrest, heq⟩ := Option.map_eq_some_iff.1 h
    cases heq
    obtain ⟨body, rfl, hbody⟩ := ih hrest
    exact ⟨'\\' :: letter :: body, rfl, .letter (simpleEscape?_eq_some_iff.1 hletter) hbody⟩
  | case7 => cases h
  | case8 => cases h
  | case9 c after hquote _ _ hslash hprintable ih =>
    obtain ⟨⟨units, after⟩, hrest, heq⟩ := Option.map_eq_some_iff.1 h
    cases heq
    obtain ⟨body, rfl, hbody⟩ := ih hrest
    exact ⟨c :: body, rfl, .plain ⟨hquote, hslash, Nat.not_lt.1 hprintable⟩ hbody⟩

/-! ### The text of a string -/

theorem toNat_not_surrogate (c : Char) :
    isHighSurrogate c.toNat = false ∧ isLowSurrogate c.toNat = false := by
  have hvalid : c.toNat < 0xD800 ∨ 0xDFFF < c.toNat ∧ c.toNat < 0x110000 := c.valid
  simp only [isHighSurrogate, isLowSurrogate, Bool.and_eq_false_iff, decide_eq_false_iff_not]
  omega

/-- A number that is the code of a character is the code of its character. -/
theorem toNat_ofNat_of_isValidChar {n : Nat} (h : n.isValidChar) : (Char.ofNat n).toNat = n := by
  rw [Char.ofNat, dif_pos h]
  rfl

/-- A code that is no half of a surrogate pair spells a character of its own. -/
theorem spell?_code {n : Nat} (hhigh : isHighSurrogate n = false) (hlow : isLowSurrogate n = false)
    (units : List StringUnit) :
    spell? (.code n :: units) = (spell? units).map (Char.ofNat n :: ·) := by
  cases units with
  | nil => simp [spell?, hhigh, hlow]
  | cons unit units =>
    cases unit with
    | char c => simp [spell?, hhigh, hlow]
    | code m => simp [spell?, hhigh, hlow]

/-- What is written for a character is read as units that spell the character. -/
theorem SpellsChar.exists_units {written : List Char} {c : Char} (h : SpellsChar written c) :
    ∃ units, (∀ {body rest}, IsBody body rest → IsBody (written ++ body) (units ++ rest)) ∧
      ∀ rest, spell? (units ++ rest) = (spell? rest).map (c :: ·) := by
  cases h with
  | plain h => exact ⟨[.char c], fun hrest => .plain h hrest, fun rest => rfl⟩
  | letter h => exact ⟨[.char c], fun hrest => .letter h hrest, fun rest => rfl⟩
  | code h =>
    obtain ⟨hhigh, hlow⟩ := toNat_not_surrogate c
    refine ⟨[.code c.toNat], fun hrest => .code h hrest, fun rest => ?_⟩
    rw [List.singleton_append, spell?_code hhigh hlow, Char.ofNat_toNat]
  | @pair digits digits' high low c hhigh hlow hfirst hsecond h =>
    refine ⟨[.code high, .code low], fun {body rest} hrest => ?_, fun rest => ?_⟩
    · have hbody := IsBody.code hhigh (.code hlow hrest)
      simpa using hbody
    · have hisHigh : isHighSurrogate high = true := by simp [isHighSurrogate, hfirst]
      have hisLow : isLowSurrogate low = true := by simp [isLowSurrogate, hsecond]
      simp [spell?, hisHigh, hisLow, ← h, Char.ofNat_toNat]

/-- What is written for a text is a body, and its units spell the text. -/
theorem SpellsText.exists_units {body text : List Char} (h : SpellsText body text) :
    ∃ units, IsBody body units ∧ spell? units = some text := by
  induction h with
  | nil => exact ⟨[], .nil, rfl⟩
  | cons hchar _ ih =>
    obtain ⟨units, hunits, hspell⟩ := hchar.exists_units
    obtain ⟨rest, hbody, htext⟩ := ih
    exact ⟨units ++ rest, hunits hbody, by rw [hspell, htext, Option.map_some]⟩

/-- A body whose first unit is a character starts with something that is written for it. -/
theorem IsBody.char_cons {body : List Char} {c : Char} {units : List StringUnit}
    (h : IsBody body (.char c :: units)) :
    ∃ written rest, body = written ++ rest ∧ SpellsChar written c ∧ IsBody rest units := by
  cases h with
  | plain h hrest => exact ⟨[c], _, rfl, .plain h, hrest⟩
  | @letter letter _ _ _ h hrest => exact ⟨['\\', letter], _, rfl, .letter h, hrest⟩

theorem IsBody.code_cons {body : List Char} {n : Nat} {units : List StringUnit}
    (h : IsBody body (.code n :: units)) :
    ∃ digits rest, body = '\\' :: 'u' :: digits ++ rest ∧ IsHexCode digits n ∧
      IsBody rest units := by
  cases h with
  | code h hrest => exact ⟨_, _, rfl, h, hrest⟩

/-- A code of its own is written for its character. -/
theorem IsHexCode.spellsChar {digits : List Char} {n : Nat} (h : IsHexCode digits n)
    (hhigh : isHighSurrogate n = false) (hlow : isLowSurrogate n = false) :
    SpellsChar ('\\' :: 'u' :: digits) (Char.ofNat n) := by
  have hlt := h.lt
  have hvalid : n.isValidChar := by
    simp only [isHighSurrogate, isLowSurrogate, Bool.and_eq_false_iff,
      decide_eq_false_iff_not] at hhigh hlow
    simp only [Nat.isValidChar]
    omega
  refine .code ?_
  rwa [toNat_ofNat_of_isValidChar hvalid]

/-- A body whose units spell a text is written for the text. -/
theorem IsBody.spellsText {body text : List Char} {units : List StringUnit} (h : IsBody body units)
    (htext : spell? units = some text) : SpellsText body text := by
  fun_induction spell? units generalizing body text with
  | case1 =>
    cases h
    cases htext
    exact .nil
  | case2 c units ih =>
    obtain ⟨written, rest, rfl, hchar, hrest⟩ := h.char_cons
    obtain ⟨text, hspell, rfl⟩ := Option.map_eq_some_iff.1 htext
    exact .cons hchar (ih hrest hspell)
  | case3 high low units hhigh hlow ih =>
    -- the two halves of a surrogate pair
    obtain ⟨digits, rest, rfl, hfirst, hrest⟩ := h.code_cons
    obtain ⟨digits', rest, rfl, hsecond, hrest⟩ := hrest.code_cons
    obtain ⟨text, hspell, rfl⟩ := Option.map_eq_some_iff.1 htext
    simp only [isHighSurrogate, isLowSurrogate, Bool.and_eq_true, decide_eq_true_eq] at hhigh hlow
    have hchar : SpellsChar ('\\' :: 'u' :: digits ++ '\\' :: 'u' :: digits')
        (Char.ofNat (0x10000 + (high - 0xD800) * 0x400 + (low - 0xDC00))) := by
      refine .pair hfirst hsecond hhigh hlow ?_
      refine toNat_ofNat_of_isValidChar ?_
      simp only [Nat.isValidChar]
      omega
    have hbody := SpellsText.cons hchar (ih hrest hspell)
    simpa using hbody
  | case4 => cases htext
  | case5 => cases htext
  | case6 high low units hhigh hlow ih =>
    obtain ⟨digits, rest, rfl, hcode, hrest⟩ := h.code_cons
    obtain ⟨text, hspell, rfl⟩ := Option.map_eq_some_iff.1 htext
    have hchar := hcode.spellsChar (by simpa using hhigh) (by simpa using hlow)
    exact .cons hchar (ih hrest hspell)
  | case7 => cases htext
  | case8 n units _ hnot ih =>
    obtain ⟨digits, rest, rfl, hcode, hrest⟩ := h.code_cons
    obtain ⟨text, hspell, rfl⟩ := Option.map_eq_some_iff.1 htext
    rw [Bool.or_eq_true, not_or] at hnot
    have hchar := hcode.spellsChar (by simpa using hnot.1) (by simpa using hnot.2)
    exact .cons hchar (ih hrest hspell)

/-! ## Numbers -/

/-- Decimal digits, at least one. -/
def IsDigits (text : List Char) : Prop := text ≠ [] ∧ ∀ c ∈ text, c.isDigit = true

/-- The whole part of a number: a zero, or digits that do not start with one. -/
def IsWhole (text : List Char) : Prop := text = ['0'] ∨ IsDigits text ∧ text.head? ≠ some '0'

/-- The fraction of a number: nothing, or a point and digits. -/
def IsFraction (text : List Char) : Prop := text = [] ∨ ∃ ds, text = '.' :: ds ∧ IsDigits ds

/-- The exponent of a number: nothing, or an `e` in either case, a sign if there is one, and
digits. -/
def IsExponent (text : List Char) : Prop :=
  text = [] ∨ ∃ e sign ds, text = e :: sign ++ ds ∧ (e = 'e' ∨ e = 'E') ∧
    (sign = [] ∨ sign = ['+'] ∨ sign = ['-']) ∧ IsDigits ds

/-- A number without a sign. -/
def IsUnsigned (text : List Char) : Prop :=
  ∃ whole fraction exponent, text = whole ++ fraction ++ exponent ∧ IsWhole whole ∧
    IsFraction fraction ∧ IsExponent exponent

/-- A number. -/
def IsNumeral (text : List Char) : Prop :=
  IsUnsigned text ∨ ∃ rest, text = '-' :: rest ∧ IsUnsigned rest

/-- A text that does not start with a digit. -/
def NoDigit (text : List Char) : Prop := ∀ c ∈ text.head?, c.isDigit = false

/-- A text that cannot go on with a number that stands before it. -/
def EndsNumber (text : List Char) : Prop :=
  ∀ c ∈ text.head?, c.isDigit = false ∧ c ≠ '.' ∧ c ≠ 'e' ∧ c ≠ 'E'

theorem EndsNumber.noDigit {text : List Char} (h : EndsNumber text) : NoDigit text :=
  fun c hc => (h c hc).1

/-! ### Reading numbers -/

theorem digits_append {ds rest : List Char} (h : ∀ c ∈ ds, c.isDigit = true)
    (hrest : NoDigit rest) : digits (ds ++ rest) = (ds, rest) := by
  have hnone : rest.takeWhile Char.isDigit = [] ∧ rest.dropWhile Char.isDigit = rest := by
    cases rest with
    | nil => exact ⟨rfl, rfl⟩
    | cons c rest =>
      have hc : c.isDigit = false := hrest c rfl
      simp [hc]
  rw [digits, List.takeWhile_append_of_pos h, List.dropWhile_append_of_pos h, hnone.1, hnone.2,
    List.append_nil]

theorem eq_append_of_digits {text ds rest : List Char} (h : digits text = (ds, rest)) :
    text = ds ++ rest ∧ ∀ c ∈ ds, c.isDigit = true := by
  obtain ⟨rfl, rfl⟩ := Prod.mk.inj h
  exact ⟨List.takeWhile_append_dropWhile.symm, List.all_eq_true.1 List.all_takeWhile⟩

theorem wholePart?_append {whole rest : List Char} (h : IsWhole whole) (hrest : NoDigit rest) :
    wholePart? (whole ++ rest) = some (whole, rest) := by
  rcases h with rfl | ⟨⟨hne, hdigits⟩, hzero⟩
  · cases rest with
    | nil => rfl
    | cons c rest =>
      have hc : c.isDigit = false := hrest c rfl
      simp [wholePart?, hc]
  · obtain ⟨d, ds, rfl⟩ := List.exists_cons_of_ne_nil hne
    have hd : d ≠ '0' := by simpa using hzero
    rw [wholePart?.eq_def]
    split
    · next heq => exact absurd (List.cons.inj heq).1 hd
    · next heq => exact absurd (List.cons.inj heq).1 hd
    · rw [digits_append hdigits hrest]

theorem eq_append_of_wholePart? {text whole rest : List Char}
    (h : wholePart? text = some (whole, rest)) : text = whole ++ rest ∧ IsWhole whole := by
  rw [wholePart?.eq_def] at h
  split at h
  · split at h
    · cases h
    · cases h
      exact ⟨rfl, .inl rfl⟩
  · cases h
    exact ⟨rfl, .inl rfl⟩
  · next hzero hlone =>
    split at h
    · cases h
    · next ds rest' hne hread =>
      cases h
      obtain ⟨htext, hdigits⟩ := eq_append_of_digits hread
      refine ⟨htext, .inr ⟨⟨fun hnil => hne hnil, hdigits⟩, fun hhead => ?_⟩⟩
      -- a zero in front would have been read alone
      obtain ⟨more, rfl⟩ := List.head?_eq_some_iff.1 hhead
      cases hbehind : more ++ rest with
      | nil => exact hlone (by rw [htext, List.cons_append, hbehind])
      | cons c tail => exact hzero c tail (by rw [htext, List.cons_append, hbehind])

theorem fraction?_append {fraction rest : List Char} (h : IsFraction fraction)
    (hdigit : NoDigit rest) (hpoint : rest.head? ≠ some '.') :
    fraction? (fraction ++ rest) = some (fraction, rest) := by
  rcases h with rfl | ⟨ds, rfl, hne, hdigits⟩
  · rw [List.nil_append, fraction?.eq_def]
    split
    · exact absurd rfl hpoint
    · rfl
  · rw [List.cons_append, fraction?, digits_append hdigits hdigit]
    obtain ⟨d, ds, rfl⟩ := List.exists_cons_of_ne_nil hne
    rfl

theorem eq_append_of_fraction? {text fraction rest : List Char}
    (h : fraction? text = some (fraction, rest)) :
    text = fraction ++ rest ∧ IsFraction fraction := by
  rw [fraction?.eq_def] at h
  split at h
  · split at h
    · cases h
    · next hne hread =>
      cases h
      obtain ⟨htext, hdigits⟩ := eq_append_of_digits hread
      exact ⟨by rw [htext]; rfl, .inr ⟨_, rfl, fun hnil => hne hnil, hdigits⟩⟩
  · cases h
    exact ⟨rfl, .inl rfl⟩

theorem exponentSign_append {sign rest : List Char}
    (h : sign = [] ∨ sign = ['+'] ∨ sign = ['-'])
    (hrest : ∃ d ds, rest = d :: ds ∧ d.isDigit = true) :
    exponentSign (sign ++ rest) = (sign, rest) := by
  obtain ⟨d, ds, rfl, hd⟩ := hrest
  rcases h with rfl | rfl | rfl
  · rw [List.nil_append, exponentSign.eq_def]
    split
    · next heq =>
      rw [(List.cons.inj heq).1] at hd
      cases hd
    · next heq =>
      rw [(List.cons.inj heq).1] at hd
      cases hd
    · rfl
  · rfl
  · rfl

theorem eq_append_of_exponentSign {text sign rest : List Char}
    (h : exponentSign text = (sign, rest)) :
    text = sign ++ rest ∧ (sign = [] ∨ sign = ['+'] ∨ sign = ['-']) := by
  rw [exponentSign.eq_def] at h
  split at h <;> cases h <;> simp

theorem exponent?_append {exponent rest : List Char} (h : IsExponent exponent)
    (hrest : EndsNumber rest) : exponent? (exponent ++ rest) = some (exponent, rest) := by
  rcases h with rfl | ⟨e, sign, ds, rfl, he, hsign, hne, hdigits⟩
  · cases rest with
    | nil => rfl
    | cons c rest =>
      obtain ⟨-, -, hlower, hupper⟩ := hrest c rfl
      simp [exponent?, hlower, hupper]
  · have hstart : ∃ d tail, ds ++ rest = d :: tail ∧ d.isDigit = true := by
      obtain ⟨d, ds, rfl⟩ := List.exists_cons_of_ne_nil hne
      exact ⟨d, ds ++ rest, rfl, hdigits d List.mem_cons_self⟩
    have htext : (e :: sign ++ ds) ++ rest = e :: (sign ++ (ds ++ rest)) := by simp
    rw [htext, exponent?, if_pos he, exponentSign_append hsign hstart]
    simp only [digits_append hdigits hrest.noDigit]

theorem eq_append_of_exponent? {text exponent rest : List Char}
    (h : exponent? text = some (exponent, rest)) :
    text = exponent ++ rest ∧ IsExponent exponent := by
  cases text with
  | nil =>
    cases h
    exact ⟨rfl, .inl rfl⟩
  | cons e text =>
    rw [exponent?] at h
    split at h
    next he =>
      generalize hparts : exponentSign text = parts at h
      obtain ⟨sign, unsigned⟩ := parts
      dsimp only at h
      split at h
      · cases h
      next ds after hne hread =>
        cases h
        obtain ⟨rfl, hsign⟩ := eq_append_of_exponentSign hparts
        obtain ⟨rfl, hdigits⟩ := eq_append_of_digits hread
        exact ⟨by simp, .inr ⟨e, sign, _, rfl, he, hsign, fun hnil => hne hnil, hdigits⟩⟩
    · cases h
      exact ⟨rfl, .inl rfl⟩

theorem unsigned?_append {text rest : List Char} (h : IsUnsigned text) (hrest : EndsNumber rest) :
    unsigned? (text ++ rest) = some (text, rest) := by
  obtain ⟨whole, fraction, exponent, rfl, hwhole, hfraction, hexponent⟩ := h
  -- an exponent starts with neither a digit nor a point, and a fraction with no digit
  have hafter : NoDigit (exponent ++ rest) ∧ (exponent ++ rest).head? ≠ some '.' := by
    rcases hexponent with rfl | ⟨e, sign, ds, rfl, rfl | rfl, -⟩
    · exact ⟨hrest.noDigit, fun hpoint => (hrest _ hpoint).2.1 rfl⟩
    · exact ⟨by simp [NoDigit], by simp⟩
    · exact ⟨by simp [NoDigit], by simp⟩
  have hbehind : NoDigit (fraction ++ (exponent ++ rest)) := by
    rcases hfraction with rfl | ⟨ds, rfl, -⟩
    · exact hafter.1
    · simp [NoDigit]
  rw [unsigned?, List.append_assoc, List.append_assoc, wholePart?_append hwhole hbehind]
  simp [fraction?_append hfraction hafter.1 hafter.2, exponent?_append hexponent hrest]

theorem eq_append_of_unsigned? {text number rest : List Char}
    (h : unsigned? text = some (number, rest)) : text = number ++ rest ∧ IsUnsigned number := by
  simp only [unsigned?, Option.bind_eq_bind, Option.bind_eq_some_iff, Prod.exists,
    Option.pure_def, Option.some.injEq, Prod.mk.injEq] at h
  obtain ⟨whole, _, hwhole, fraction, _, hfraction, exponent, _, hexponent, rfl, rfl⟩ := h
  obtain ⟨rfl, hisWhole⟩ := eq_append_of_wholePart? hwhole
  obtain ⟨rfl, hisFraction⟩ := eq_append_of_fraction? hfraction
  obtain ⟨rfl, hisExponent⟩ := eq_append_of_exponent? hexponent
  exact ⟨by simp, whole, fraction, exponent, rfl, hisWhole, hisFraction, hisExponent⟩

/-- An unsigned number starts with a digit. -/
theorem IsUnsigned.exists_cons {text : List Char} (h : IsUnsigned text) :
    ∃ d rest, text = d :: rest ∧ d.isDigit = true := by
  obtain ⟨whole, fraction, exponent, rfl, rfl | ⟨⟨hne, hdigits⟩, -⟩, -, -⟩ := h
  · exact ⟨'0', fraction ++ exponent, by simp, rfl⟩
  · obtain ⟨d, ds, rfl⟩ := List.exists_cons_of_ne_nil hne
    exact ⟨d, ds ++ fraction ++ exponent, by simp, hdigits d List.mem_cons_self⟩

/-- A number is read up to where it ends. -/
theorem numeral?_append {text rest : List Char} (h : IsNumeral text) (hrest : EndsNumber rest) :
    numeral? (text ++ rest) = some (text, rest) := by
  rcases h with h | ⟨text, rfl, h⟩
  · obtain ⟨d, ds, htext, hd⟩ := h.exists_cons
    rw [numeral?.eq_def]
    split
    · next heq =>
      rw [htext] at heq
      rw [(List.cons.inj heq).1] at hd
      cases hd
    · exact unsigned?_append h hrest
  · rw [List.cons_append, numeral?, unsigned?_append h hrest]
    rfl

theorem eq_append_of_numeral? {text number rest : List Char}
    (h : numeral? text = some (number, rest)) : text = number ++ rest ∧ IsNumeral number := by
  rw [numeral?.eq_def] at h
  split at h
  · obtain ⟨⟨unsigned, after⟩, hread, heq⟩ := Option.map_eq_some_iff.1 h
    cases heq
    obtain ⟨rfl, hunsigned⟩ := eq_append_of_unsigned? hread
    exact ⟨rfl, .inr ⟨unsigned, rfl, hunsigned⟩⟩
  · obtain ⟨htext, hunsigned⟩ := eq_append_of_unsigned? h
    exact ⟨htext, .inl hunsigned⟩

end Caretaker.Json
