import Caretaker.Proofs.Grammar

/-!
# Reading JSON that was written

A value is written in its compact form and read back: the compact form is one of the texts of the
value, with no blanks between its tokens and with the one way to write a string.

Numbers keep whatever spelling they are given, so values with numbers are left aside.

Main definitions:

- `Numberless`: whether there is no number in a value.
- `spelled`: a value as it is read.

Main statements:

- `spellsText_escaped`: the compact form of a string is written for its text.
- `lexed_write`: the compact form of a value is made up of the tokens of the value.
- `read?_write`: what was written is read back.
-/

namespace Caretaker.Json

/-! ## Strings -/

/-- Two digits behind two zeros are the code that they were written for. -/
theorem isHexCode_hexDigits {n : Nat} (h : n < 256) :
    IsHexCode ['0', '0', hexDigit (n / 16), hexDigit (n % 16)] n := by
  have hdigit : ∀ n < 16, hexDigit n = n.digitChar := by decide
  have hzero : IsHexDigit '0' 0 := ⟨by decide, .inl rfl⟩
  have hhigh : IsHexDigit (hexDigit (n / 16)) (n / 16) := ⟨by omega, .inl (hdigit _ (by omega))⟩
  have hlow : IsHexDigit (hexDigit (n % 16)) (n % 16) := ⟨by omega, .inl (hdigit _ (by omega))⟩
  have hcode := IsHexCode.digits hzero hzero hhigh hlow
  have hn : 0 * 0x1000 + 0 * 0x100 + n / 16 * 0x10 + n % 16 = n := by omega
  rw [hn] at hcode
  exact hcode

/-- Every character is written in one of the ways there are to write it. -/
theorem spellsChar_escapeChar (c : Char) : SpellsChar (escapeChar c) c := by
  have hletter {letter c' : Char} (hc : c = c') (h : (letter, c') ∈ letterEscapes) :
      SpellsChar ['\\', letter] c := hc ▸ .letter h
  unfold escapeChar
  split
  · next hc => exact hletter hc (by decide)
  split
  · next hc => exact hletter hc (by decide)
  split
  · next hc => exact hletter hc (by decide)
  split
  · next hc => exact hletter hc (by decide)
  split
  · next hc => exact hletter hc (by decide)
  split
  · next hc => exact hletter hc (by decide)
  split
  · next hc => exact hletter hc (by decide)
  split
  · -- a control character that has no letter of its own
    exact .code (isHexCode_hexDigits (by omega))
  · next hquote hslash _ _ _ _ _ hprintable =>
    exact .plain ⟨hquote, hslash, Nat.not_lt.1 hprintable⟩

theorem spellsText_escaped (text : List Char) : SpellsText (text.flatMap escapeChar) text := by
  induction text with
  | nil => exact .nil
  | cons c text ih => exact .cons (spellsChar_escapeChar c) ih

/-- A text that was quoted is written for a string of that text. -/
theorem lexeme_quote (text : String) : Lexeme (quote text.toList) (.string (some text)) := by
  have hlexeme := Lexeme.text (spellsText_escaped text.toList)
  rwa [String.ofList_toList] at hlexeme

/-! ## The compact form -/

mutual

/-- Whether there is no number in a value. -/
def Numberless : Json → Prop
  | .number _ => False
  | .array items => NumberlessItems items
  | .object members => NumberlessMembers members
  | _ => True

@[inherit_doc Numberless]
def NumberlessItems : List Json → Prop
  | [] => True
  | item :: items => Numberless item ∧ NumberlessItems items

@[inherit_doc Numberless]
def NumberlessMembers : List (String × Json) → Prop
  | [] => True
  | (_, value) :: members => Numberless value ∧ NumberlessMembers members

end

mutual

/-- A value as it is read: each of its strings spells a text. -/
def spelled : Json → Spelled
  | .null => .null
  | .bool value => .bool value
  | .number spelling => .number spelling
  | .string text => .string (some text)
  | .array items => .array (spelledItems items)
  | .object members => .object (spelledMembers members)

@[inherit_doc spelled]
def spelledItems : List Json → List Spelled
  | [] => []
  | item :: items => spelled item :: spelledItems items

@[inherit_doc spelled]
def spelledMembers : List (String × Json) → List (Option String × Spelled)
  | [] => []
  | (key, value) :: members => (some key, spelled value) :: spelledMembers members

end

mutual

/-- The compact form of a value is made up of the tokens of the value, whatever stands behind it. -/
theorem lexed_write : ∀ value : Json, Numberless value → ∀ {rest : List Char} {ts : List Token},
    Lexed rest ts → Lexed (write value ++ rest) (tokens (spelled value) ++ ts)
  | .null, _, _, _, hrest => .token .null hrest
  | .bool true, _, _, _, hrest => .token .yes hrest
  | .bool false, _, _, _, hrest => .token .no hrest
  | .number _, h, _, _, _ => h.elim
  | .string text, _, _, _, hrest => .token (lexeme_quote text) hrest
  | .array items, h, rest, ts, hrest => by
    have hitems := lexed_writeItems items h (.token .closeBracket hrest)
    have hlexed := Lexed.token .openBracket hitems
    simpa [write, tokens, spelled] using hlexed
  | .object members, h, rest, ts, hrest => by
    have hmembers := lexed_writeMembers members h (.token .closeBrace hrest)
    have hlexed := Lexed.token .openBrace hmembers
    simpa [write, tokens, spelled] using hlexed

theorem lexed_writeItems : ∀ items : List Json, NumberlessItems items →
    ∀ {rest : List Char} {ts : List Token}, Lexed rest ts →
    Lexed (writeItems items ++ rest) (itemTokens (spelledItems items) ++ ts)
  | [], _, _, _, hrest => hrest
  | [item], h, _, _, hrest => lexed_write item h.1 hrest
  | item :: next :: items, h, rest, ts, hrest => by
    have hitems := lexed_writeItems (next :: items) h.2 hrest
    have hlexed := lexed_write item h.1 (.token .comma hitems)
    simpa [writeItems, itemTokens, spelledItems] using hlexed

theorem lexed_writeMembers : ∀ members : List (String × Json), NumberlessMembers members →
    ∀ {rest : List Char} {ts : List Token}, Lexed rest ts →
    Lexed (writeMembers members ++ rest) (memberTokens (spelledMembers members) ++ ts)
  | [], _, _, _, hrest => hrest
  | [(key, value)], h, rest, ts, hrest => by
    have hvalue := lexed_write value h.1 hrest
    have hlexed := Lexed.token (lexeme_quote key) (.token .colon hvalue)
    simpa [writeMembers, memberTokens, spelledMembers] using hlexed
  | (key, value) :: next :: members, h, rest, ts, hrest => by
    have hmembers := lexed_writeMembers (next :: members) h.2 hrest
    have hvalue := lexed_write value h.1 (.token .comma hmembers)
    have hlexed := Lexed.token (lexeme_quote key) (.token .colon hvalue)
    simpa [writeMembers, memberTokens, spelledMembers] using hlexed

end

/-! ## Reading back -/

/-- What was written is read back. -/
theorem read?_write {value : Json} (h : Numberless value) :
    read? (write value) = some (spelled value) := by
  have hlexed := lexed_write value h (.nil blank_nil)
  rw [List.append_nil, List.append_nil] at hlexed
  exact read?_eq_some_iff.2 hlexed

end Caretaker.Json
