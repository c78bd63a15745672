import Mathlib.Data.List.Chain
import Caretaker.Proofs.Spellings

/-!
# How JSON texts are made up of tokens

A JSON text is made up of tokens with blanks between them.  It is cut into the tokens that it was
made up of, for nothing that can be written for one token is the start of something longer that
could stand there; a number alone has to end where it does, and so no number may follow it directly.

Main definitions:

- `Lexeme`: what may be written for a token.
- `Lexed`: a text that is made up of tokens, with blanks around them.

Main statements:

- `Lexeme.next?`, `exists_lexeme`: reading finds what was written for a token, and nothing else.
- `Lexed.scan_append`, `lexed_of_scan`: a text is cut into the tokens it is made up of, and whatever
  is cut into tokens is made up of them.
-/

namespace Caretaker.Json

/-! ## Tokens -/

/-- What may be written for a token. -/
inductive Lexeme : List Char → Token → Prop where
  | openBrace : Lexeme ['{'] .openBrace
  | closeBrace : Lexeme ['}'] .closeBrace
  | openBracket : Lexeme ['['] .openBracket
  | closeBracket : Lexeme [']'] .closeBracket
  | comma : Lexeme [','] .comma
  | colon : Lexeme [':'] .colon
  | null : Lexeme ['n', 'u', 'l', 'l'] .null
  | yes : Lexeme ['t', 'r', 'u', 'e'] (.bool true)
  | no : Lexeme ['f', 'a', 'l', 's', 'e'] (.bool false)
  | number {text : List Char} (h : IsNumeral text) : Lexeme text (.number (String.ofList text))
  | text {body text : List Char} (h : SpellsText body text) :
      Lexeme ('"' :: body ++ ['"']) (.string (some (String.ofList text)))
  /-- A string with half of a surrogate pair in it, which spells no text. -/
  | noText {body : List Char} {units : List StringUnit} (h : IsBody body units)
      (hnone : ∀ text, ¬ SpellsText body text) : Lexeme ('"' :: body ++ ['"']) (.string none)

/-- Spaces, tabs and ends of lines, or nothing. -/
def Blank (text : List Char) : Prop := ∀ c ∈ text, c = ' ' ∨ c = '\n' ∨ c = '\r' ∨ c = '\t'

/-- A text that is made up of tokens, with blanks before and behind them. -/
inductive Lexed : List Char → List Token → Prop where
  | nil {blanks : List Char} (h : Blank blanks) : Lexed blanks []
  | cons {blanks lexeme rest : List Char} {token : Token} {tokens : List Token}
      (hblanks : Blank blanks) (hlexeme : Lexeme lexeme token) (hrest : Lexed rest tokens) :
      Lexed (blanks ++ lexeme ++ rest) (token :: tokens)

theorem blank_nil : Blank [] := fun _ hc => absurd hc List.not_mem_nil

/-- A token with no blank in front of it. -/
theorem Lexed.token {lexeme rest : List Char} {token : Token} {tokens : List Token}
    (h : Lexeme lexeme token) (hrest : Lexed rest tokens) :
    Lexed (lexeme ++ rest) (token :: tokens) :=
  .cons blank_nil h hrest

/-- Whether a token is a number. -/
def Token.IsNumber : Token → Prop
  | .number _ => True
  | _ => False

/-! ### Reading tokens -/

/-- A text that starts as a number does is read as one. -/
theorem next?_number {c : Char} (h : c = '-' ∨ c.isDigit = true) (rest : List Char) :
    Token.next? (c :: rest) = (numeral? (c :: rest)).map fun (spelling, rest) =>
      (.number (String.ofList spelling), rest) := by
  have hne {d : Char} (hd : d ≠ '-' ∧ d.isDigit = false) : c ≠ d := by
    rintro rfl
    rcases h with h | h
    · exact hd.1 h
    · rw [h] at hd
      cases hd.2
  rw [Token.next?.eq_def]
  split
  case h_1 heq => cases heq
  case h_12 => rfl
  all_goals
    next heq =>
    have hc := (List.cons.inj heq).1
    exact absurd hc (hne (by decide))

theorem IsNumeral.exists_cons {text : List Char} (h : IsNumeral text) :
    ∃ c rest, text = c :: rest ∧ (c = '-' ∨ c.isDigit = true) := by
  rcases h with h | ⟨rest, rfl, -⟩
  · obtain ⟨d, rest, rfl, hd⟩ := h.exists_cons
    exact ⟨d, rest, rfl, .inr hd⟩
  · exact ⟨'-', rest, rfl, .inl rfl⟩

/-- What was written for a token is read as that token; behind a number there has to be something
that cannot go on with it. -/
theorem Lexeme.next? {lexeme rest : List Char} {token : Token} (h : Lexeme lexeme token)
    (hrest : token.IsNumber → EndsNumber rest) :
    Token.next? (lexeme ++ rest) = some (token, rest) := by
  cases h with
  | number hnumeral =>
    obtain ⟨c, tail, rfl, hc⟩ := hnumeral.exists_cons
    have hread := numeral?_append hnumeral (hrest trivial)
    rw [List.cons_append] at hread ⊢
    rw [next?_number hc, hread]
    rfl
  | @text body text hspells =>
    obtain ⟨units, hbody, htext⟩ := hspells.exists_units
    have hread : ('"' :: body ++ ['"']) ++ rest = '"' :: (body ++ '"' :: rest) := by simp
    rw [hread, Token.next?, hbody.stringUnits?]
    simp only [Option.map_some, htext]
  | @noText body units hbody hnone =>
    have hread : ('"' :: body ++ ['"']) ++ rest = '"' :: (body ++ '"' :: rest) := by simp
    have htext : spell? units = none := by
      rw [Option.eq_none_iff_forall_ne_some]
      exact fun text htext => hnone text (hbody.spellsText htext)
    rw [hread, Token.next?, hbody.stringUnits?]
    simp only [Option.map_some, htext, Option.map_none]
  | _ => rfl

/-- Whatever is read as a token was written for it. -/
theorem exists_lexeme {text rest : List Char} {token : Token}
    (h : Token.next? text = some (token, rest)) :
    ∃ lexeme, text = lexeme ++ rest ∧ Lexeme lexeme token := by
  rw [Token.next?.eq_def] at h
  split at h
  · cases h
  · cases h
    exact ⟨_, rfl, .openBrace⟩
  · cases h
    exact ⟨_, rfl, .closeBrace⟩
  · cases h
    exact ⟨_, rfl, .openBracket⟩
  · cases h
    exact ⟨_, rfl, .closeBracket⟩
  · cases h
    exact ⟨_, rfl, .comma⟩
  · cases h
    exact ⟨_, rfl, .colon⟩
  · cases h
    exact ⟨_, rfl, .null⟩
  · cases h
    exact ⟨_, rfl, .yes⟩
  · cases h
    exact ⟨_, rfl, .no⟩
  · obtain ⟨⟨units, after⟩, hunits, heq⟩ := Option.map_eq_some_iff.1 h
    cases heq
    obtain ⟨body, rfl, hbody⟩ := exists_isBody hunits
    refine ⟨'"' :: body ++ ['"'], by simp, ?_⟩
    cases htext : spell? units with
    | some text => exact .text (hbody.spellsText htext)
    | none =>
      refine .noText hbody fun text hspells => ?_
      -- the body has one list of units, and these spell nothing
      obtain ⟨units', hbody', htext'⟩ := hspells.exists_units
      have hsame := (hbody.stringUnits? []).symm.trans (hbody'.stringUnits? [])
      obtain ⟨rfl, -⟩ := Prod.mk.inj (Option.some.inj hsame)
      rw [htext] at htext'
      cases htext'
  · obtain ⟨⟨spelling, after⟩, hread, heq⟩ := Option.map_eq_some_iff.1 h
    cases heq
    obtain ⟨rfl, hnumeral⟩ := eq_append_of_numeral? hread
    exact ⟨spelling, rfl, .number hnumeral⟩

/-- What is written for a token starts with no blank, and cannot go on with a number unless it is
one itself. -/
theorem Lexeme.exists_cons {lexeme : List Char} {token : Token} (h : Lexeme lexeme token) :
    ∃ c rest, lexeme = c :: rest ∧ isBlank c = false ∧
      (¬ token.IsNumber → c.isDigit = false ∧ c ≠ '.' ∧ c ≠ 'e' ∧ c ≠ 'E') := by
  cases h with
  | number hnumeral =>
    obtain ⟨c, rest, rfl, hc⟩ := hnumeral.exists_cons
    refine ⟨c, rest, rfl, ?_, fun hnot => absurd trivial hnot⟩
    rw [← Bool.not_eq_true]
    intro hblank
    simp only [isBlank, Bool.or_eq_true, beq_iff_eq] at hblank
    rcases hblank with ((rfl | rfl) | rfl) | rfl <;> simp at hc
  | _ => exact ⟨_, _, rfl, by decide, fun _ => by decide⟩

/-! ### Cutting a text into tokens -/

theorem isBlank_iff {c : Char} :
    isBlank c = true ↔ c = ' ' ∨ c = '\n' ∨ c = '\r' ∨ c = '\t' := by
  simp [isBlank, or_assoc]

theorem dropWhile_blank {blanks : List Char} (h : Blank blanks) (rest : List Char) :
    (blanks ++ rest).dropWhile isBlank = rest.dropWhile isBlank :=
  List.dropWhile_append_of_pos fun c hc => isBlank_iff.2 (h c hc)

theorem Lexeme.dropWhile {lexeme : List Char} {token : Token} (h : Lexeme lexeme token)
    (rest : List Char) : (lexeme ++ rest).dropWhile isBlank = lexeme ++ rest := by
  obtain ⟨c, tail, rfl, hc, -⟩ := h.exists_cons
  simp [hc]

theorem length_lt_of_next? {text rest : List Char} {token : Token}
    (h : Token.next? text = some (token, rest)) : rest.length < text.length := by
  obtain ⟨lexeme, rfl, hlexeme⟩ := exists_lexeme h
  obtain ⟨c, tail, rfl, -, -⟩ := hlexeme.exists_cons
  simp only [List.cons_append, List.length_cons, List.length_append]
  omega

theorem scanWithin_of_none {text : List Char} (h : Token.next? (text.dropWhile isBlank) = none)
    (fuel : Nat) (read : List Token) :
    Token.scanWithin fuel read text = (read.reverse, text.dropWhile isBlank) := by
  cases fuel <;> simp [Token.scanWithin, h]

/-- The bound on the number of tokens does not matter, when it is the length of the text or more. -/
theorem scanWithin_eq {fuel : Nat} {text : List Char} (h : text.length ≤ fuel)
    (read : List Token) :
    Token.scanWithin fuel read text =
      (read.reverse ++ (Token.scan text).1, (Token.scan text).2) := by
  induction fuel using Nat.strongRecOn generalizing text read with
  | ind fuel ih =>
    unfold Token.scan
    cases hnext : Token.next? (text.dropWhile isBlank) with
    | none => simp [scanWithin_of_none hnext]
    | some found =>
      obtain ⟨token, rest⟩ := found
      have hshorter := length_lt_of_next? hnext
      have hdrop := (List.dropWhile_suffix isBlank : text.dropWhile isBlank <:+ text).length_le
      obtain ⟨length, hlength⟩ : ∃ length, text.length = length + 1 :=
        Nat.exists_eq_succ_of_ne_zero (by omega)
      obtain ⟨fuel', rfl⟩ : ∃ fuel', fuel = fuel' + 1 :=
        Nat.exists_eq_succ_of_ne_zero (by omega)
      rw [hlength, Token.scanWithin, Token.scanWithin, hnext]
      dsimp only
      rw [ih fuel' (by omega) (by omega), ih length (by omega) (by omega)]
      simp

theorem scan_of_none {text : List Char} (h : Token.next? (text.dropWhile isBlank) = none) :
    Token.scan text = ([], text.dropWhile isBlank) := scanWithin_of_none h _ _

/-- The first token of a text stands in front of the others. -/
theorem scan_of_some {text rest : List Char} {token : Token}
    (h : Token.next? (text.dropWhile isBlank) = some (token, rest)) :
    Token.scan text = (token :: (Token.scan rest).1, (Token.scan rest).2) := by
  have hshorter := length_lt_of_next? h
  have hdrop := (List.dropWhile_suffix isBlank : text.dropWhile isBlank <:+ text).length_le
  obtain ⟨length, hlength⟩ : ∃ length, text.length = length + 1 :=
    Nat.exists_eq_succ_of_ne_zero (by omega)
  rw [Token.scan, hlength, Token.scanWithin, h]
  exact scanWithin_eq (by omega) [token]

/-- Blanks at the front of a text do not matter. -/
theorem scan_blank {blanks : List Char} (h : Blank blanks) (rest : List Char) :
    Token.scan (blanks ++ rest) = Token.scan rest := by
  have hdrop := dropWhile_blank h rest
  cases hnext : Token.next? (rest.dropWhile isBlank) with
  | none => rw [scan_of_none hnext, scan_of_none (hdrop ▸ hnext), hdrop]
  | some found => rw [scan_of_some hnext, scan_of_some (hdrop ▸ hnext)]

/-- Whether no number stands right behind another one. -/
def Apart (tokens : List Token) : Prop :=
  tokens.IsChain fun first second => first.IsNumber → ¬ second.IsNumber

/-- A number ends where a text starts that is made up of tokens, unless the first one is a number
too. -/
theorem Lexed.endsNumber {text more : List Char} {tokens : List Token} (h : Lexed text tokens)
    (hfirst : ∀ token ∈ tokens.head?, ¬ token.IsNumber) (hmore : tokens = [] → EndsNumber more) :
    EndsNumber (text ++ more) := by
  have hblank {blanks after : List Char} (hblanks : Blank blanks) (hafter : EndsNumber after) :
      EndsNumber (blanks ++ after) := by
    cases blanks with
    | nil => exact hafter
    | cons c blanks =>
      rintro _ ⟨⟩
      rcases hblanks c List.mem_cons_self with rfl | rfl | rfl | rfl <;> decide
  cases h with
  | nil hblanks => exact hblank hblanks (hmore rfl)
  | cons hblanks hlexeme _ =>
    rw [List.append_assoc, List.append_assoc]
    refine hblank hblanks ?_
    obtain ⟨c, tail, rfl, -, hc⟩ := hlexeme.exists_cons
    rintro _ ⟨⟩
    exact hc (hfirst _ rfl)

/-- A text is cut into the tokens it is made up of, whatever stands behind it; when the last of them
is a number, that must not go on. -/
theorem Lexed.scan_append {text more : List Char} {tokens : List Token} (h : Lexed text tokens)
    (hapart : Apart tokens) (hmore : ∀ token ∈ tokens.getLast?, token.IsNumber → EndsNumber more) :
    Token.scan (text ++ more) =
      (tokens ++ (Token.scan more).1, (Token.scan more).2) := by
  induction h with
  | nil hblanks => rw [scan_blank hblanks, List.nil_append]
  | @cons blanks lexeme rest token tokens hblanks hlexeme hrest ih =>
    obtain ⟨hfirst, hapart⟩ := List.isChain_cons.1 hapart
    have hlast : ∀ last ∈ tokens.getLast?, last.IsNumber → EndsNumber more := by
      intro last hlast
      refine hmore last ?_
      rw [Option.mem_def] at hlast ⊢
      rw [List.getLast?_cons, hlast]
      rfl
    have hends : token.IsNumber → EndsNumber (rest ++ more) := fun hnumber =>
      hrest.endsNumber (fun next hnext => hfirst next hnext hnumber) fun hnil =>
        hmore token (by rw [hnil]; rfl) hnumber
    have htext : blanks ++ lexeme ++ rest ++ more = blanks ++ (lexeme ++ (rest ++ more)) := by simp
    have hnext := hlexeme.next? hends
    rw [← hlexeme.dropWhile] at hnext
    rw [htext, scan_blank hblanks, scan_of_some hnext, ih hapart hlast, List.cons_append]

theorem blank_takeWhile (text : List Char) : Blank (text.takeWhile isBlank) := fun c hc =>
  isBlank_iff.1 (List.all_eq_true.1 List.all_takeWhile c hc)

/-- A text that is cut into tokens with nothing left is made up of them. -/
theorem lexed_of_scan {text : List Char} {tokens : List Token}
    (h : Token.scan text = (tokens, [])) : Lexed text tokens := by
  induction tokens generalizing text with
  | nil =>
    have hsplit : text.takeWhile isBlank ++ text.dropWhile isBlank = text :=
      List.takeWhile_append_dropWhile
    cases hnext : Token.next? (text.dropWhile isBlank) with
    | none =>
      rw [scan_of_none hnext] at h
      rw [(Prod.mk.inj h).2, List.append_nil] at hsplit
      exact hsplit ▸ .nil (blank_takeWhile text)
    | some found =>
      rw [scan_of_some hnext] at h
      cases (Prod.mk.inj h).1
  | cons token tokens ih =>
    have hsplit : text.takeWhile isBlank ++ text.dropWhile isBlank = text :=
      List.takeWhile_append_dropWhile
    cases hnext : Token.next? (text.dropWhile isBlank) with
    | none =>
      rw [scan_of_none hnext] at h
      cases (Prod.mk.inj h).1
    | some found =>
      obtain ⟨first, rest⟩ := found
      rw [scan_of_some hnext] at h
      obtain ⟨hcons, hleft⟩ := Prod.mk.inj h
      obtain ⟨rfl, hrest⟩ := List.cons.inj hcons
      obtain ⟨lexeme, heq, hlexeme⟩ := exists_lexeme hnext
      rw [heq, ← List.append_assoc] at hsplit
      exact hsplit ▸ .cons (blank_takeWhile text) hlexeme (ih (Prod.ext hrest hleft))

end Caretaker.Json
