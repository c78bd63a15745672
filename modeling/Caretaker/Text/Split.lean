/-!
# Splitting text at a pattern

Texts are lists of characters here.  A pattern is found by its first or its last occurrence, and
replacing a pattern replaces its leftmost occurrences that do not overlap.
-/

namespace Caretaker.Text

/-- What is left of `text` after `pattern`, when `text` starts with it. -/
def dropPattern? : (pattern text : List Char) → Option (List Char)
  | [], text => some text
  | _ :: _, [] => none
  | p :: pattern, c :: text => if p = c then dropPattern? pattern text else none

/-- The text before and after the last occurrence of `pattern`. -/
def splitLast? (pattern : List Char) : List Char → Option (List Char × List Char)
  | [] => (dropPattern? pattern []).map fun rest => ([], rest)
  | c :: text =>
    match splitLast? pattern text with
    | some (before, after) => some (c :: before, after)
    | none => (dropPattern? pattern (c :: text)).map fun rest => ([], rest)

/-- The text before and after the first occurrence of `pattern`. -/
def splitFirst? (pattern : List Char) : List Char → Option (List Char × List Char)
  | [] => (dropPattern? pattern []).map fun rest => ([], rest)
  | c :: text =>
    match dropPattern? pattern (c :: text) with
    | some rest => some ([], rest)
    | none => (splitFirst? pattern text).map fun (before, after) => (c :: before, after)

/-- The pieces of a text between the occurrences of a separator; one piece when there is none. -/
def splitOn (separator : Char) : List Char → List (List Char)
  | [] => [[]]
  | c :: text =>
    if c = separator then [] :: splitOn separator text
    else
      match splitOn separator text with
      | [] => [[c]]
      | piece :: pieces => (c :: piece) :: pieces

/-- The part of a text after the last `separator`, the whole text when there is none. -/
def afterLast (separator : Char) (text : List Char) : List Char :=
  (splitOn separator text).getLast?.getD []

/-- `text` with every leftmost, non-overlapping occurrence of `pattern` replaced. -/
def replaceAll (pattern replacement text : List Char) : List Char :=
  go 0 text
where
  /-- `skip` characters of an occurrence that was already replaced are still to be passed over. -/
  go : (skip : Nat) → List Char → List Char
    | _, [] => []
    | skip + 1, _ :: rest => go skip rest
    | 0, c :: rest =>
      if (dropPattern? pattern (c :: rest)).isSome then
        replacement ++ go (pattern.length - 1) rest
      else c :: go 0 rest

/-- `text` without the characters `c` at its end. -/
def trimEnd (c : Char) (text : List Char) : List Char :=
  (text.reverse.dropWhile (· = c)).reverse

theorem dropPattern?_eq_some_iff {pattern text rest : List Char} :
    dropPattern? pattern text = some rest ↔ text = pattern ++ rest := by
  induction pattern generalizing text with
  | nil => simp [dropPattern?, eq_comm]
  | cons p pattern ih =>
    cases text with
    | nil => simp [dropPattern?]
    | cons c text =>
      by_cases h : p = c
      · simp [dropPattern?, h, ih]
      · simp [dropPattern?, h, Ne.symm h]

theorem append_of_splitLast? {pattern text before after : List Char}
    (h : splitLast? pattern text = some (before, after)) : text = before ++ pattern ++ after := by
  induction text generalizing before with
  | nil =>
    obtain ⟨rest, hr, he⟩ := Option.map_eq_some_iff.1 h
    cases he
    simpa using dropPattern?_eq_some_iff.1 hr
  | cons c text ih =>
    rw [splitLast?] at h
    split at h
    · next l r hs =>
      cases h
      simp [ih hs]
    · obtain ⟨rest, hr, he⟩ := Option.map_eq_some_iff.1 h
      cases he
      simpa using dropPattern?_eq_some_iff.1 hr

theorem splitOn_ne_nil (separator : Char) (text : List Char) : splitOn separator text ≠ [] := by
  induction text with
  | nil => simp [splitOn]
  | cons c text ih =>
    simp only [splitOn]
    split
    · simp
    · split <;> simp

/-- A pattern that occurs is found. -/
theorem isSome_splitLast? (pattern before after : List Char) :
    (splitLast? pattern (before ++ pattern ++ after)).isSome = true := by
  induction before with
  | nil =>
    have hdrop : dropPattern? pattern (pattern ++ after) = some after :=
      dropPattern?_eq_some_iff.2 rfl
    rw [List.nil_append]
    cases htext : pattern ++ after with
    | nil =>
      rw [htext] at hdrop
      simp [splitLast?, hdrop]
    | cons c text =>
      rw [htext] at hdrop
      rw [splitLast?]
      split
      · rfl
      · simp [hdrop]
  | cons c before ih =>
    obtain ⟨⟨left, right⟩, hfound⟩ := Option.isSome_iff_exists.1 ih
    simp only [List.cons_append, splitLast?, hfound, Option.isSome_some]

/-- What is found is the last occurrence. -/
theorem length_le_of_splitLast? {pattern text before after before' after' : List Char}
    (h : splitLast? pattern text = some (before, after))
    (hother : text = before' ++ pattern ++ after') : before'.length ≤ before.length := by
  induction text generalizing before before' with
  | nil =>
    have hnil : before' = [] := by simp_all
    simp [hnil]
  | cons c text ih =>
    cases before' with
    | nil => simp
    | cons c' rest =>
      -- the other occurrence is one of the rest of the text, so one is found there
      have htext : text = rest ++ pattern ++ after' := (List.cons.inj hother).2
      have hsome := isSome_splitLast? pattern rest after'
      rw [← htext] at hsome
      obtain ⟨⟨left, right⟩, hfound⟩ := Option.isSome_iff_exists.1 hsome
      rw [splitLast?, hfound] at h
      cases h
      simpa using ih hfound htext

/-- A pattern does not occur where its first character does not. -/
theorem splitLast?_eq_none {p : Char} {pattern text : List Char} (h : p ∉ text) :
    splitLast? (p :: pattern) text = none := by
  induction text with
  | nil => rfl
  | cons c text ih =>
    have hc : p ≠ c := fun heq => h (heq ▸ List.mem_cons_self)
    have htext : p ∉ text := fun hmem => h (List.mem_cons_of_mem _ hmem)
    simp [splitLast?, ih htext, dropPattern?, hc]

/-- An occurrence is the last one when its first character does not come again. -/
theorem splitLast?_append {p : Char} {pattern after : List Char} (before : List Char)
    (hpattern : p ∉ pattern) (hafter : p ∉ after) :
    splitLast? (p :: pattern) (before ++ (p :: pattern) ++ after) = some (before, after) := by
  induction before with
  | nil =>
    have hnone : splitLast? (p :: pattern) (pattern ++ after) = none :=
      splitLast?_eq_none (by simp [hpattern, hafter])
    have hdrop : dropPattern? (p :: pattern) (p :: (pattern ++ after)) = some after :=
      dropPattern?_eq_some_iff.2 rfl
    simp [splitLast?, hnone, hdrop]
  | cons c before ih => simp only [List.cons_append, splitLast?, ih]

/-- Pieces on both sides of a separator. -/
theorem splitOn_append (separator : Char) (front back : List Char) :
    splitOn separator (front ++ separator :: back) =
      splitOn separator front ++ splitOn separator back := by
  induction front with
  | nil => simp [splitOn]
  | cons c front ih =>
    by_cases hc : c = separator
    · simp [splitOn, hc, ih]
    · obtain ⟨piece, pieces, hpieces⟩ := List.exists_cons_of_ne_nil (splitOn_ne_nil separator front)
      simp [splitOn, hc, ih, hpieces]

/-- There is one piece more than there are separators. -/
theorem length_splitOn (separator : Char) (text : List Char) :
    (splitOn separator text).length = text.count separator + 1 := by
  induction text with
  | nil => rfl
  | cons c text ih =>
    obtain ⟨piece, pieces, hpieces⟩ := List.exists_cons_of_ne_nil (splitOn_ne_nil separator text)
    by_cases hc : c = separator
    · simp [splitOn, hc, ih]
    · simpa [splitOn, hc, hpieces] using ih

theorem splitOn_of_notMem {separator : Char} {text : List Char} (h : separator ∉ text) :
    splitOn separator text = [text] := by
  induction text with
  | nil => rfl
  | cons c text ih =>
    have hc : c ≠ separator := fun heq => h (heq ▸ List.mem_cons_self)
    have htext : separator ∉ text := fun hmem => h (List.mem_cons_of_mem _ hmem)
    simp [splitOn, hc, ih htext]

/-- There is no separator in a piece. -/
theorem notMem_of_mem_splitOn {separator : Char} {text piece : List Char}
    (h : piece ∈ splitOn separator text) : separator ∉ piece := by
  induction text generalizing piece with
  | nil => simp_all [splitOn]
  | cons c text ih =>
    obtain ⟨first, pieces, hpieces⟩ := List.exists_cons_of_ne_nil (splitOn_ne_nil separator text)
    by_cases hc : c = separator
    · rw [splitOn, if_pos hc] at h
      rcases List.mem_cons.1 h with rfl | hmem
      · simp
      · exact ih hmem
    · rw [splitOn, if_neg hc, hpieces] at h
      rcases List.mem_cons.1 h with rfl | hmem
      · have hfirst := ih (hpieces ▸ List.mem_cons_self)
        simp [Ne.symm hc, hfirst]
      · exact ih (hpieces ▸ List.mem_cons_of_mem _ hmem)

theorem notMem_afterLast (separator : Char) (text : List Char) :
    separator ∉ afterLast separator text := by
  have hne := splitOn_ne_nil separator text
  rw [afterLast, List.getLast?_eq_some_getLast hne, Option.getD_some]
  exact notMem_of_mem_splitOn (List.getLast_mem hne)

/-- What is in front of a separator does not count. -/
theorem afterLast_append (separator : Char) (front back : List Char) :
    afterLast separator (front ++ separator :: back) = afterLast separator back := by
  rw [afterLast, splitOn_append, List.getLast?_append, afterLast]
  have hsome := List.getLast?_isSome.2 (splitOn_ne_nil separator back)
  rw [Option.or_of_isSome hsome]

theorem afterLast_of_notMem {separator : Char} {text : List Char} (h : separator ∉ text) :
    afterLast separator text = text := by
  simp [afterLast, splitOn_of_notMem h]

/-- A text is what it has after its last separator, or has that behind a separator. -/
theorem eq_afterLast (separator : Char) (text : List Char) :
    text = afterLast separator text ∨
      ∃ front, text = front ++ separator :: afterLast separator text := by
  by_cases h : separator ∈ text
  · -- the last separator of the text is the first one of the reversed text
    obtain ⟨back, front, htext, hback⟩ := List.eq_append_cons_of_mem (List.mem_reverse.2 h)
    rw [List.reverse_eq_iff] at htext
    have hlast : separator ∉ back.reverse := fun hmem => hback (List.mem_reverse.1 hmem)
    have hparts : text = front.reverse ++ separator :: back.reverse := by simpa using htext
    have htail : afterLast separator text = back.reverse := by
      rw [hparts, afterLast_append, afterLast_of_notMem hlast]
    exact .inr ⟨front.reverse, by rw [htail]; exact hparts⟩
  · exact .inl (afterLast_of_notMem h).symm

/-! ## Replacing -/

section replaceAll

variable {pattern replacement text tail : List Char}

theorem isSome_dropPattern?_iff : (dropPattern? pattern text).isSome ↔ pattern <+: text := by
  simp only [Option.isSome_iff_exists, dropPattern?_eq_some_iff]
  exact ⟨fun ⟨rest, h⟩ => ⟨rest, h.symm⟩, fun ⟨rest, h⟩ => ⟨rest, h.symm⟩⟩

/-- A pattern at the start of a text ends before a character that it does not have. -/
theorem prefix_append_iff_of_notMem (h : ∀ c ∈ tail.head?, c ∉ pattern) :
    pattern <+: text ++ tail ↔ pattern <+: text := by
  refine ⟨fun ⟨rest, hrest⟩ => ?_, fun hprefix => hprefix.trans (List.prefix_append text tail)⟩
  rcases List.append_eq_append_iff.1 hrest with ⟨more, htext, -⟩ | ⟨more, hpattern, htail⟩
  · exact ⟨more, htext.symm⟩
  · -- a character of the tail would be in the pattern
    cases more with
    | nil => exact ⟨[], by simp [hpattern]⟩
    | cons c more =>
      rw [htail] at h
      exact absurd (by simp [hpattern]) (h c rfl)

theorem go_append (h : ∀ c ∈ tail.head?, c ∉ pattern) {skip : Nat} (hskip : skip ≤ text.length) :
    replaceAll.go pattern replacement skip (text ++ tail) =
      replaceAll.go pattern replacement skip text ++ replaceAll.go pattern replacement 0 tail := by
  induction text generalizing skip with
  | nil =>
    obtain rfl : skip = 0 := by simpa using hskip
    simp [replaceAll.go]
  | cons c text ih =>
    cases skip with
    | succ skip => exact ih (by simpa using hskip)
    | zero =>
      have hprefix : (dropPattern? pattern (c :: (text ++ tail))).isSome =
          (dropPattern? pattern (c :: text)).isSome := by
        rw [Bool.eq_iff_iff, isSome_dropPattern?_iff, isSome_dropPattern?_iff, ← List.cons_append,
          prefix_append_iff_of_notMem h]
      rw [List.cons_append, replaceAll.go, replaceAll.go, hprefix]
      split
      · next hsome =>
        have hlength := (isSome_dropPattern?_iff.1 hsome).length_le
        rw [List.length_cons] at hlength
        rw [ih (by omega), List.append_assoc]
      · rw [ih (Nat.zero_le _), List.cons_append]

/-- No occurrence crosses a character that the pattern does not have. -/
theorem replaceAll_append (h : ∀ c ∈ tail.head?, c ∉ pattern) :
    replaceAll pattern replacement (text ++ tail) =
      replaceAll pattern replacement text ++ replaceAll pattern replacement tail :=
  go_append h (Nat.zero_le _)

theorem replaceAll_cons {c : Char} (h : c ∉ pattern) (hne : pattern ≠ []) :
    replaceAll pattern replacement (c :: text) = c :: replaceAll pattern replacement text := by
  have hnone : ¬ (dropPattern? pattern (c :: text)).isSome := by
    rw [isSome_dropPattern?_iff]
    intro hprefix
    obtain ⟨p, pattern, rfl⟩ := List.exists_cons_of_ne_nil hne
    rw [(List.cons_prefix_cons.1 hprefix).1] at h
    exact h List.mem_cons_self
  rw [replaceAll, replaceAll.go, if_neg hnone]
  rfl

/-- A text without the pattern stays as it is. -/
theorem replaceAll_of_not_infix (h : ¬ pattern <:+: text) :
    replaceAll pattern replacement text = text := by
  induction text with
  | nil => rfl
  | cons c text ih =>
    rw [List.infix_cons_iff, not_or, ← isSome_dropPattern?_iff] at h
    rw [replaceAll, replaceAll.go, if_neg h.1]
    exact congrArg _ (ih h.2)

/-- Where the pattern occurs, the replacement comes in. -/
theorem infix_replaceAll (h : pattern <:+: text) (hne : pattern ≠ []) :
    replacement <:+: replaceAll pattern replacement text := by
  induction text with
  | nil => exact absurd (List.infix_nil.1 h) hne
  | cons c text ih =>
    rw [replaceAll, replaceAll.go]
    split
    · exact (List.prefix_append _ _).isInfix
    · next hnone =>
      rw [List.infix_cons_iff, ← isSome_dropPattern?_iff] at h
      exact (ih (h.resolve_left hnone)).trans (List.suffix_cons c _).isInfix

/-- Whether a text is another one in which a pattern is replaced where it occurs first, and then in
what is left behind that occurrence. -/
inductive Replaced (pattern replacement : List Char) : List Char → List Char → Prop where
  | nowhere {text : List Char} (hnone : ¬ pattern <:+: text) :
      Replaced pattern replacement text text
  /-- No other occurrence ends before this one does. -/
  | first {before after after' : List Char} (hfirst : ¬ pattern <:+: before ++ pattern.dropLast)
      (hafter : Replaced pattern replacement after after') :
      Replaced pattern replacement (before ++ pattern ++ after) (before ++ replacement ++ after')

/-- What comes before the end of an occurrence is the start of the text. -/
theorem append_dropLast_isPrefix (before pattern after : List Char) :
    before ++ pattern.dropLast <+: before ++ pattern ++ after := by
  rw [List.append_assoc, List.prefix_append_right_inj]
  exact (List.dropLast_prefix pattern).trans (List.prefix_append pattern after)

/-- A pattern that occurs has a first occurrence: it does not occur before the end of that. -/
theorem exists_first_of_infix (h : pattern <:+: text) (hne : pattern ≠ []) :
    ∃ before after, text = before ++ pattern ++ after ∧
      ¬ pattern <:+: before ++ pattern.dropLast := by
  induction text with
  | nil => exact absurd (List.infix_nil.1 h) hne
  | cons c text ih =>
    by_cases hprefix : pattern <+: c :: text
    · obtain ⟨after, hafter⟩ := hprefix
      refine ⟨[], after, hafter.symm, fun hinfix => ?_⟩
      have hlength := hinfix.length_le
      have hpos := List.length_pos_iff.2 hne
      rw [List.nil_append, List.length_dropLast] at hlength
      omega
    · obtain ⟨before, after, rfl, hfirst⟩ := ih ((List.infix_cons_iff.1 h).resolve_left hprefix)
      refine ⟨c :: before, after, rfl, fun hinfix => ?_⟩
      rcases List.infix_cons_iff.1 hinfix with hstart | hlater
      · exact hprefix (hstart.trans (append_dropLast_isPrefix (c :: before) pattern after))
      · exact hfirst hlater

theorem go_of_length (text : List Char) :
    replaceAll.go pattern replacement text.length (text ++ tail) =
      replaceAll.go pattern replacement 0 tail := by
  induction text with
  | nil => rfl
  | cons c text ih => exact ih

/-- The first occurrence is replaced, and the text behind it is gone through in the same way. -/
theorem replaceAll_first {before after : List Char} (hne : pattern ≠ [])
    (h : ¬ pattern <:+: before ++ pattern.dropLast) :
    replaceAll pattern replacement (before ++ pattern ++ after) =
      before ++ replacement ++ replaceAll pattern replacement after := by
  induction before with
  | nil =>
    obtain ⟨p, rest, rfl⟩ := List.exists_cons_of_ne_nil hne
    have hprefix : (dropPattern? (p :: rest) (p :: (rest ++ after))).isSome :=
      isSome_dropPattern?_iff.2 (List.prefix_append (p :: rest) after)
    show replaceAll.go _ _ 0 (p :: (rest ++ after)) = replacement ++ _
    rw [replaceAll.go, if_pos hprefix, List.length_cons, Nat.add_sub_cancel, go_of_length]
    rfl
  | cons c before ih =>
    rw [List.cons_append, List.infix_cons_iff, not_or] at h
    have hnone : ¬ (dropPattern? pattern (c :: (before ++ pattern ++ after))).isSome := by
      rw [isSome_dropPattern?_iff]
      intro hprefix
      -- the pattern would already fit before the end of the occurrence
      have hstart := append_dropLast_isPrefix (c :: before) pattern after
      refine h.1 (List.prefix_of_prefix_length_le hprefix hstart ?_)
      rw [List.length_cons, List.length_append, List.length_dropLast]
      omega
    show replaceAll.go _ _ 0 (c :: (before ++ pattern ++ after)) = _
    rw [replaceAll.go, if_neg hnone]
    exact congrArg _ (ih h.2)

/-- So every occurrence is replaced that begins behind the end of the one before it. -/
theorem replaced_replaceAll (hne : pattern ≠ []) (text : List Char) :
    Replaced pattern replacement text (replaceAll pattern replacement text) := by
  induction hlength : text.length using Nat.strongRecOn generalizing text with
  | ind n ih =>
    by_cases h : pattern <:+: text
    · obtain ⟨before, after, rfl, hfirst⟩ := exists_first_of_infix h hne
      rw [replaceAll_first hne hfirst]
      have hpos := List.length_pos_iff.2 hne
      have hshorter : after.length < n := by
        rw [← hlength, List.length_append, List.length_append]
        omega
      exact .first hfirst (ih after.length hshorter after rfl)
    · have hsame : replaceAll pattern replacement text = text := replaceAll_of_not_infix h
      rw [hsame]
      exact .nowhere h

theorem length_go_le (hlength : replacement.length ≤ pattern.length) {skip : Nat}
    (hskip : skip ≤ text.length) :
    (replaceAll.go pattern replacement skip text).length + skip ≤ text.length := by
  induction text generalizing skip with
  | nil => simpa [replaceAll.go] using hskip
  | cons c text ih =>
    cases skip with
    | succ skip =>
      have hrest := ih (Nat.le_of_succ_le_succ hskip)
      rw [replaceAll.go, List.length_cons]
      omega
    | zero =>
      rw [replaceAll.go]
      split
      · next hsome =>
        have hprefix := (isSome_dropPattern?_iff.1 hsome).length_le
        rw [List.length_cons] at hprefix ⊢
        have hskip : pattern.length - 1 ≤ text.length := by omega
        have hrest := ih hskip
        rw [List.length_append]
        omega
      · have hrest := ih (Nat.zero_le text.length)
        rw [List.length_cons, List.length_cons]
        omega

/-- A shorter replacement makes a text with the pattern shorter. -/
theorem length_replaceAll_lt (hlength : replacement.length < pattern.length)
    (h : pattern <:+: text) : (replaceAll pattern replacement text).length < text.length := by
  induction text with
  | nil =>
    rw [List.infix_nil.1 h] at hlength
    cases hlength
  | cons c text ih =>
    rw [replaceAll, replaceAll.go]
    split
    · next hsome =>
      have hprefix := (isSome_dropPattern?_iff.1 hsome).length_le
      rw [List.length_cons] at hprefix ⊢
      have hskip : pattern.length - 1 ≤ text.length := by omega
      have hrest := length_go_le (Nat.le_of_lt hlength) hskip
      rw [List.length_append]
      omega
    · next hnone =>
      rw [List.infix_cons_iff, ← isSome_dropPattern?_iff] at h
      have hrest := ih (h.resolve_left hnone)
      rw [List.length_cons, List.length_cons]
      exact Nat.succ_lt_succ hrest

theorem mem_of_mem_go {skip : Nat} {c : Char}
    (h : c ∈ replaceAll.go pattern replacement skip text) : c ∈ replacement ∨ c ∈ text := by
  induction text generalizing skip with
  | nil => cases skip <;> simp [replaceAll.go] at h
  | cons d text ih =>
    cases skip with
    | succ skip => exact (ih h).imp_right (List.mem_cons_of_mem d)
    | zero =>
      rw [replaceAll.go] at h
      split at h
      · rcases List.mem_append.1 h with h | h
        · exact .inl h
        · exact (ih h).imp_right (List.mem_cons_of_mem d)
      · rcases List.mem_cons.1 h with rfl | h
        · exact .inr List.mem_cons_self
        · exact (ih h).imp_right (List.mem_cons_of_mem d)

end replaceAll

end Caretaker.Text
