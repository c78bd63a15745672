import Caretaker.Proofs.ReleaseVariable

/-!
# Image refs as text

Image refs are written as JSON in its compact form and read back as what they were.  A text of them
may look different, with its members in another order, with spaces, escapes and unknown members, or
as an array; written again, it has the compact form from then on.

Main definitions:

- `ImageRefs.toText`: image refs in the compact form.
- `ImageRefs.rewrite?`: a text of image refs, read and written again.

Main statements:

- `ImageRefs.read?_toText`: image refs are read back from their text.
- `ImageRefs.text_settles`: so a text that is written again keeps its meaning, and then its form.
-/

namespace Caretaker.ImageRefs

/-- Image refs as text, in the compact form. -/
def toText (refs : ImageRefs) : String := Json.render refs.toJson

/-- A text of image refs, read and written again. -/
def rewrite? (text : String) : Option String := (read? text).map toText

/-- There is no number in image refs. -/
theorem numberless (refs : ImageRefs) : Json.Numberless refs.toJson := by
  obtain ⟨supervisor, updater, releaseInfo⟩ := refs
  cases releaseInfo with
  | none => simp [toJson, Json.Numberless, Json.NumberlessMembers]
  | some info => simp [toJson, Json.Numberless, Json.NumberlessMembers, info.numberless]

/-- The record of image refs has each of its fields where the reader looks for it. -/
theorem ofJson?_spelled (refs : ImageRefs) : ofJson? (Json.spelled refs.toJson) = some refs := by
  obtain ⟨supervisor, updater, releaseInfo⟩ := refs
  cases releaseInfo with
  | none => rfl
  | some info => rfl

/-- The value that is read from the text of image refs. -/
theorem json_read?_toText (refs : ImageRefs) :
    Json.read? refs.toText.toList = some (Json.spelled refs.toJson) := by
  rw [toText, Json.render, String.toList_ofList]
  exact Json.read?_write refs.numberless

/-- Image refs are read back from their text. -/
theorem read?_toText (refs : ImageRefs) : read? refs.toText = some refs := by
  rw [read?, refs.json_read?_toText, Option.bind_some]
  exact refs.ofJson?_spelled

/-- A release is written when it is known, and only then. -/
theorem mem_keys_toText_iff (refs : ImageRefs) :
    (∃ members, Json.read? refs.toText.toList = some (.object members) ∧
      some "releaseInfo" ∈ members.map (·.1)) ↔ refs.releaseInfo.isSome := by
  rw [refs.json_read?_toText]
  obtain ⟨supervisor, updater, releaseInfo⟩ := refs
  cases releaseInfo with
  | none => simp [toJson, Json.spelled, Json.spelledMembers]
  | some info => simp [toJson, Json.spelled, Json.spelledMembers]

/-- Image refs are read back from their text, whatever strings they hold and whether or not they
know a release, and the release is in the text exactly when it is known.  Whatever text image refs
are read from, it is read as the same refs when it is written again, and does not change any more
when that is done once more. -/
theorem text_settles :
    (∀ refs : ImageRefs, read? refs.toText = some refs ∧
      ((∃ members, Json.read? refs.toText.toList = some (.object members) ∧
        some "releaseInfo" ∈ members.map (·.1)) ↔ refs.releaseInfo.isSome)) ∧
    ∀ text refs, read? text = some refs → ∃ settled, rewrite? text = some settled ∧
      read? settled = some refs ∧ rewrite? settled = some settled := by
  refine ⟨fun refs => ⟨refs.read?_toText, refs.mem_keys_toText_iff⟩, fun text refs h => ?_⟩
  have hback := refs.read?_toText
  exact ⟨refs.toText, by rw [rewrite?, h, Option.map_some], hback,
    by rw [rewrite?, hback, Option.map_some]⟩

/-- A text with spaces, an unknown member and an escape, and its members out of order. -/
theorem text_settles_reordered :
    let text := "\x7b \"updater\": \"u\", \"since\": [2, []], \"supervisor\": \"\\u00e9\" \x7d"
    let refs : ImageRefs := { supervisor := "é", updater := "u" }
    read? text = some refs ∧ ∃ settled, rewrite? text = some settled ∧
      read? settled = some refs ∧ rewrite? settled = some settled := by
  intro text refs
  have hread : read? text = some refs := by decide
  exact ⟨hread, text_settles.2 text refs hread⟩

end Caretaker.ImageRefs
