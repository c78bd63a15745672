import Caretaker.Images.Refs
import Caretaker.Proofs.Grammar
import Caretaker.Proofs.Records

/-!
# What does not matter in a text of image refs

Image refs are read from records inside records.  In each of them the order of the members does not
matter, and neither do members with unknown names, whatever their values; a release that is null may
as well be missing.  Nor does it matter which blanks stand in the text and how its strings are
written, since all texts of a value are read alike.  What is refused is a known name that comes
twice, a field that is missing, and anything but blanks behind the value.

Main definitions:

- `Level`: the records that image refs are made up of, with `Level.read?` to read each of them.
- `Varies`: values that differ in what does not matter, at any level.
- `Spoils`: values that have a known name twice, or lack a field, at any level.

Main statements:

- `Level.exists_part_of_ofFields?`: which fields a record needs, and what they have to be.
- `Varies.read?`, `Spoils.read?`: what varies is read alike, and what is spoiled is refused.
- `read?_immaterial`: so for the texts of image refs.
-/

namespace Caretaker.ImageRefs

open Json

/-! ## The records -/

/-- The records that image refs are made up of, one inside the other. -/
inductive Level where
  | refs
  | info
  | manifest
  | release
  | services
deriving DecidableEq

namespace Level

/-- The names of the fields of a record, in their order. -/
def names : Level → List String
  | refs => ["supervisor", "updater", "releaseInfo"]
  | info => ["ipfs", "manifest"]
  | manifest => ["release"]
  | release => ["timestamp", "repository", "version", "commit", "services"]
  | services => ["updater", "supervisor"]

/-- The fields that have to be there: all but the release of image refs. -/
def required (level : Level) : List String := level.names.filter (· ≠ "releaseInfo")

/-- The record that a field holds, for a field that holds no text. -/
def inner? : Level → String → Option Level
  | refs, "releaseInfo" => some info
  | info, "manifest" => some manifest
  | manifest, "release" => some release
  | release, "services" => some services
  | _, _ => none

/-- What is read from a record. -/
abbrev Part : Level → Type
  | refs => ImageRefs
  | info => ReleaseInfo
  | manifest => Release
  | release => Release
  | services => String × String

/-- The images of the services of a release. -/
def readServices? (fields : Fields) : Option (String × String) := do
  let updater ← fields.required? "updater" Tree.text?
  let supervisor ← fields.required? "supervisor" Tree.text?
  return (updater, supervisor)

/-- Reads a record. -/
def read? : (level : Level) → Spelled → Option level.Part
  | refs => ImageRefs.ofJson?
  | info => ReleaseInfo.ofJson?
  | manifest => fun value =>
    (value.fields? manifest.names).bind fun fields => fields.required? "release" Release.ofJson?
  | release => Release.ofJson?
  | services => fun value => (value.fields? services.names).bind readServices?

/-- Reads a record from its fields. -/
def ofFields? : (level : Level) → Fields → Option level.Part
  | refs, fields => do
    let supervisor ← fields.required? "supervisor" Tree.text?
    let updater ← fields.required? "updater" Tree.text?
    let releaseInfo ← fields.optional? "releaseInfo" info.read?
    return ({ supervisor, updater, releaseInfo } : ImageRefs)
  | info, fields => do
    let ipfs ← fields.required? "ipfs" Tree.text?
    let release ← fields.required? "manifest" manifest.read?
    return ({ ipfs, release } : ReleaseInfo)
  | manifest, fields => fields.required? "release" release.read?
  | release, fields => do
    let timestamp ← fields.required? "timestamp" Tree.text?
    let repository ← fields.required? "repository" Tree.text?
    let version ← fields.required? "version" Tree.text?
    let commit ← fields.required? "commit" Tree.text?
    let (updater, supervisor) ← fields.required? "services" services.read?
    return ({ timestamp, repository, version, commit, updater, supervisor } : Release)
  | services, fields => readServices? fields

/-- A record is read from its fields. -/
theorem read?_eq (level : Level) (value : Spelled) :
    level.read? value = (value.fields? level.names).bind level.ofFields? := by
  cases level with
  | refs => rfl
  | info =>
    refine congrArg (Option.bind _) (funext fun fields => ?_)
    simp [ofFields?, read?, Fields.required?, Option.bind_assoc, names]
  | manifest => rfl
  | release =>
    refine congrArg (Option.bind _) (funext fun fields => ?_)
    simp [ofFields?, read?, Fields.required?, Option.bind_assoc, names, readServices?]
  | services => rfl

/-! ### What the fields have to be -/

variable {level within : Level} {fields fields' : Fields} {name : String} {value value' : Spelled}

/-- A field that has to be there is there. -/
theorem exists_get?_of_ofFields? {part : level.Part} (h : level.ofFields? fields = some part)
    (hname : name ∈ level.required) : ∃ value, fields.get? name = some value := by
  -- at every level each of the names was looked up on the way to what is read
  cases level <;>
    simp only [ofFields?, readServices?, Fields.required?, Option.bind_eq_bind,
      Option.bind_eq_some_iff] at h <;>
    simp [required, names] at hname <;>
    grind

/-- A field that holds a record holds one that can be read, unless it is null. -/
theorem exists_part_of_ofFields? {part : level.Part} (h : level.ofFields? fields = some part)
    (hinner : level.inner? name = some within) (hget : fields.get? name = some value)
    (hnull : value ≠ .null) : ∃ inside, within.read? value = some inside := by
  unfold inner? at hinner
  split at hinner
  · cases hinner
    simp only [ofFields?, Option.bind_eq_bind, Option.bind_eq_some_iff] at h
    obtain ⟨_, -, _, -, release, hrelease, -⟩ := h
    rw [Fields.optional?_of_get? hget hnull] at hrelease
    obtain ⟨inside, hread, -⟩ := Option.map_eq_some_iff.1 hrelease
    exact ⟨inside, hread⟩
  · cases hinner
    simp only [ofFields?, Option.bind_eq_bind, Option.bind_eq_some_iff] at h
    obtain ⟨_, -, inside, hread, -⟩ := h
    exact ⟨inside, (Fields.required?_of_get? hget).symm.trans hread⟩
  · cases hinner
    exact ⟨part, (Fields.required?_of_get? hget).symm.trans h⟩
  · cases hinner
    simp only [ofFields?, Option.bind_eq_bind, Option.bind_eq_some_iff] at h
    obtain ⟨_, -, _, -, _, -, _, -, inside, hread, -⟩ := h
    exact ⟨inside, (Fields.required?_of_get? hget).symm.trans hread⟩
  · cases hinner

/-! ### Fields that may differ -/

/-- Whether a value is read as what another one is read as, wherever that one is read; of the two,
neither is null alone. -/
structure Keeps (level : Level) (value value' : Spelled) : Prop where
  null : value = .null ↔ value' = .null
  read : ∀ part, level.read? value = some part → level.read? value' = some part

/-- How the values of a field may differ: the record in it may, and a release that is null may be
missing. -/
inductive KeepsField (level : Level) (name : String) : Option Spelled → Option Spelled → Prop where
  | same (value? : Option Spelled) : KeepsField level name value? value?
  | absent (h : name ∉ level.required) : KeepsField level name (some .null) none
  | inner {within : Level} {value value' : Spelled} (h : level.inner? name = some within)
      (hkeeps : within.Keeps value value') : KeepsField level name (some value) (some value')

/-- How the fields of a record may differ. -/
def KeepsFields (level : Level) (fields fields' : Fields) : Prop :=
  ∀ name ∈ level.names, KeepsField level name (fields.get? name) (fields'.get? name)

namespace KeepsFields

/-- A text stays as it is. -/
theorem text {text : String} (h : level.KeepsFields fields fields') (hname : name ∈ level.required)
    (hinner : level.inner? name = none) (hread : fields.required? name Tree.text? = some text) :
    fields'.required? name Tree.text? = some text := by
  have hfield := h name (List.mem_filter.1 hname).1
  unfold Fields.required? at hread ⊢
  generalize fields.get? name = value?, fields'.get? name = value'? at hfield hread
  cases hfield with
  | same => exact hread
  | absent hnot => exact absurd hname hnot
  | inner hsome =>
    rw [hinner] at hsome
    cases hsome

/-- A record that has to be there is read as it was. -/
theorem record {part : within.Part} (h : level.KeepsFields fields fields')
    (hname : name ∈ level.required) (hinner : level.inner? name = some within)
    (hread : fields.required? name within.read? = some part) :
    fields'.required? name within.read? = some part := by
  have hfield := h name (List.mem_filter.1 hname).1
  unfold Fields.required? at hread ⊢
  generalize fields.get? name = value?, fields'.get? name = value'? at hfield hread
  cases hfield with
  | same => exact hread
  | absent hnot => exact absurd hname hnot
  | inner hsome hkeeps =>
    rw [hinner] at hsome
    cases hsome
    exact hkeeps.read part hread

/-- The release of image refs is read as it was, or is missing as before. -/
theorem release {info? : Option ReleaseInfo} (h : refs.KeepsFields fields fields')
    (hread : fields.optional? "releaseInfo" info.read? = some info?) :
    fields'.optional? "releaseInfo" info.read? = some info? := by
  have hfield := h "releaseInfo" (by decide)
  generalize hvalue : fields.get? "releaseInfo" = value?,
    hvalue' : fields'.get? "releaseInfo" = value'? at hfield
  cases hfield with
  | same =>
    unfold Fields.optional? at hread ⊢
    rwa [hvalue'.trans hvalue.symm]
  | absent =>
    unfold Fields.optional? at hread ⊢
    rw [hvalue] at hread
    rwa [hvalue']
  | @inner within value value' hinner hkeeps =>
    cases hinner
    by_cases hnull : value = .null
    · unfold Fields.optional? at hread ⊢
      rw [hvalue, hnull] at hread
      rwa [hvalue', hkeeps.null.1 hnull]
    · rw [Fields.optional?_of_get? hvalue hnull] at hread
      rw [Fields.optional?_of_get? hvalue' (mt hkeeps.null.2 hnull)]
      obtain ⟨inside, hinside, rfl⟩ := Option.map_eq_some_iff.1 hread
      rw [hkeeps.read inside hinside, Option.map_some]

/-- What is read from the fields of a record is read from fields that differ as they may. -/
theorem ofFields? {part : level.Part} (h : level.KeepsFields fields fields')
    (hread : level.ofFields? fields = some part) : level.ofFields? fields' = some part := by
  cases level with
  | refs =>
    simp only [Level.ofFields?, Option.bind_eq_bind, Option.bind_eq_some_iff] at hread ⊢
    obtain ⟨supervisor, hsupervisor, updater, hupdater, info?, hinfo, hpart⟩ := hread
    exact ⟨supervisor, h.text (by decide) rfl hsupervisor, updater, h.text (by decide) rfl hupdater,
      info?, h.release hinfo, hpart⟩
  | info =>
    simp only [Level.ofFields?, Option.bind_eq_bind, Option.bind_eq_some_iff] at hread ⊢
    obtain ⟨ipfs, hipfs, release, hrelease, hpart⟩ := hread
    exact ⟨ipfs, h.text (by decide) rfl hipfs, release, h.record (by decide) rfl hrelease, hpart⟩
  | manifest =>
    have hinner : manifest.inner? "release" = some Level.release := rfl
    exact h.record (by decide) hinner hread
  | release =>
    simp only [Level.ofFields?, Option.bind_eq_bind, Option.bind_eq_some_iff] at hread ⊢
    obtain ⟨timestamp, htimestamp, repository, hrepository, version, hversion, commit, hcommit,
      images, himages, hpart⟩ := hread
    exact ⟨timestamp, h.text (by decide) rfl htimestamp, repository,
      h.text (by decide) rfl hrepository, version, h.text (by decide) rfl hversion, commit,
      h.text (by decide) rfl hcommit, images, h.record (by decide) rfl himages, hpart⟩
  | services =>
    simp only [Level.ofFields?, readServices?, Option.bind_eq_bind, Option.bind_eq_some_iff]
      at hread ⊢
    obtain ⟨updater, hupdater, supervisor, hsupervisor, hpart⟩ := hread
    exact ⟨updater, h.text (by decide) rfl hupdater, supervisor,
      h.text (by decide) rfl hsupervisor, hpart⟩

end KeepsFields
end Level

/-! ## What does not matter -/

/-- Values that differ in what does not matter to the reader of a record: in the order of members,
in members with unknown names and in a release that is null, and likewise in the records inside. -/
inductive Varies : Level → Spelled → Spelled → Prop where
  | refl (level : Level) (value : Spelled) : Varies level value value
  | trans {level : Level} {value value' value'' : Spelled} (h : Varies level value value')
      (h' : Varies level value' value'') : Varies level value value''
  | permute {level : Level} {members members' : List (Option String × Spelled)}
      (h : members.Perm members') : Varies level (.object members) (.object members')
  | unknown {level : Level} {name : String} (h : name ∉ level.names) (value : Spelled)
      (front back : List (Option String × Spelled)) :
      Varies level (.object (front ++ back)) (.object (front ++ (some name, value) :: back))
  | absent (front back : List (Option String × Spelled)) :
      Varies .refs (.object (front ++ (some "releaseInfo", .null) :: back))
        (.object (front ++ back))
  | inside {level within : Level} {name : String} {held held' value value' : Spelled}
      (hinner : level.inner? name = some within) (h : Varies within held held')
      (hreplaced : Replaced level.names name held held' value value') : Varies level value value'

/-- Values between which a record was spoiled: a known name comes twice, or a field that has to be
there is missing, in the record itself or in one inside. -/
inductive Spoils : Level → Spelled → Spelled → Prop where
  | again {level : Level} {name : String} (hname : name ∈ level.names) (value : Spelled)
      {front back : List (Option String × Spelled)} (h : some name ∈ (front ++ back).map (·.1)) :
      Spoils level (.object (front ++ back)) (.object (front ++ (some name, value) :: back))
  | without {level : Level} {name : String} (hname : name ∈ level.required) (value : Spelled)
      (front back : List (Option String × Spelled)) :
      Spoils level (.object (front ++ (some name, value) :: back)) (.object (front ++ back))
  | inside {level within : Level} {name : String} {held held' value value' : Spelled}
      (hinner : level.inner? name = some within) (h : Spoils within held held')
      (hreplaced : Replaced level.names name held held' value value') : Spoils level value value'

namespace Level

theorem nodup_names (level : Level) : level.names.Nodup := by
  cases level <;> decide

theorem mem_names_of_inner? {level within : Level} {name : String}
    (h : level.inner? name = some within) : name ∈ level.names := by
  unfold inner? at h
  split at h <;> cases h <;> decide

/-- A record is read alike when its fields differ as they may. -/
theorem Keeps.of_fields {level : Level} {value value' : Spelled}
    (hnull : value = .null ↔ value' = .null)
    (h : ∀ fields, value.fields? level.names = some fields →
      ∃ fields', value'.fields? level.names = some fields' ∧ level.KeepsFields fields fields') :
    level.Keeps value value' := by
  refine ⟨hnull, fun part hread => ?_⟩
  rw [read?_eq] at hread ⊢
  obtain ⟨fields, hfields, hpart⟩ := Option.bind_eq_some_iff.1 hread
  obtain ⟨fields', hfields', hkeeps⟩ := h fields hfields
  exact Option.bind_eq_some_iff.2 ⟨fields', hfields', hkeeps.ofFields? hpart⟩

end Level

theorem Varies.keeps {level : Level} {value value' : Spelled} (h : Varies level value value') :
    level.Keeps value value' := by
  induction h with
  | refl level value => exact ⟨Iff.rfl, fun _ hread => hread⟩
  | trans _ _ ih ih' =>
    exact ⟨ih.null.trans ih'.null, fun part hread => ih'.read part (ih.read part hread)⟩
  | permute hperm =>
    refine .of_fields (by simp) fun fields hfields => ?_
    obtain ⟨fields', hfields', hget⟩ := fields?_perm hperm hfields
    exact ⟨fields', hfields', fun name _ => hget name ▸ .same _⟩
  | unknown hname value front back =>
    refine .of_fields (by simp) fun fields hfields => ?_
    rw [← fields?_unknown hname value front back] at hfields
    exact ⟨fields, hfields, fun name _ => .same _⟩
  | absent front back =>
    refine .of_fields (by simp) fun fields hfields => ?_
    obtain ⟨fields', hfields', hthere, hmissing, hagree⟩ := fields?_without (by decide) hfields
    refine ⟨fields', hfields', fun name _ => ?_⟩
    by_cases hname : "releaseInfo" = name
    · subst hname
      rw [hthere, hmissing]
      exact .absent (by decide)
    · exact hagree name hname ▸ .same _
  | @inside level within name held held' value value' hinner _ hreplaced ih =>
    have hnull : value = .null ↔ value' = .null := by cases hreplaced <;> simp
    refine .of_fields hnull fun fields hfields => ?_
    obtain ⟨fields', hfields', hthere, hthere', hagree⟩ :=
      hreplaced.exists_fields level.nodup_names (Level.mem_names_of_inner? hinner) hfields
    refine ⟨fields', hfields', fun other _ => ?_⟩
    by_cases hname : name = other
    · subst hname
      rw [hthere, hthere']
      exact .inner hinner ih
    · exact hagree other hname ▸ .same _

/-- A value that was spoiled is no null, and was none before. -/
theorem Spoils.ne_null {level : Level} {value value' : Spelled} (h : Spoils level value value') :
    value ≠ .null ∧ value' ≠ .null := by
  cases h with
  | again => simp
  | without => simp
  | inside _ _ hreplaced => cases hreplaced <;> simp

/-- A record that was spoiled cannot be read any more. -/
theorem Spoils.read?_eq_none {level : Level} {value value' : Spelled}
    (h : Spoils level value value') {part : level.Part} (hread : level.read? value = some part) :
    level.read? value' = none := by
  induction h with
  | again hname value hmem => rw [Level.read?_eq, fields?_again hname hmem, Option.bind_none]
  | @without level name hname value front back =>
    rw [Level.read?_eq] at hread ⊢
    obtain ⟨fields, hfields, hpart⟩ := Option.bind_eq_some_iff.1 hread
    obtain ⟨fields', hfields', -, hmissing, -⟩ :=
      fields?_without (List.mem_filter.1 hname).1 hfields
    rw [hfields', Option.bind_some, Option.eq_none_iff_forall_ne_some]
    intro part' hpart'
    obtain ⟨value, hthere⟩ := Level.exists_get?_of_ofFields? hpart' hname
    rw [hmissing] at hthere
    cases hthere
  | @inside level within name held held' value value' hinner hspoils hreplaced ih =>
    rw [Level.read?_eq] at hread ⊢
    obtain ⟨fields, hfields, hpart⟩ := Option.bind_eq_some_iff.1 hread
    obtain ⟨fields', hfields', hthere, hthere', -⟩ :=
      hreplaced.exists_fields level.nodup_names (Level.mem_names_of_inner? hinner) hfields
    obtain ⟨hnull, hnull'⟩ := hspoils.ne_null
    obtain ⟨inside, hinside⟩ := Level.exists_part_of_ofFields? hpart hinner hthere hnull
    rw [hfields', Option.bind_some, Option.eq_none_iff_forall_ne_some]
    intro part' hpart'
    obtain ⟨inside', hinside'⟩ := Level.exists_part_of_ofFields? hpart' hinner hthere' hnull'
    rw [ih hinside] at hinside'
    cases hinside'

/-! ## Texts -/

theorem read?_eq_some_iff {text : String} {refs : ImageRefs} :
    read? text = some refs ↔
      ∃ value, IsTextOf value text.toList ∧ Level.refs.read? value = some refs := by
  rw [read?, Option.bind_eq_some_iff]
  simp only [Json.read?_eq_some_iff]
  rfl

/-- What does not matter in a text that image refs are read from.  Any text of its value, whatever
blanks stand in it and however its strings are written, is read as the same refs, and so is any text
of a value that differs in the order of members, in members with unknown names or in a release that
is null, at any level.  A text of a value that has a known name twice or lacks a field, at any
level, is refused, and so is the text with anything but blanks behind it. -/
theorem read?_immaterial {text : String} {refs : ImageRefs} (h : read? text = some refs) :
    (∃ value, IsTextOf value text.toList) ∧
    ∀ value, IsTextOf value text.toList →
      (∀ value' text', Varies .refs value value' → IsTextOf value' text'.toList →
        read? text' = some refs) ∧
      (∀ value' text', Spoils .refs value value' → IsTextOf value' text'.toList →
        read? text' = none) ∧
      ∀ more, ¬ Blank more.toList → read? (text ++ more) = none := by
  obtain ⟨value, htext, hread⟩ := read?_eq_some_iff.1 h
  refine ⟨⟨value, htext⟩, fun other hother => ?_⟩
  obtain rfl : value = other := htext.unique hother
  refine ⟨fun value' text' hvaries htext' => ?_, fun value' text' hspoils htext' => ?_,
    fun more hmore => ?_⟩
  · exact read?_eq_some_iff.2 ⟨value', htext', hvaries.keeps.read refs hread⟩
  · rw [Option.eq_none_iff_forall_ne_some]
    intro refs' hrefs'
    obtain ⟨value'', htext'', hread'⟩ := read?_eq_some_iff.1 hrefs'
    obtain rfl : value' = value'' := htext'.unique htext''
    rw [hspoils.read?_eq_none hread] at hread'
    cases hread'
  · have hnumber : ∀ spelling, value ≠ .number spelling := by
      rintro spelling rfl
      cases hread
    rw [read?, String.toList_append, read?_append htext hnumber hmore, Option.bind_none]

set_option maxRecDepth 1024 in
/-- Members out of order, an unknown one and escapes; and then a name in the release that comes
twice, once with an escape. -/
theorem read?_immaterial_escaped :
    let manifest := "\"manifest\":[[\"\",\"\",\"\",\"\",[\"\",\"\"]]]"
    let text := "\x7b\"supervisor\":\"s\",\"updater\":\"u\",\"releaseInfo\":" ++
      "\x7b\"ipfs\":\"\"," ++ manifest ++ "\x7d\x7d"
    let varied := "\x7b \"since\":[[1e3]],\"upd\\u0061ter\":\"\\u0075\",\"releaseInfo\":" ++
      "\x7b" ++ manifest ++ ",\"ipfs\":\"\"\x7d,\"supervisor\":\"s\"\x7d"
    let spoiled := "\x7b\"supervisor\":\"s\",\"updater\":\"u\",\"releaseInfo\":" ++
      "\x7b\"\\u0069pfs\":0,\"ipfs\":\"\"," ++ manifest ++ "\x7d\x7d"
    let refs : ImageRefs := { supervisor := "s", updater := "u", releaseInfo := some {} }
    read? text = some refs ∧ read? varied = some refs ∧ read? spoiled = none ∧
      read? (text ++ ",") = none := by
  intro manifest text varied spoiled refs
  -- the values of the three texts
  let string (text : String) : Spelled := .string (some text)
  let supervisor : Option String × Spelled := (some "supervisor", string "s")
  let updater : Option String × Spelled := (some "updater", string "u")
  let info (members : List (Option String × Spelled)) : Option String × Spelled :=
    (some "releaseInfo", .object members)
  let ipfs : Option String × Spelled := (some "ipfs", string "")
  let release : Option String × Spelled := (some "manifest", .array [.array
    [string "", string "", string "", string "", .array [string "", string ""]]])
  let since : Spelled := .array [.array [.number "1e3"]]
  have htext : IsTextOf (.object [supervisor, updater, info [ipfs, release]]) text.toList := by
    rw [← Json.read?_eq_some_iff]
    simp only [text, manifest, supervisor, updater, info, ipfs, release, string]
    rfl
  have hvaried : IsTextOf
      (.object [(some "since", since), updater, info [release, ipfs], supervisor])
      varied.toList := by
    rw [← Json.read?_eq_some_iff]
    simp only [varied, manifest, supervisor, updater, info, ipfs, release, since, string]
    rfl
  have hspoiled : IsTextOf
      (.object [supervisor, updater, info [(some "ipfs", .number "0"), ipfs, release]])
      spoiled.toList := by
    rw [← Json.read?_eq_some_iff]
    simp only [spoiled, manifest, supervisor, updater, info, ipfs, release, string]
    rfl
  have hread : read? text = some refs := read?_eq_some_iff.2 ⟨_, htext, rfl⟩
  -- how the other values differ from the first one
  have hvaries : Varies .refs (.object [supervisor, updater, info [ipfs, release]])
      (.object [(some "since", since), updater, info [release, ipfs], supervisor]) := by
    have hinside : Varies .info (.object [ipfs, release]) (.object [release, ipfs]) :=
      .permute (.swap _ _ _)
    have hrefs : Varies .refs (.object [supervisor, updater, info [ipfs, release]])
        (.object [supervisor, updater, info [release, ipfs]]) :=
      .inside rfl hinside (.member [supervisor, updater] [])
    have horder : Varies .refs (.object [supervisor, updater, info [release, ipfs]])
        (.object [updater, info [release, ipfs], supervisor]) :=
      .permute ((List.Perm.swap _ _ _).trans (.cons _ (.swap _ _ _)))
    exact (hrefs.trans horder).trans (.unknown (by decide) since [] _)
  have hspoils : Spoils .refs (.object [supervisor, updater, info [ipfs, release]])
      (.object [supervisor, updater, info [(some "ipfs", .number "0"), ipfs, release]]) := by
    have hname : "ipfs" ∈ Level.info.names := by decide
    have hinside : Spoils .info (.object ([] ++ [ipfs, release]))
        (.object ([] ++ (some "ipfs", .number "0") :: [ipfs, release])) :=
      .again hname (.number "0") List.mem_cons_self
    exact .inside rfl hinside (.member [supervisor, updater] [])
  have hcomma : ¬ Blank ",".toList := by
    intro hblank
    have hc := hblank ',' (by decide)
    simp at hc
  obtain ⟨-, himmaterial⟩ := read?_immaterial hread
  obtain ⟨hsame, hrefused, hbehind⟩ := himmaterial _ htext
  exact ⟨hread, hsame _ _ hvaries hvaried, hrefused _ _ hspoils hspoiled, hbehind "," hcomma⟩

end Caretaker.ImageRefs
