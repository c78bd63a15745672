import Caretaker.Engine.CreateRequest
import Caretaker.Launch
import Caretaker.Proofs.RoundTrip
import Caretaker.Text.Split

/-!
# Release information on its way into a container

What is known about a release goes into the descriptor of a container as the value of a variable,
and into the request to the engine as a text with an equals sign between name and value.  A name
holds no equals sign, so the first one in the text is that one, however many the value has.  The
value is JSON, or empty where nothing is known, and is read back as what it was made of.

Main definitions:

- `declares`, `valueOf?`: a text that gives a value to a variable, and that value.

Main statements:

- `ofEnvironment?_releaseEnvironment`: release information is read back from its text.
- `filter_declares`: among the texts for a dictionary of variables, those for a name are what the
  dictionary has for it.
- `release_in_environment`: so a container gets the release information of the refs, once.
-/

namespace Caretaker

/-! ## Release information as text -/

/-- There is no number in release information. -/
theorem ReleaseInfo.numberless (info : ReleaseInfo) : Json.Numberless info.toJson := by
  simp [toJson, Release.toJson, Json.Numberless, Json.NumberlessMembers]

/-- The record of a release has each of its fields where the reader looks for it. -/
theorem Release.ofJson?_spelled (release : Release) :
    Release.ofJson? (Json.spelled release.toJson) = some release := by
  rfl

@[inherit_doc Release.ofJson?_spelled]
theorem ReleaseInfo.ofJson?_spelled (info : ReleaseInfo) :
    ReleaseInfo.ofJson? (Json.spelled info.toJson) = some info := by
  rfl

/-- Release information is read back from its text. -/
theorem ReleaseInfo.ofEnvironment?_toEnvironment (info : ReleaseInfo) :
    ReleaseInfo.ofEnvironment? info.toEnvironment = some info := by
  have hread : Json.read? (Json.write info.toJson) = some (Json.spelled info.toJson) :=
    Json.read?_write info.numberless
  have hnonempty : info.toEnvironment.isEmpty = false := by
    have hne : info.toEnvironment ≠ "" := by
      intro hempty
      have hchars := congrArg String.toList hempty
      simp [toEnvironment, Json.render, toJson, Json.write] at hchars
    simpa using hne
  rw [ofEnvironment?, if_neg (by simp [hnonempty]), toEnvironment, Json.render,
    String.toList_ofList, hread]
  exact ReleaseInfo.ofJson?_spelled info

/-- What is known about the release of some refs is read back from its text, also when that is
nothing. -/
theorem ImageRefs.ofEnvironment?_releaseEnvironment (refs : ImageRefs) :
    ReleaseInfo.ofEnvironment? refs.releaseEnvironment = refs.releaseInfo := by
  unfold releaseEnvironment
  cases refs.releaseInfo with
  | none => rfl
  | some info => exact info.ofEnvironment?_toEnvironment

/-! ## Variables as texts -/

namespace Engine

open Text (splitFirst? dropPattern?)

/-- Whether a text starts with a variable and an equals sign. -/
def declares (name entry : String) : Bool := (name ++ "=").toList.isPrefixOf entry.toList

/-- What a text has behind its first equals sign. -/
def valueOf? (entry : String) : Option String :=
  (splitFirst? ['='] entry.toList).map fun (_, value) => String.ofList value

/-- A name without an equals sign ends at the first one. -/
theorem splitFirst?_equals {name : List Char} (h : '=' ∉ name) (value : List Char) :
    splitFirst? ['='] (name ++ '=' :: value) = some (name, value) := by
  induction name with
  | nil => rfl
  | cons c name ih =>
    have hc : '=' ≠ c := fun heq => h (heq ▸ List.mem_cons_self)
    have hname : '=' ∉ name := fun hmem => h (List.mem_cons_of_mem _ hmem)
    simp [splitFirst?, dropPattern?, hc, ih hname]

theorem toList_entry (name value : String) :
    (name ++ "=" ++ value).toList = name.toList ++ '=' :: value.toList := by
  simp

/-- The value of a variable is behind the first equals sign. -/
theorem valueOf?_entry {name : String} (h : '=' ∉ name.toList) (value : String) :
    valueOf? (name ++ "=" ++ value) = some value := by
  rw [valueOf?, toList_entry, splitFirst?_equals h]
  simp only [Option.map_some, String.ofList_toList]

/-- A text for a variable is for no other. -/
theorem declares_entry {name key : String} (hname : '=' ∉ name.toList) (hkey : '=' ∉ key.toList)
    (value : String) : declares name (key ++ "=" ++ value) = (key == name) := by
  rw [Bool.eq_iff_iff, beq_iff_eq, declares, List.isPrefixOf_iff_prefix, toList_entry]
  constructor
  · rintro ⟨rest, hrest⟩
    have htext : name.toList ++ '=' :: rest = key.toList ++ '=' :: value.toList := by
      simpa using hrest
    -- both names end at the first equals sign of the one text
    have hsplit : some (name.toList, rest) = some (key.toList, value.toList) := by
      rw [← splitFirst?_equals hname, ← splitFirst?_equals hkey, htext]
    have hnames : name.toList = key.toList := by
      injection hsplit with hpair
      exact congrArg Prod.fst hpair
    exact (String.toList_inj.1 hnames).symm
  · rintro rfl
    exact ⟨value.toList, by simp⟩

/-- Among the texts for a dictionary of variables, those for a name are what the dictionary has for
it. -/
theorem filter_declares {name : String} (hname : '=' ∉ name.toList) (d : Dictionary String)
    (hkeys : ∀ e ∈ d.entries, '=' ∉ e.1.toList) :
    (d.entries.map fun (key, value) => key ++ "=" ++ value).filter (declares name) =
      ((d.get? name).map fun value => name ++ "=" ++ value).toList := by
  obtain ⟨entries, hordered⟩ := d
  simp only [Dictionary.get?]
  induction entries with
  | nil => rfl
  | cons head entries ih =>
    obtain ⟨key, value⟩ := head
    obtain ⟨hfirst, hrest⟩ := List.pairwise_cons.1 hordered
    have hkey : '=' ∉ key.toList := hkeys _ List.mem_cons_self
    have hrestKeys : ∀ e ∈ entries, '=' ∉ e.1.toList :=
      fun e he => hkeys e (List.mem_cons_of_mem _ he)
    have ih := ih hrest hrestKeys
    by_cases heq : key = name
    · subst heq
      -- later keys are greater, so no other text is for this name
      have hnone : (entries.map fun (key, value) => key ++ "=" ++ value).filter (declares key) = []
          := by
        rw [List.filter_eq_nil_iff]
        intro entry hentry
        obtain ⟨e, he, rfl⟩ := List.mem_map.1 hentry
        have hne : e.1 ≠ key := by
          intro heq
          have hlt := hfirst e he
          rw [heq] at hlt
          exact String.lt_irrefl _ hlt
        rw [declares_entry hname (hrestKeys e he)]
        simpa using hne
      rw [List.map_cons, List.filter_cons_of_pos (by rw [declares_entry hname hkey]; simp), hnone]
      simp
    · have hother : ¬ declares name (key ++ "=" ++ value) = true := by
        rw [declares_entry hname hkey]
        simpa using heq
      rw [List.map_cons, List.filter_cons_of_neg hother, ih,
        List.find?_cons_of_neg (by simpa using heq)]

/-! ## Containers -/

/-- No variable of a container has an equals sign in its name. -/
theorem environment_keys (role : Role) (settings : Settings) (image : String) (refs : ImageRefs) :
    ∀ e ∈ (role.descriptor settings image refs).environment.entries, '=' ∉ e.1.toList := by
  have hinsert : ∀ {key value value' : String}, '=' ∉ key.toList →
      ∀ e ∈ (Dictionary.ofList [(key, value), (releaseVariable, value')]).entries,
        '=' ∉ e.1.toList := by
    intro key value value' hkey e he
    rcases Dictionary.mem_place he with rfl | he
    · show '=' ∉ releaseVariable.toList
      decide
    · rcases Dictionary.mem_place he with rfl | he
      · exact hkey
      · cases he
  cases role with
  | updater => exact hinsert (by decide)
  | supervisor => exact hinsert (by decide)

/-- The release is the last variable that is set, so no other one takes its place. -/
theorem environment_release (role : Role) (settings : Settings) (image : String)
    (refs : ImageRefs) :
    (role.descriptor settings image refs).environment.get? releaseVariable =
      some refs.releaseEnvironment := by
  cases role with
  | updater => exact Dictionary.get?_insert_self _ _ _
  | supervisor => exact Dictionary.get?_insert_self _ _ _

/-- A container gets the release information of the refs: exactly one text in its environment is for
it, and what stands behind the first equals sign there is read as what the refs have, with nothing
known where they have nothing. -/
theorem release_in_environment (settings : Settings) (role : Role) (image : String)
    (refs : ImageRefs) :
    ∃ entry value,
      (CreateRequest.ofDescriptor (role.descriptor settings image refs)).environment.filter
        (declares releaseVariable) = [entry] ∧
      valueOf? entry = some value ∧
      ReleaseInfo.ofEnvironment? value = refs.releaseInfo := by
  have hname : '=' ∉ releaseVariable.toList := by decide
  have hfilter := filter_declares hname (role.descriptor settings image refs).environment
    (environment_keys role settings image refs)
  rw [environment_release, Option.map_some, Option.toList_some] at hfilter
  have hvalue := valueOf?_entry hname refs.releaseEnvironment
  have hread := refs.ofEnvironment?_releaseEnvironment
  exact ⟨_, _, hfilter, hvalue, hread⟩

end Engine
end Caretaker
