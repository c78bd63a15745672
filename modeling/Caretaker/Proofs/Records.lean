import Mathlib.Data.List.Nodup
import Caretaker.Json.Record

/-!
# The fields of a record

What a record carries for a field does not depend on where in the object it stands, and not on
members with other names.  An object with a known name twice carries nothing.

Main definitions:

- `known`: the members of an object that have a known name.
- `Replaced`: a record whose value for one field was replaced by another one.
- `IsRecord`, `Carries`: the records with some field names, and what they carry for a field.

Main statements:

- `Fields.ofMembers?_eq_some_iff`: which objects have fields, and which fields they have.
- `fields?_perm`, `fields?_unknown`, `fields?_again`: members in another order, with an unknown one
  and with a known one twice.
- `required?_eq_some_iff`, `optional?_eq_some_iff`: what is read of a record is what it carries.
- `Fields.get?_middle`, `Replaced.exists_fields`: what one field more, or another value for a field,
  changes.
-/

namespace Caretaker.Json

/-! ## The value of a field -/

namespace Fields

variable {fields fields' front back : Fields} {name other : String} {value : Spelled}

theorem get?_eq_none_iff : fields.get? name = none ↔ name ∉ fields.map (·.1) := by
  simp only [get?, Option.map_eq_none_iff, List.find?_eq_none, beq_iff_eq, List.mem_map, not_exists,
    not_and]

theorem get?_cons (fields : Fields) (name other : String) (value : Spelled) :
    get? ((name, value) :: fields) other =
      if name = other then some value else fields.get? other := by
  by_cases h : name = other <;> simp [get?, h]

theorem get?_append (front back : Fields) (name : String) :
    get? (front ++ back) name = (front.get? name).or (back.get? name) := by
  simp only [get?, List.find?_append]
  cases List.find? (fun field => field.1 == name) front <;> rfl

/-- One field more changes nothing but the value for its own name. -/
theorem get?_middle (h : ((front ++ (name, value) :: back).map (·.1)).Nodup) (other : String) :
    get? (front ++ (name, value) :: back) other =
      if name = other then some value else get? (front ++ back) other := by
  rw [get?_append, get?_cons, get?_append]
  split
  next heq =>
    subst heq
    rw [List.map_append, List.map_cons, List.nodup_append] at h
    have hfront : front.get? name = none :=
      get?_eq_none_iff.2 fun hmem => h.2.2 name hmem name List.mem_cons_self rfl
    rw [hfront, Option.none_or]
  · rfl

theorem get?_eq_some_iff (h : (fields.map (·.1)).Nodup) :
    fields.get? name = some value ↔ (name, value) ∈ fields := by
  induction fields with
  | nil => simp [get?]
  | cons field fields ih =>
    obtain ⟨first, held⟩ := field
    obtain ⟨hnotMem, hnodup⟩ := List.nodup_cons.1 h
    rw [get?_cons, List.mem_cons]
    split
    next heq =>
      subst heq
      have hother : (first, value) ∉ fields := fun hmem =>
        hnotMem (List.mem_map.2 ⟨_, hmem, rfl⟩)
      simp [hother, eq_comm]
    next hne =>
      rw [ih hnodup]
      simp [Ne.symm hne]

/-- Whether fields have the same values as others for every name but one. -/
def AgreeBut (name : String) (fields fields' : Fields) : Prop :=
  ∀ other, name ≠ other → fields'.get? other = fields.get? other

/-- Fields in another order have the same values. -/
theorem get?_perm (h : (fields.map (·.1)).Nodup) (hperm : fields.Perm fields') (name : String) :
    fields'.get? name = fields.get? name := by
  have h' : (fields'.map (·.1)).Nodup := (hperm.map _).nodup_iff.1 h
  ext value
  rw [get?_eq_some_iff h', get?_eq_some_iff h, hperm.mem_iff]

theorem required?_of_get? {reader : Spelled → Option α} (h : fields.get? name = some value) :
    fields.required? name reader = reader value := by
  rw [required?, h, Option.bind_some]

/-- A field that may be missing is read where it is there and not null. -/
theorem optional?_of_get? {reader : Spelled → Option α} (h : fields.get? name = some value)
    (hnull : value ≠ .null) : fields.optional? name reader = (reader value).map some := by
  rw [optional?, h]
  split
  next heq => cases heq
  next heq => exact absurd (Option.some.inj heq) hnull
  next heq => rw [Option.some.inj heq]

end Fields

/-! ## The fields of an object -/

/-- The members of an object that have a known name. -/
def known (names : List String) (members : List (Option String × Spelled)) : Fields :=
  members.filterMap fun (key, value) =>
    (key.filter fun key => decide (key ∈ names)).map fun key => (key, value)

variable {names : List String} {key name : String} {value : Spelled} {fields : Fields}
  {front back members members' : List (Option String × Spelled)}

theorem known_cons_of_mem (h : name ∈ names) (value : Spelled)
    (members : List (Option String × Spelled)) :
    known names ((some name, value) :: members) = (name, value) :: known names members := by
  simp [known, h]

theorem known_cons_of_notMem (h : name ∉ names) (value : Spelled)
    (members : List (Option String × Spelled)) :
    known names ((some name, value) :: members) = known names members := by
  simp [known, h]

theorem known_append (front back : List (Option String × Spelled)) :
    known names (front ++ back) = known names front ++ known names back :=
  List.filterMap_append

/-- No known name comes twice when none does among the other members and they lack this one. -/
theorem nodup_known_middle (h : name ∈ names) :
    ((known names (front ++ (some name, value) :: back)).map (·.1)).Nodup ↔
      name ∉ (known names (front ++ back)).map (·.1) ∧
        ((known names (front ++ back)).map (·.1)).Nodup := by
  rw [known_append, known_cons_of_mem h, known_append, List.map_append, List.map_cons,
    List.nodup_middle, List.nodup_cons, ← List.map_append]

theorem forall_isSome_middle :
    (∀ member ∈ front ++ (some name, value) :: back, member.1.isSome) ↔
      ∀ member ∈ front ++ back, member.1.isSome := by
  simp only [List.forall_mem_append, List.forall_mem_cons, Option.isSome_some, true_and]

/-- An object has fields when each key spells a text and no known one comes twice; the fields are
then the members with known names. -/
theorem Fields.ofMembers?_eq_some_iff :
    ofMembers? names members = some fields ↔
      (∀ member ∈ members, member.1.isSome) ∧ ((known names members).map (·.1)).Nodup ∧
        fields = known names members := by
  induction members generalizing fields with
  | nil =>
    exact ⟨fun h => ⟨by simp, by simp [known], (Option.some.inj h).symm⟩,
      fun ⟨_, _, h⟩ => congrArg some h.symm⟩
  | cons member members ih =>
    obtain ⟨key, value⟩ := member
    cases key with
    | none => simp [ofMembers?]
    | some key =>
      constructor
      · intro h
        rw [ofMembers?] at h
        split at h
        · cases h
        next rest hrest =>
          obtain ⟨hkeys, hnodup, rfl⟩ := ih.1 hrest
          have hall : ∀ member ∈ (some key, value) :: members, member.1.isSome :=
            List.forall_mem_cons.2 ⟨rfl, hkeys⟩
          split at h
          next hkey =>
            split at h
            · cases h
            next hany =>
              have hnew : key ∉ (known names members).map (·.1) := by simpa using hany
              rw [known_cons_of_mem hkey]
              exact ⟨hall, List.nodup_cons.2 ⟨hnew, hnodup⟩, (Option.some.inj h).symm⟩
          next hkey =>
            rw [known_cons_of_notMem hkey]
            exact ⟨hall, hnodup, (Option.some.inj h).symm⟩
      · rintro ⟨hkeys, hnodup, rfl⟩
        obtain ⟨-, hkeys⟩ := List.forall_mem_cons.1 hkeys
        by_cases hkey : key ∈ names
        · rw [known_cons_of_mem hkey] at hnodup ⊢
          obtain ⟨hnew, hnodup⟩ := List.nodup_cons.1 hnodup
          have hany : ¬ (known names members).any (·.1 == key) = true := by simpa using hnew
          rw [ofMembers?, ih.2 ⟨hkeys, hnodup, rfl⟩]
          simp only [if_pos hkey, if_neg hany]
        · rw [known_cons_of_notMem hkey] at hnodup ⊢
          rw [ofMembers?, ih.2 ⟨hkeys, hnodup, rfl⟩]
          simp only [if_neg hkey]

theorem fields?_object_eq_some_iff :
    (Tree.object members).fields? names = some fields ↔
      (∀ member ∈ members, member.1.isSome) ∧ ((known names members).map (·.1)).Nodup ∧
        fields = known names members :=
  Fields.ofMembers?_eq_some_iff

/-- The order of the members does not matter. -/
theorem fields?_perm (h : members.Perm members')
    (hfields : (Tree.object members).fields? names = some fields) :
    ∃ fields', (Tree.object members').fields? names = some fields' ∧
      ∀ name, fields'.get? name = fields.get? name := by
  obtain ⟨hkeys, hnodup, rfl⟩ := fields?_object_eq_some_iff.1 hfields
  have hperm : (known names members).Perm (known names members') := h.filterMap _
  refine ⟨known names members', fields?_object_eq_some_iff.2 ⟨fun member hmember => ?_, ?_, rfl⟩,
    Fields.get?_perm hnodup hperm⟩
  · exact hkeys member (h.mem_iff.2 hmember)
  · exact (hperm.map _).nodup_iff.1 hnodup

/-- A member with an unknown name does not matter. -/
theorem fields?_unknown (h : name ∉ names) (value : Spelled)
    (front back : List (Option String × Spelled)) :
    (Tree.object (front ++ (some name, value) :: back)).fields? names =
      (Tree.object (front ++ back)).fields? names := by
  have hknown : known names (front ++ (some name, value) :: back) =
      known names (front ++ back) := by
    rw [known_append, known_cons_of_notMem h, known_append]
  ext fields
  rw [fields?_object_eq_some_iff, fields?_object_eq_some_iff, hknown, forall_isSome_middle]

/-- An object with a known name twice has no fields. -/
theorem fields?_again (h : name ∈ names) (hmem : some name ∈ (front ++ back).map (·.1))
    (value : Spelled) :
    (Tree.object (front ++ (some name, value) :: back)).fields? names = none := by
  rw [Option.eq_none_iff_forall_ne_some]
  intro fields hfields
  obtain ⟨-, hnodup, -⟩ := fields?_object_eq_some_iff.1 hfields
  obtain ⟨⟨key, other⟩, hother, rfl⟩ := List.mem_map.1 hmem
  refine ((nodup_known_middle h).1 hnodup).1 (List.mem_map.2 ⟨(name, other), ?_, rfl⟩)
  exact List.mem_filterMap.2 ⟨(some name, other), hother, by simp [h]⟩

/-- Without one of its members an object has one field less. -/
theorem fields?_without (h : name ∈ names)
    (hfields : (Tree.object (front ++ (some name, value) :: back)).fields? names = some fields) :
    ∃ fields', (Tree.object (front ++ back)).fields? names = some fields' ∧
      fields.get? name = some value ∧ fields'.get? name = none ∧
      Fields.AgreeBut name fields fields' := by
  obtain ⟨hkeys, hnodup, rfl⟩ := fields?_object_eq_some_iff.1 hfields
  obtain ⟨hnew, hrest⟩ := (nodup_known_middle h).1 hnodup
  have hmiddle : known names (front ++ (some name, value) :: back) =
      known names front ++ (name, value) :: known names back := by
    rw [known_append, known_cons_of_mem h]
  rw [hmiddle] at hnodup ⊢
  refine ⟨known names (front ++ back),
    fields?_object_eq_some_iff.2 ⟨forall_isSome_middle.1 hkeys, hrest, rfl⟩, ?_,
    Fields.get?_eq_none_iff.2 hnew, fun other hne => ?_⟩
  · rw [Fields.get?_middle hnodup, if_pos rfl]
  · rw [Fields.get?_middle hnodup, if_neg hne, known_append]

/-! ## Another value for a field -/

/-- A record whose value for one field was replaced by another one. -/
inductive Replaced (names : List String) (name : String) (value value' : Spelled) :
    Spelled → Spelled → Prop where
  | member (front back : List (Option String × Spelled)) :
      Replaced names name value value' (.object (front ++ (some name, value) :: back))
        (.object (front ++ (some name, value') :: back))
  | item (front back : List Spelled) (h : names[front.length]? = some name) :
      Replaced names name value value' (.array (front ++ value :: back))
        (.array (front ++ value' :: back))

/-- The names of the items of an array are the first ones of all names. -/
theorem map_fst_zip_sublist (names : List String) (items : List Spelled) :
    ((names.zip items).map (·.1)).Sublist names := by
  induction names generalizing items with
  | nil => exact .slnil
  | cons name names ih =>
    cases items with
    | nil => exact List.nil_sublist _
    | cons item items => exact (ih items).cons_cons name

/-- The fields of a record stay, but for the value of the one. -/
theorem Replaced.exists_fields {value value' v v' : Spelled}
    (h : Replaced names name value value' v v') (hnames : names.Nodup) (hname : name ∈ names)
    (hfields : v.fields? names = some fields) :
    ∃ fields', v'.fields? names = some fields' ∧ fields.get? name = some value ∧
      fields'.get? name = some value' ∧ Fields.AgreeBut name fields fields' := by
  -- before and after, the one field stands between the same other ones
  have hget {front back : Fields} (hnodup : ((front ++ (name, value) :: back).map (·.1)).Nodup) :
      Fields.get? (front ++ (name, value) :: back) name = some value ∧
      Fields.get? (front ++ (name, value') :: back) name = some value' ∧
      Fields.AgreeBut name (front ++ (name, value) :: back) (front ++ (name, value') :: back) := by
    have hnodup' : ((front ++ (name, value') :: back).map (·.1)).Nodup := by
      rw [List.map_append, List.map_cons] at hnodup ⊢
      exact hnodup
    refine ⟨?_, ?_, fun other hne => ?_⟩
    · rw [Fields.get?_middle hnodup, if_pos rfl]
    · rw [Fields.get?_middle hnodup', if_pos rfl]
    · rw [Fields.get?_middle hnodup, Fields.get?_middle hnodup', if_neg hne, if_neg hne]
  cases h with
  | member front back =>
    obtain ⟨hkeys, hnodup, rfl⟩ := fields?_object_eq_some_iff.1 hfields
    have hkeys' : ∀ member ∈ front ++ (some name, value') :: back, member.1.isSome :=
      forall_isSome_middle.2 (forall_isSome_middle.1 hkeys)
    have hnodup' : ((known names (front ++ (some name, value') :: back)).map (·.1)).Nodup :=
      (nodup_known_middle hname).2 ((nodup_known_middle hname).1 hnodup)
    refine ⟨_, fields?_object_eq_some_iff.2 ⟨hkeys', hnodup', rfl⟩, ?_⟩
    rw [known_append, known_cons_of_mem hname] at hnodup ⊢
    rw [known_append, known_cons_of_mem hname]
    exact hget hnodup
  | item front back hat =>
    obtain ⟨hlt, rfl⟩ := List.getElem?_eq_some_iff.1 hat
    have hzip (value : Spelled) : names.zip (front ++ value :: back) =
        (names.take front.length).zip front ++
          (names[front.length], value) :: (names.drop (front.length + 1)).zip back := by
      have hsplit : names.take front.length ++
          names[front.length] :: names.drop (front.length + 1) = names := by
        rw [List.getElem_cons_drop, List.take_append_drop]
      have hlength : (names.take front.length).length = front.length :=
        List.length_take_of_le (Nat.le_of_lt hlt)
      conv_lhs => rw [← hsplit]
      rw [List.zip_append hlength, List.zip_cons_cons]
    have hnodup := hnames.sublist (map_fst_zip_sublist names (front ++ value :: back))
    rw [Tree.fields?] at hfields
    split at hfields
    next hlong =>
      cases hfields
      have hlong' : (front ++ value' :: back).length ≤ names.length := by simpa using hlong
      refine ⟨_, by rw [Tree.fields?, if_pos hlong'], ?_⟩
      rw [hzip] at hnodup ⊢
      rw [hzip]
      exact hget hnodup
    · cases hfields

/-! ## What a record carries -/

/-- Whether a value is a record with some field names, whatever it carries for them. -/
def IsRecord (names : List String) : Spelled → Prop
  | .object members =>
    (∀ member ∈ members, member.1.isSome) ∧ ((known names members).map (·.1)).Nodup
  | .array items => items.length ≤ names.length
  | _ => False

/-- Whether a record carries a value for a field. -/
def Carries (names : List String) (name : String) : Spelled → Spelled → Prop
  | .object members, value => (some name, value) ∈ members
  | .array items, value => (name, value) ∈ names.zip items
  | _, _ => False

/-- What is read for a field that may be missing or null. -/
inductive IsOptional {α : Type} (carries : Spelled → Prop) (reads : Spelled → α → Prop) :
    Option α → Prop where
  | missing (h : ∀ value, ¬ carries value) : IsOptional carries reads none
  | null (h : carries .null) : IsOptional carries reads none
  | value {value : Spelled} {a : α} (h : carries value) (hreads : reads value a) :
      IsOptional carries reads (some a)

variable {record : Spelled}

theorem exists_fields?_iff : (∃ fields, record.fields? names = some fields) ↔
    IsRecord names record := by
  cases record with
  | object members =>
    simp only [fields?_object_eq_some_iff, IsRecord]
    exact ⟨fun ⟨_, hkeys, hnodup, _⟩ => ⟨hkeys, hnodup⟩,
      fun ⟨hkeys, hnodup⟩ => ⟨_, hkeys, hnodup, rfl⟩⟩
  | _ => simp [Tree.fields?, IsRecord]

theorem get?_eq_some_iff_carries (hnames : names.Nodup) (hname : name ∈ names)
    (h : record.fields? names = some fields) (value : Spelled) :
    fields.get? name = some value ↔ Carries names name record value := by
  cases record with
  | object members =>
    obtain ⟨-, hnodup, rfl⟩ := fields?_object_eq_some_iff.1 h
    rw [Fields.get?_eq_some_iff hnodup]
    simp [known, Carries, hname]
  | array items =>
    rw [Tree.fields?] at h
    split at h
    · cases h
      rw [Fields.get?_eq_some_iff (hnames.sublist (map_fst_zip_sublist names items)), Carries]
    · cases h
  | _ => cases h

theorem required?_eq_some_iff {α : Type} {reader : Spelled → Option α} {a : α}
    (hnames : names.Nodup) (hname : name ∈ names) (h : record.fields? names = some fields) :
    fields.required? name reader = some a ↔
      ∃ value, Carries names name record value ∧ reader value = some a := by
  simp only [Fields.required?, Option.bind_eq_some_iff, get?_eq_some_iff_carries hnames hname h]

theorem optional?_eq_some_iff {α : Type} {reader : Spelled → Option α} {o : Option α}
    (hnames : names.Nodup) (hname : name ∈ names) (h : record.fields? names = some fields)
    (hnull : reader .null = none) : fields.optional? name reader = some o ↔
      IsOptional (Carries names name record) (fun value a => reader value = some a) o := by
  have hcarries := get?_eq_some_iff_carries hnames hname h
  unfold Fields.optional?
  constructor
  · intro hread
    split at hread
    · next hget =>
      cases hread
      refine .missing fun value hvalue => ?_
      rw [(hcarries value).2 hvalue] at hget
      cases hget
    · next hget =>
      cases hread
      exact .null ((hcarries .null).1 hget)
    · next value _ hget =>
      obtain ⟨a, ha, rfl⟩ := Option.map_eq_some_iff.1 hread
      exact .value ((hcarries value).1 hget) ha
  · intro hread
    cases hread with
    | missing hmissing =>
      have hget : fields.get? name = none :=
        Option.eq_none_iff_forall_ne_some.2 fun value hget =>
          hmissing value ((hcarries value).1 hget)
      rw [hget]
    | null hcarried => rw [(hcarries .null).2 hcarried]
    | @value value a hcarried ha =>
      rw [(hcarries value).2 hcarried]
      cases value with
      | null => simp [hnull] at ha
      | _ => simp [ha]

end Caretaker.Json
