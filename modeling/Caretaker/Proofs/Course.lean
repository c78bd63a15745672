import Mathlib.Data.List.Induction
import Caretaker.Proofs.History

/-!
# The course of updates through a stream

Each item of an image stream gives both roles a turn, the updater first.  The course of the updates
is the list of those turns.  It ends with the first that fails so badly that nothing more should be
done.

What a turn does follows from the turns before it: the role is given the image unless that is the
recorded one, and the recorded one is that of the latest turn that succeeded.

Main statements:

- `Visits.exists_iff`: a turn is reached iff none before it failed fatally.
- `Taken.attempted_iff`: a role is given an image iff that is not the recorded one.
- `Visits.not_attempted_of_ok`, `Visits.attempted_of_error`, `Visits.count_attempted`: what follows
  for streams in which an image comes again.
-/

namespace Caretaker.Crew

/-! ## The points of a stream -/

/-- The turns that a stream has in store, in order. -/
def points (items : List ImageRefs) : List (Role × ImageRefs) :=
  items.flatMap fun refs => [(.updater, refs), (.supervisor, refs)]

/-- The place of a role's turn at an item. -/
def place (i : Nat) : Role → Nat
  | .updater => 2 * i
  | .supervisor => 2 * i + 1

theorem place_lt_place {i j : Nat} {role : Role} : place i role < place j role ↔ i < j := by
  cases role <;> simp only [place] <;> omega

theorem getElem?_points (items : List ImageRefs) (i : Nat) (role : Role) :
    (points items)[place i role]? = items[i]?.map fun refs => (role, refs) := by
  induction items generalizing i with
  | nil => rfl
  | cons refs items ih =>
    cases i with
    | zero => cases role <;> rfl
    | succ i =>
      have hplace : place (i + 1) role = place i role + 1 + 1 := by
        cases role <;> simp only [place] <;> omega
      show ((.updater, refs) :: (.supervisor, refs) :: points items)[place (i + 1) role]? = _
      rw [hplace, List.getElem?_cons_succ, List.getElem?_cons_succ, ih i]
      rfl

/-- Every point is the turn of a role at an item. -/
theorem exists_of_getElem?_points {items : List ImageRefs} {p : Nat} {role : Role}
    {refs : ImageRefs} (h : (points items)[p]? = some (role, refs)) :
    ∃ i, p = place i role ∧ items[i]? = some refs := by
  have hp : p = place (p / 2) .updater ∨ p = place (p / 2) .supervisor := by
    simp only [place]
    omega
  rcases hp with hp | hp <;>
  · rw [hp, getElem?_points] at h
    obtain ⟨refs', hrefs, heq⟩ := Option.map_eq_some_iff.1 h
    obtain ⟨rfl, rfl⟩ := Prod.mk.inj heq
    exact ⟨_, hp, hrefs⟩

/-! ## Turns along points -/

/-- Turns that follow points, up to the first that fails fatally. -/
inductive Visits : List (Role × ImageRefs) → List Turn → Prop where
  | nil : Visits [] []
  | fatal {points : List (Role × ImageRefs)} (role : Role) (refs : ImageRefs) {result : Replaced}
      (hfatal : isFatal result = true) :
      Visits ((role, refs) :: points) [⟨role, refs, false, result⟩]
  | next {points : List (Role × ImageRefs)} {turns : List Turn} (role : Role) (refs : ImageRefs)
      {result : Replaced} (hresult : isFatal result = false) (hrest : Visits points turns) :
      Visits ((role, refs) :: points) (⟨role, refs, false, result⟩ :: turns)

namespace Visits

variable {points points' : List (Role × ImageRefs)} {turns turns' : List Turn}

/-- Once a turn failed fatally, there may be more points, but no more turns. -/
theorem append_of_fatal (h : Visits points turns)
    (hfatal : ∃ turn ∈ turns, isFatal turn.result = true) :
    Visits (points ++ points') turns := by
  induction h with
  | nil =>
    obtain ⟨turn, hmem, -⟩ := hfatal
    cases hmem
  | fatal role refs hresult => exact .fatal role refs hresult
  | next role refs hresult _ ih =>
    refine .next role refs hresult (ih ?_)
    obtain ⟨turn, hmem, hturn⟩ := hfatal
    rcases List.mem_cons.1 hmem with rfl | hmem
    · rw [hresult] at hturn
      cases hturn
    · exact ⟨turn, hmem, hturn⟩

/-- As long as no turn fails fatally, the turns at more points follow. -/
theorem append (h : Visits points turns) (hturns : ∀ turn ∈ turns, isFatal turn.result = false)
    (h' : Visits points' turns') : Visits (points ++ points') (turns ++ turns') := by
  induction h with
  | nil => exact h'
  | fatal role refs hresult =>
    rw [hturns _ List.mem_cons_self] at hresult
    cases hresult
  | next role refs hresult _ ih =>
    exact .next role refs hresult (ih fun turn hmem => hturns turn (List.mem_cons_of_mem _ hmem))

/-- A turn is one of the point at its place, and compares before it replaces. -/
theorem at_place (h : Visits points turns) {p : Nat} {turn : Turn} (hturn : turns[p]? = some turn) :
    points[p]? = some (turn.role, turn.refs) ∧ turn.forced = false := by
  induction h generalizing p with
  | nil => cases hturn
  | fatal role refs hresult =>
    cases p with
    | zero =>
      cases hturn
      exact ⟨rfl, rfl⟩
    | succ p => cases hturn
  | next role refs hresult _ ih =>
    cases p with
    | zero =>
      cases hturn
      exact ⟨rfl, rfl⟩
    | succ p => exact ih hturn

theorem not_forced (h : Visits points turns) {turn : Turn} (hturn : turn ∈ turns) :
    turn.forced = false := by
  obtain ⟨p, hp⟩ := List.getElem?_of_mem hturn
  exact (h.at_place hp).2

/-- The turn at a point is reached iff none before it failed fatally. -/
theorem exists_iff (h : Visits points turns) {p : Nat} {point : Role × ImageRefs}
    (hpoint : points[p]? = some point) :
    (∃ turn, turns[p]? = some turn) ↔ ∀ turn ∈ turns.take p, isFatal turn.result = false := by
  induction h generalizing p with
  | nil => cases hpoint
  | fatal role refs hresult =>
    cases p with
    | zero => simp
    | succ p => simp [hresult]
  | @next _ turns role refs result hresult _ ih =>
    cases p with
    | zero => simp
    | succ p =>
      rw [List.getElem?_cons_succ, List.take_succ_cons, List.forall_mem_cons, ih hpoint]
      exact ⟨fun hrest => ⟨hresult, hrest⟩, fun hrest => hrest.2⟩

/-- No turn comes after one that failed fatally. -/
theorem getLast?_of_fatal (h : Visits points turns) {turn : Turn} (hmem : turn ∈ turns)
    (hfatal : isFatal turn.result = true) : turns.getLast? = some turn := by
  induction h with
  | nil => cases hmem
  | fatal role refs hresult =>
    obtain rfl := List.mem_singleton.1 hmem
    rfl
  | next role refs hresult _ ih =>
    rcases List.mem_cons.1 hmem with rfl | hmem
    · rw [hresult] at hfatal
      cases hfatal
    · rw [List.getLast?_cons, ih hmem]
      rfl

/-- Every point has its turn where no turn fails fatally. -/
theorem map_eq (h : Visits points turns) (hturns : ∀ turn ∈ turns, isFatal turn.result = false) :
    turns.map (fun turn => (turn.role, turn.refs)) = points := by
  induction h with
  | nil => rfl
  | fatal role refs hresult =>
    rw [hturns _ List.mem_cons_self] at hresult
    cases hresult
  | next role refs hresult _ ih =>
    rw [List.map_cons, ih fun turn hmem => hturns turn (List.mem_cons_of_mem _ hmem)]

end Visits

/-! ## The turns of an application -/

/-- The turns of an application, with what became of each role. -/
def turnsOf (refs : ImageRefs) (updates : List RoleUpdate) : List Turn :=
  updates.map fun update => ⟨update.role, refs, false, update.result⟩

/-- An application goes from role to role, up to a fatal failure. -/
theorem yields_applyLocked (settings : Settings) (refs : ImageRefs) (roles : List Role) :
    (applyLocked settings refs roles).Yields fun updates =>
      Visits (roles.map fun role => (role, refs)) (turnsOf refs updates) := by
  induction roles with
  | nil => exact .nil
  | cons role roles ih =>
    refine Script.yields_bind _ fun result => ?_
    split
    · next hfatal => exact .fatal role refs hfatal
    · next hresult =>
      have hgoing : isFatal result = false := Bool.eq_false_iff.2 hresult
      exact ih.bind fun updates hvisits => .next role refs hgoing hvisits

/-! ## What a turn does to the recorded image -/

section Recorded

variable {settings : Settings} {turn : Turn} {turns : List Turn} {roster roster' : Roster}
  {slot slot' : Slot} {calls : List Exchange}

/-- A turn records its image if it succeeds, and else leaves the recorded one. -/
theorem Turn.Changes.image (h : turn.Changes settings slot calls slot') :
    slot'.image = if turn.succeeded then some (turn.refs.of turn.role) else slot.image := by
  cases h with
  | unchanged role refs himage => rfl
  | attempted role refs forced hneeded hends => cases hends <;> rfl

/-- After a turn that does not fail its image is the recorded one. -/
theorem Turn.Changes.image_of_ok (h : turn.Changes settings slot calls slot') {outcome : Outcome}
    (hok : turn.result = .ok outcome) : slot'.image = some (turn.refs.of turn.role) := by
  cases h with
  | unchanged role refs himage => exact himage
  | attempted role refs forced hneeded hends =>
    cases hends with
    | replaced => rfl
    | _ => cases hok

/-- A turn that is not forced gives the role its image iff that is not the recorded one. -/
theorem Turn.Changes.attempted_iff (h : turn.Changes settings slot calls slot')
    (hforced : turn.forced = false) :
    turn.attempted = true ↔ slot.image ≠ some (turn.refs.of turn.role) := by
  cases h with
  | unchanged role refs himage =>
    constructor
    · intro hattempted
      cases hattempted
    · exact fun hne => absurd himage hne
  | attempted role refs forced hneeded hends =>
    rcases hneeded with hneeded | hneeded
    · rw [hneeded] at hforced
      cases hforced
    · exact ⟨fun _ => hneeded, fun _ => hends.attempted⟩

/-- The image that is recorded for a role after turns: that of the latest success, or the one that
was recorded before them. -/
def recordedImage (roster : Roster) (turns : List Turn) (role : Role) : Option String :=
  match latestSuccess role turns.reverse with
  | some refs => some (refs.of role)
  | none => (roster.slot role).image

theorem recordedImage_concat (roster : Roster) (turns : List Turn) (turn : Turn) (role : Role) :
    recordedImage roster (turns ++ [turn]) role =
      if turn.role = role ∧ turn.succeeded = true then some (turn.refs.of role)
      else recordedImage roster turns role := by
  unfold recordedImage latestSuccess
  rw [List.reverse_append, List.reverse_singleton, List.singleton_append]
  by_cases hrole : turn.role = role
  · cases hsucceeded : turn.succeeded with
    | true => simp [latest_cons_of_test hrole hsucceeded, hrole]
    | false => simp [latest_cons_of_not_test hsucceeded]
  · simp [latest_cons_of_ne hrole, hrole]

/-- What holds of the recorded image after some turns, and of each image that later turns bring,
holds of the image that is recorded in the end. -/
theorem recordedImage_append {role : Role} {between : List Turn} (p : Option String → Prop)
    (hbefore : p (recordedImage roster turns role))
    (hbetween : ∀ turn ∈ between, turn.role = role → p (some (turn.refs.of role))) :
    p (recordedImage roster (turns ++ between) role) := by
  induction between using List.reverseRecOn with
  | nil => rwa [List.append_nil]
  | append_singleton between turn ih =>
    rw [← List.append_assoc, recordedImage_concat]
    split
    · next hturn => exact hbetween turn (by simp) hturn.1
    · exact ih fun other hmem => hbetween other (List.mem_append_left _ hmem)

/-! ## Turns that were taken -/

theorem Taken.of_append {before after : List Turn}
    (h : Taken settings (before ++ after) roster calls roster') :
    ∃ calls₁ calls₂ roster₁, Taken settings before roster calls₁ roster₁ ∧
      Taken settings after roster₁ calls₂ roster' := by
  induction before generalizing roster calls with
  | nil => exact ⟨[], calls, roster, .nil roster, h⟩
  | cons turn before ih =>
    cases h with
    | cons hturn hrest =>
      obtain ⟨calls₁, calls₂, roster₁, hbefore, hafter⟩ := ih hrest
      exact ⟨_, calls₂, roster₁, .cons hturn hbefore, hafter⟩

/-- The recorded image follows from the turns. -/
theorem Taken.image (h : Taken settings turns roster calls roster') (role : Role) :
    (roster'.slot role).image = recordedImage roster turns role := by
  induction turns using List.reverseRecOn generalizing calls roster' with
  | nil =>
    cases h
    rfl
  | append_singleton turns turn ih =>
    obtain ⟨calls₁, calls₂, roster₁, hbefore, hturn⟩ := h.of_append
    obtain ⟨slot, hchanges, rfl⟩ := hturn.of_single
    rw [recordedImage_concat]
    by_cases hrole : turn.role = role
    · subst hrole
      rw [Roster.slot_put_self, hchanges.image, ih hbefore]
      simp
    · rw [Roster.slot_put_ne _ _ (Ne.symm hrole), ih hbefore]
      simp [hrole]

/-- A role is given an image iff that is not the recorded one. -/
theorem Taken.attempted_iff (h : Taken settings turns roster calls roster') {p : Nat}
    (hturn : turns[p]? = some turn) (hforced : turn.forced = false) :
    turn.attempted = true ↔
      recordedImage roster (turns.take p) turn.role ≠ some (turn.refs.of turn.role) := by
  obtain ⟨hp, rfl⟩ := List.getElem?_eq_some_iff.1 hturn
  rw [← List.take_append_drop p turns, List.drop_eq_getElem_cons hp] at h
  obtain ⟨calls₁, calls₂, roster₁, hbefore, hafter⟩ := h.of_append
  cases hafter with
  | cons hchanges _ => rw [hchanges.attempted_iff hforced, hbefore.image]

/-! ## Images that come again -/

/-- Turns between two places have places between them. -/
theorem exists_place_of_mem_drop_take {p q : Nat} (h : turn ∈ (turns.take q).drop p) :
    ∃ n, p ≤ n ∧ n < q ∧ turns[n]? = some turn := by
  obtain ⟨m, hm⟩ := List.getElem?_of_mem h
  rw [List.getElem?_drop, List.getElem?_take] at hm
  split at hm
  · next hlt => exact ⟨p + m, Nat.le_add_right p m, hlt, hm⟩
  · cases hm

/-- What holds of the recorded image after the turn at `p`, and of each image that the role is to be
given between `p` and `q`, holds of the recorded image before the turn at `q`. -/
theorem recordedImage_between {role : Role} {p q : Nat} (hpq : p < q)
    (hturn : turns[p]? = some turn) (holds : Option String → Prop)
    (hafter : holds (recordedImage roster (turns.take p ++ [turn]) role))
    (hbetween : ∀ n other, p < n → n < q → turns[n]? = some other → other.role = role →
      holds (some (other.refs.of role))) :
    holds (recordedImage roster (turns.take q) role) := by
  have hsplit : turns.take q = turns.take p ++ [turn] ++ (turns.take q).drop (p + 1) := by
    have hp : turns.take p ++ [turn] = (turns.take q).take (p + 1) := by
      rw [List.take_take, Nat.min_eq_left hpq, List.take_add_one, hturn]
      rfl
    rw [hp, List.take_append_drop]
  rw [hsplit]
  refine recordedImage_append holds hafter fun other hmem hrole => ?_
  obtain ⟨n, hn, hlt, hother⟩ := exists_place_of_mem_drop_take hmem
  exact hbetween n other hn hlt hother hrole

/-- After a turn that did not fail its image is the recorded one. -/
theorem Taken.recordedImage_of_ok (h : Taken settings turns roster calls roster') {p : Nat}
    (hturn : turns[p]? = some turn) (hforced : turn.forced = false) {outcome : Outcome}
    (hok : turn.result = .ok outcome) :
    recordedImage roster (turns.take p ++ [turn]) turn.role =
      some (turn.refs.of turn.role) := by
  rw [recordedImage_concat]
  cases outcome with
  | replaced image containerId =>
    have hsucceeded : turn.succeeded = true := by rw [Turn.succeeded, hok]
    rw [if_pos ⟨rfl, hsucceeded⟩]
  | unchanged =>
    have hsucceeded : turn.succeeded = false := by rw [Turn.succeeded, hok]
    have hattempted : turn.attempted = false := by rw [Turn.attempted, hok]
    have hiff := h.attempted_iff hturn hforced
    rw [hattempted] at hiff
    rw [hsucceeded, if_neg (by simp)]
    by_contra hne
    cases hiff.2 hne

/-- After a turn that failed its image is not the recorded one. -/
theorem Taken.recordedImage_of_error (h : Taken settings turns roster calls roster') {p : Nat}
    (hturn : turns[p]? = some turn) (hforced : turn.forced = false) {e : ReplaceError}
    (herror : turn.result = .error e) :
    recordedImage roster (turns.take p ++ [turn]) turn.role ≠
      some (turn.refs.of turn.role) := by
  have hsucceeded : turn.succeeded = false := by rw [Turn.succeeded, herror]
  have hattempted : turn.attempted = true := by rw [Turn.attempted, herror]
  rw [recordedImage_concat, hsucceeded, if_neg (by simp)]
  exact (h.attempted_iff hturn hforced).1 hattempted

/-! ## Runs without failures -/

/-- The images that a role is to be given by turns, in order. -/
def targets (role : Role) (turns : List Turn) : List String :=
  (turns.filter (·.role = role)).map (·.refs.of role)

/-- At how many places the image differs from the one before it, the first one from `recorded`. -/
def changes (recorded : Option String) : List String → Nat
  | [] => 0
  | target :: targets =>
    (if recorded = some target then 0 else 1) + changes (some target) targets

/-- Where no turn fails, a role is given an image as often as the image differs from the one before
it, and the last one is recorded in the end. -/
theorem Taken.count_attempted (h : Taken settings turns roster calls roster') (role : Role)
    (hforced : ∀ turn ∈ turns, turn.forced = false)
    (hok : ∀ turn ∈ turns, ∃ outcome, turn.result = .ok outcome) :
    (turns.filter fun turn => turn.role = role && turn.attempted).length =
        changes (roster.slot role).image (targets role turns) ∧
      (roster'.slot role).image =
        (targets role turns).getLast?.or (roster.slot role).image := by
  induction h with
  | nil => exact ⟨rfl, rfl⟩
  | @cons turn turns roster roster' slot calls calls' hturn hrest ih =>
    obtain ⟨hcount, himage⟩ := ih (fun other hmem => hforced other (List.mem_cons_of_mem _ hmem))
      fun other hmem => hok other (List.mem_cons_of_mem _ hmem)
    have hturnForced : turn.forced = false := hforced turn List.mem_cons_self
    by_cases hrole : turn.role = role
    · subst hrole
      obtain ⟨outcome, hturnOk⟩ := hok turn List.mem_cons_self
      have himage' : slot.image = some (turn.refs.of turn.role) := hturn.image_of_ok hturnOk
      have hiff := hturn.attempted_iff hturnForced
      have htargets : targets turn.role (turn :: turns) =
          turn.refs.of turn.role :: targets turn.role turns := by
        simp [targets]
      rw [Roster.slot_put_self, himage'] at hcount himage
      rw [htargets, changes, ← hcount, himage]
      refine ⟨?_, ?_⟩
      · by_cases hrecorded : (roster.slot turn.role).image = some (turn.refs.of turn.role)
        · have hattempted : turn.attempted = false := by
            rw [← Bool.not_eq_true, hiff]
            exact not_not_intro hrecorded
          simp [hattempted, hrecorded]
        · simp [hiff.2 hrecorded, hrecorded, Nat.add_comm]
      · rw [List.getLast?_cons]
        cases (targets turn.role turns).getLast? <;> rfl
    · -- A turn of the other role.
      rw [Roster.slot_put_ne _ _ (Ne.symm hrole)] at hcount himage
      have htargets : targets role (turn :: turns) = targets role turns := by
        simp [targets, hrole]
      rw [htargets, ← hcount]
      exact ⟨by simp [hrole], himage⟩

end Recorded

/-! ## Streams -/

section Streams

variable {settings : Settings} {items : List ImageRefs} {turns : List Turn}
  {roster roster' : Roster} {calls : List Exchange} {role : Role} {refs : ImageRefs} {i j : Nat}

/-- Whether a role was tried to be given its image at an item. -/
def Attempted (turns : List Turn) (i : Nat) (role : Role) : Prop :=
  ∃ turn, turns[place i role]? = some turn ∧ turn.attempted = true

theorem Visits.at_item (h : Visits (points items) turns) {turn : Turn}
    (hturn : turns[place i role]? = some turn) :
    turn.role = role ∧ items[i]? = some turn.refs ∧ turn.forced = false := by
  obtain ⟨hpoint, hforced⟩ := h.at_place hturn
  rw [getElem?_points] at hpoint
  obtain ⟨refs, hitem, heq⟩ := Option.map_eq_some_iff.1 hpoint
  obtain ⟨rfl, rfl⟩ := Prod.mk.inj heq
  exact ⟨rfl, hitem, hforced⟩

/-- A role is tried to be given its image at an item iff the updates came that far and the image is
not the recorded one. -/
theorem Visits.attempted_iff (h : Visits (points items) turns)
    (htaken : Taken settings turns roster calls roster') (hitem : items[i]? = some refs) :
    Attempted turns i role ↔
      (∀ turn ∈ turns.take (place i role), isFatal turn.result = false) ∧
        recordedImage roster (turns.take (place i role)) role ≠ some (refs.of role) := by
  have hpoint : (points items)[place i role]? = some (role, refs) := by
    rw [getElem?_points, hitem]
    rfl
  rw [← h.exists_iff hpoint]
  constructor
  · rintro ⟨turn, hturn, hattempted⟩
    obtain ⟨rfl, hitem', hforced⟩ := h.at_item hturn
    obtain rfl := Option.some.inj (hitem.symm.trans hitem')
    exact ⟨⟨turn, hturn⟩, (htaken.attempted_iff hturn hforced).1 hattempted⟩
  · rintro ⟨⟨turn, hturn⟩, hne⟩
    obtain ⟨rfl, hitem', hforced⟩ := h.at_item hturn
    obtain rfl := Option.some.inj (hitem.symm.trans hitem')
    exact ⟨turn, hturn, (htaken.attempted_iff hturn hforced).2 hne⟩

/-- A turn between two turns of its role belongs to an item between theirs. -/
theorem Visits.exists_item_between (h : Visits (points items) turns) {n : Nat} {turn : Turn}
    (hn : place i role < n) (hn' : n < place j role) (hturn : turns[n]? = some turn)
    (hrole : turn.role = role) : ∃ k, i < k ∧ k < j ∧ items[k]? = some turn.refs := by
  subst hrole
  obtain ⟨k, rfl, hitem⟩ := exists_of_getElem?_points (h.at_place hturn).1
  exact ⟨k, place_lt_place.1 hn, place_lt_place.1 hn', hitem⟩

/-- Once a role was given an image, it is not given it again by the items that follow with the same
image. -/
theorem Visits.not_attempted_of_ok (h : Visits (points items) turns)
    (htaken : Taken settings turns roster calls roster') {turn : Turn} {outcome : Outcome}
    (hturn : turns[place i role]? = some turn) (hok : turn.result = .ok outcome) (hij : i < j)
    (hsame : ∀ k refs, i < k → k ≤ j → items[k]? = some refs →
      refs.of role = turn.refs.of role) :
    ¬ Attempted turns j role := by
  rintro ⟨turn', hturn', hattempted⟩
  obtain ⟨rfl, -, hforced⟩ := h.at_item hturn
  obtain ⟨-, hj, -⟩ := h.at_item hturn'
  -- The image stays the recorded one up to the second turn.
  have hrecorded : recordedImage roster (turns.take (place j turn.role)) turn.role =
      some (turn.refs.of turn.role) := by
    refine recordedImage_between (place_lt_place.2 hij) hturn
      (· = some (turn.refs.of turn.role)) (htaken.recordedImage_of_ok hturn hforced hok) ?_
    intro n other hn hn' hother hrole
    obtain ⟨k, hk, hk', hitem⟩ := h.exists_item_between hn hn' hother hrole
    exact congrArg some (hsame k other.refs hk (Nat.le_of_lt hk') hitem)
  have hne := ((h.attempted_iff htaken hj).1 ⟨turn', hturn', hattempted⟩).2
  rw [hsame j turn'.refs hij (Nat.le_refl j) hj] at hne
  exact hne hrecorded

/-- After a failure that was not fatal a role is tried to be given the image again, by the next item
with the same image. -/
theorem Visits.attempted_of_error (h : Visits (points items) turns)
    (htaken : Taken settings turns roster calls roster') {turn : Turn} {e : ReplaceError}
    (hturn : turns[place i role]? = some turn) (herror : turn.result = .error e) (hij : i < j)
    (hj : items[j]? = some refs) (hsame : refs.of role = turn.refs.of role)
    (hothers : ∀ k refs, i < k → k < j → items[k]? = some refs →
      refs.of role ≠ turn.refs.of role)
    (hreached : ∀ turn ∈ turns.take (place j role), isFatal turn.result = false) :
    Attempted turns j role := by
  obtain ⟨rfl, -, hforced⟩ := h.at_item hturn
  refine (h.attempted_iff htaken hj).2 ⟨hreached, ?_⟩
  rw [hsame]
  refine recordedImage_between (place_lt_place.2 hij) hturn
    (· ≠ some (turn.refs.of turn.role)) (htaken.recordedImage_of_error hturn hforced herror) ?_
  intro n other hn hn' hother hrole
  obtain ⟨k, hk, hk', hitem⟩ := h.exists_item_between hn hn' hother hrole
  exact fun heq => hothers k other.refs hk hk' hitem (Option.some.inj heq)

/-- The images that a role is to be given by all the turns of a stream are those of the items. -/
theorem targets_of_points (role : Role)
    (h : turns.map (fun turn => (turn.role, turn.refs)) = points items) :
    targets role turns = items.map (·.of role) := by
  have htargets : targets role turns =
      ((turns.map fun turn => (turn.role, turn.refs)).filter (·.1 = role)).map (·.2.of role) := by
    rw [List.filter_map, List.map_map]
    rfl
  rw [htargets, h]
  clear h htargets
  induction items with
  | nil => rfl
  | cons refs items ih =>
    rw [points, List.flatMap_cons, ← points, List.filter_append, List.map_append, ih]
    cases role <;> rfl

/-- In a run without failures a role is given an image as often as its image changes, and the image
of the last item is recorded in the end. -/
theorem Visits.count_attempted (h : Visits (points items) turns)
    (htaken : Taken settings turns roster calls roster') (role : Role)
    (hok : ∀ turn ∈ turns, ∃ outcome, turn.result = .ok outcome) :
    (turns.filter fun turn => turn.role = role && turn.attempted).length =
        changes (roster.slot role).image (items.map (·.of role)) ∧
      (roster'.slot role).image =
        (items.map (·.of role)).getLast?.or (roster.slot role).image := by
  have hmap := h.map_eq fun turn hmem => by
    obtain ⟨outcome, hresult⟩ := hok turn hmem
    rw [hresult]
    rfl
  rw [← targets_of_points role hmap]
  exact htaken.count_attempted role (fun turn hmem => h.not_forced hmem) hok

end Streams

end Caretaker.Crew
