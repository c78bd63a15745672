import Caretaker.Proofs.Aftermath
import Caretaker.Proofs.Course
import Caretaker.Proofs.Tending

/-!
# Containers whose slot is empty

In memory a container can go on running under the name of a role while the slot of the role is
empty.  That comes of one turn: the container was in the slot and ran, no signal reached it, its
exit was confirmed all the same, and a later step failed.  Where a slot has a handle there is no
other container of its name.

Main statements:

- `Tracked`: what the crew can rely on, kept by all that tends and by every turn.
- `Turn.Changes.stray_own`, `Taken.stray`: how a role comes to have such a container.
-/

namespace Caretaker.Crew

open Container (Memory)
open Container.Memory (Bears Counted Owned Runs)

/-! ## Containers of roles -/

/-- What the crew can rely on in memory: ids are given once, each handle belongs to its role, and
where a slot has a handle no other container bears the name of the role. -/
structure Tracked (roster : Roster) (m : Memory) : Prop where
  counted : Counted m
  owned : HandlesOwned roster m
  sole : ∀ role handle, (roster.slot role).container = some handle →
    ∀ id, Bears role.containerName id m → id = handle.id

/-- Whether a container runs under the name of a role whose slot is empty. -/
def Stray (role : Role) (roster : Roster) (m : Memory) : Prop :=
  (roster.slot role).container = none ∧ ∃ id, Runs role.containerName id m

/-- Whether the container in the slot of a role runs. -/
def Manned (role : Role) (roster : Roster) (m : Memory) : Prop :=
  ∃ handle, (roster.slot role).container = some handle ∧ Runs role.containerName handle.id m

/-- Whether operations fail so that a replace passes over a container that runs, and starts none: no
signal reaches it, its exit is confirmed all the same, and a later step fails. -/
def Falters (m : Memory) : Prop :=
  .terminate ∈ m.failing ∧ .awaitExit ∉ m.failing ∧
    (.prune ∈ m.failing ∨ .awaitPrune ∈ m.failing ∨ .ensureImage ∈ m.failing ∨ .start ∈ m.failing)

section Tracked

variable {settings : Settings} {roster : Roster} {m m' : Memory} {role : Role} {id : String}
  {calls : List Exchange}

theorem Tracked.fresh : Tracked {} {} where
  counted id hid := by cases hid
  owned role handle hhandle := by cases role <;> cases hhandle
  sole role handle hhandle := by cases role <;> cases hhandle

/-- The id in the slot of one role is not that of a container under the name of the other. -/
theorem Tracked.ne_of_bears (h : Tracked roster m) {other : Role} {handle : Handle}
    (hhandle : (roster.slot other).container = some handle) (hother : other ≠ role)
    (hbears : Bears role.containerName id m) : id ≠ handle.id := by
  rintro rfl
  have hname := (h.owned other handle hhandle).name_eq_of_bears hbears
  exact hother (Role.containerName_injective hname).symm

/-- Which operations fail is no matter for the containers. -/
theorem Tracked.same (h : Tracked roster m)
    (hcontainers : m'.containers = m.containers) (hstarted : m'.started = m.started) :
    Tracked roster m' ∧ ∀ role, Stray role roster m' ↔ Stray role roster m := by
  obtain ⟨containers, failing, started, history⟩ := m
  obtain ⟨containers', failing', started', history'⟩ := m'
  obtain rfl : containers' = containers := hcontainers
  obtain rfl : started' = started := hstarted
  exact ⟨⟨h.counted, h.owned, h.sole⟩, fun role => Iff.rfl⟩

/-! ### Tending -/

theorem Tracked.tend (h : Tracked roster m)
    (hcalls : ∀ exchange ∈ calls, TendsHandle roster exchange.call)
    (hanswered : Answered m calls m') :
    Tracked roster m' ∧ ∀ role, Stray role roster m' ↔ Stray role roster m := by
  induction calls generalizing m with
  | nil =>
    obtain rfl : m' = m := hanswered
    exact ⟨h, fun role => Iff.rfl⟩
  | cons exchange calls ih =>
    obtain ⟨-, hrest⟩ := hanswered
    obtain ⟨tended, handle, hhandle, hcall⟩ := hcalls exchange List.mem_cons_self
    have hbears : ∀ name id, Bears name id (m.perform exchange.call).state ↔ Bears name id m :=
      fun name id => Container.Memory.bears_tend hcall
    have htracked : Tracked roster (m.perform exchange.call).state := by
      refine ⟨h.counted.perform _, ?_, ?_⟩
      · intro role handle hhandle
        exact (h.owned role handle hhandle).evolves (Container.Memory.perform_evolves _ m)
      · intro role handle hhandle id hid
        exact h.sole role handle hhandle id ((hbears _ _).1 hid)
    obtain ⟨htracked', hstray⟩ :=
      ih htracked (fun other hmem => hcalls other (List.mem_cons_of_mem _ hmem)) hrest
    refine ⟨htracked', fun role => (hstray role).trans ?_⟩
    refine and_congr_right fun hnone => exists_congr fun id => ?_
    -- The container that is tended is in the slot of the other role.
    have hother : tended ≠ role := by
      rintro rfl
      rw [hhandle] at hnone
      cases hnone
    by_cases hid : Bears role.containerName id m
    · have hne := h.ne_of_bears hhandle hother hid
      unfold Runs
      rw [Container.Memory.get?_tend_of_ne hcall hne]
    · constructor
      · intro hruns
        exact absurd ((hbears _ _).1 hruns.bears) hid
      · intro hruns
        exact absurd hruns.bears hid

/-! ### Turns -/

variable {turn : Turn} {slot' : Slot}

/-- Containers under the name of another role run on, and none is added. -/
theorem Turn.Changes.others (h : turn.Changes settings (roster.slot turn.role) calls slot')
    (hanswered : Answered m calls m') (htracked : Tracked roster m) (hrole : role ≠ turn.role) :
    (Bears role.containerName id m' → Bears role.containerName id m) ∧
      (Runs role.containerName id m' ↔ Runs role.containerName id m) := by
  have hspared : ∀ {p : Prop}, (Runs role.containerName id m ∧
      ((roster.slot turn.role).container.map (·.id) = some id → p)) ↔
        Runs role.containerName id m := by
    intro p
    refine ⟨fun h => h.1, fun hruns => ⟨hruns, fun hid => ?_⟩⟩
    obtain ⟨handle, hhandle, hsame⟩ := Option.map_eq_some_iff.1 hid
    exact absurd hsame.symm (htracked.ne_of_bears hhandle hrole.symm hruns.bears)
  have hname : role.containerName ≠ turn.role.containerName :=
    fun heq => hrole (Role.containerName_injective heq)
  cases h with
  | unchanged =>
    obtain rfl : m' = m := hanswered
    exact ⟨fun h => h, Iff.rfl⟩
  | attempted role' refs forced hneeded hends =>
    cases hends.aftermath hanswered htracked.counted with
    | kept hold hsame hexit hleft => exact ⟨hleft.bears _ _, (hleft.runs _ _).trans hspared⟩
    | lost hnone hexit hstep hleft => exact ⟨hleft.bears _ _, (hleft.runs _ _).trans hspared⟩
    | begun handle hsome howned hown hothers =>
      obtain ⟨hbears, hruns⟩ := hothers _ hname id
      exact ⟨hbears, hruns.trans hspared⟩

/-- A handle in a slot after a turn is alone with its name. -/
theorem Turn.Changes.handle (h : turn.Changes settings (roster.slot turn.role) calls slot')
    (hanswered : Answered m calls m') (htracked : Tracked roster m) {handle : Handle}
    (hhandle : slot'.container = some handle) :
    Owned turn.role.containerName handle.id m' ∧
      ∀ id, Bears turn.role.containerName id m' → id = handle.id := by
  have hbefore : (roster.slot turn.role).container = some handle →
      Owned turn.role.containerName handle.id m' := fun hhandle =>
    (htracked.owned _ handle hhandle).evolves hanswered.evolves
  cases h with
  | unchanged role refs himage =>
    obtain rfl : m' = m := hanswered
    exact ⟨hbefore hhandle, htracked.sole role handle hhandle⟩
  | attempted role refs forced hneeded hends =>
    cases hends.aftermath hanswered htracked.counted with
    | kept hold hsame hexit hleft =>
      have hthere := hsame.symm.trans hhandle
      refine ⟨hbefore hthere, fun id hid => ?_⟩
      exact htracked.sole role handle hthere id (hleft.bears _ _ hid)
    | lost hnone hexit hstep hleft =>
      rw [hnone] at hhandle
      cases hhandle
    | begun started hsome howned hown hothers =>
      obtain rfl : started = handle := Option.some.inj (hsome.symm.trans hhandle)
      exact ⟨howned, fun id => (hown id).1.1⟩

theorem Turn.Changes.tracked (h : turn.Changes settings (roster.slot turn.role) calls slot')
    (hanswered : Answered m calls m') (htracked : Tracked roster m) :
    Tracked (roster.put turn.role slot') m' := by
  refine ⟨hanswered.counted htracked.counted, ?_, ?_⟩
  · intro role handle hhandle
    by_cases hrole : role = turn.role
    · subst hrole
      rw [Roster.slot_put_self] at hhandle
      exact (h.handle hanswered htracked hhandle).1
    · rw [Roster.slot_put_ne _ _ hrole] at hhandle
      exact (htracked.owned role handle hhandle).evolves hanswered.evolves
  · intro role handle hhandle id hid
    by_cases hrole : role = turn.role
    · subst hrole
      rw [Roster.slot_put_self] at hhandle
      exact (h.handle hanswered htracked hhandle).2 id hid
    · rw [Roster.slot_put_ne _ _ hrole] at hhandle
      exact htracked.sole role handle hhandle id ((h.others hanswered htracked hrole).1 hid)

/-- A turn of one role makes no difference for the other. -/
theorem Turn.Changes.stray_other (h : turn.Changes settings (roster.slot turn.role) calls slot')
    (hanswered : Answered m calls m') (htracked : Tracked roster m) (hrole : role ≠ turn.role) :
    (Stray role (roster.put turn.role slot') m' ↔ Stray role roster m) ∧
      (Manned role (roster.put turn.role slot') m' ↔ Manned role roster m) := by
  unfold Stray Manned
  rw [Roster.slot_put_ne _ _ hrole]
  constructor
  · exact and_congr_right fun _ => exists_congr fun id => (h.others hanswered htracked hrole).2
  · refine exists_congr fun handle => and_congr_right fun _ => ?_
    exact (h.others hanswered htracked hrole).2

/-- After its turn a role has a stray container iff its slot is empty and there was one before, or
the turn passed over the container in its slot. -/
theorem Turn.Changes.stray_own (h : turn.Changes settings (roster.slot turn.role) calls slot')
    (hanswered : Answered m calls m') (htracked : Tracked roster m) :
    Stray turn.role (roster.put turn.role slot') m' ↔
      slot'.container = none ∧
        (Stray turn.role roster m ∨
          turn.attempted = true ∧ Manned turn.role roster m ∧ Falters m) := by
  unfold Stray
  rw [Roster.slot_put_self]
  refine and_congr_right fun hnone => ?_
  cases h with
  | unchanged role refs himage =>
    obtain rfl : m' = m := hanswered
    constructor
    · intro hruns
      exact .inl ⟨hnone, hruns⟩
    · rintro (⟨-, hruns⟩ | ⟨hattempted, -⟩)
      · exact hruns
      · cases hattempted
  | attempted role refs forced hneeded hends =>
    have hattempted : (Turn.mk role refs forced _).attempted = true := hends.attempted
    cases hends.aftermath hanswered htracked.counted with
    | kept hold hsame hexit hleft =>
      rw [← hsame, hnone] at hold
      cases hold
    | begun handle hsome howned hown hothers =>
      rw [hnone] at hsome
      cases hsome
    | lost hnone' hexit hstep hleft =>
      constructor
      · rintro ⟨id, hruns⟩
        obtain ⟨hruns, hsignal⟩ := (hleft.runs _ _).1 hruns
        cases hcontainer : (roster.slot role).container with
        | none => exact .inl ⟨rfl, id, hruns⟩
        | some handle =>
          -- The container that runs is the one that the slot had.
          have hid : id = handle.id := htracked.sole role handle hcontainer id hruns.bears
          rw [hid] at hruns
          refine .inr ⟨hattempted, ⟨handle, hcontainer, hruns⟩, ?_, hexit ?_, hstep⟩
          · refine hsignal ?_
            rw [hcontainer, hid]
            rfl
          · rw [hcontainer]
            rfl
      · rintro (⟨hempty, id, hruns⟩ | ⟨-, ⟨handle, hhandle, hruns⟩, hsignal, -⟩)
        · refine ⟨id, (hleft.runs _ _).2 ⟨hruns, ?_⟩⟩
          have hempty' : (roster.slot role).container = none := hempty
          rw [hempty']
          nofun
        · exact ⟨handle.id, (hleft.runs _ _).2 ⟨hruns, fun _ => hsignal⟩⟩

end Tracked

/-! ## Turns in order -/

/-- Turns as an operation gives them: none comes after a fatal failure, and if a role has more than
one they bring the same images, as far as needed. -/
def Orderly : List Turn → Prop
  | [] => True
  | turn :: turns =>
    (isFatal turn.result = true → turns = []) ∧
      (∀ later ∈ turns, later.refs = turn.refs ∧ later.forced = false) ∧ Orderly turns

theorem Visits.orderly {points : List (Role × ImageRefs)} {turns : List Turn} {refs : ImageRefs}
    (h : Visits points turns) (hrefs : ∀ point ∈ points, point.2 = refs) :
    Orderly turns ∧ ∀ turn ∈ turns, turn.refs = refs ∧ turn.forced = false := by
  induction h with
  | nil => exact ⟨trivial, List.forall_mem_nil _⟩
  | fatal role refs' hfatal =>
    obtain rfl : refs' = refs := hrefs (role, refs') List.mem_cons_self
    refine ⟨⟨fun _ => rfl, List.forall_mem_nil _, trivial⟩, fun turn hmem => ?_⟩
    obtain rfl := List.mem_singleton.1 hmem
    exact ⟨rfl, rfl⟩
  | next role refs' hresult hrest ih =>
    obtain rfl : refs' = refs := hrefs (role, refs') List.mem_cons_self
    obtain ⟨horderly, hall⟩ := ih fun point hmem => hrefs point (List.mem_cons_of_mem _ hmem)
    refine ⟨⟨fun hfatal => ?_, hall, horderly⟩, List.forall_mem_cons.2 ⟨⟨rfl, rfl⟩, hall⟩⟩
    rw [hresult] at hfatal
    cases hfatal

/-- A replace that ends with a container in the slot failed fatally or recorded the image. -/
theorem Ends.fatal_or_image {settings : Settings} {role : Role} {refs : ImageRefs}
    {slot slot' : Slot} {calls : List Exchange} {result : Replaced}
    (h : Ends settings role refs slot calls result slot') (hsome : slot'.container ≠ none) :
    isFatal result = true ∨ slot'.image = some (refs.of role) := by
  cases h with
  | exitUnconfirmed => exact .inl rfl
  | startUnconfirmed => exact .inl rfl
  | replaced => exact .inr rfl
  | pruneFailed => exact absurd rfl hsome
  | removalUnconfirmed => exact absurd rfl hsome
  | imageMissing => exact absurd rfl hsome
  | startFailed => exact absurd rfl hsome

section Taken

variable {settings : Settings} {turns : List Turn} {roster roster' : Roster}
  {calls : List Exchange} {m m' : Memory} {role : Role}

/-- Turns that bring an image which is recorded already leave the slot as it is. -/
theorem Taken.slot_of_recorded (h : Taken settings turns roster calls roster') {refs : ImageRefs}
    (hturns : ∀ turn ∈ turns, turn.refs = refs ∧ turn.forced = false)
    (himage : (roster.slot role).image = some (refs.of role)) :
    roster'.slot role = roster.slot role := by
  induction h with
  | nil => rfl
  | @cons turn turns roster roster' slot calls calls' hturn _ ih =>
    obtain ⟨hrefs, hforced⟩ := hturns turn List.mem_cons_self
    have hslot : (roster.put turn.role slot).slot role = roster.slot role := by
      by_cases hrole : role = turn.role
      · subst hrole
        rw [Roster.slot_put_self]
        cases hturn with
        | unchanged => rfl
        | attempted role refs' forced hneeded hends =>
          -- The role needs no other image.
          rcases hneeded with hneeded | hneeded
          · rw [hneeded] at hforced
            cases hforced
          · have hsame : refs' = refs := hrefs
            rw [hsame] at hneeded
            exact absurd himage hneeded
      · exact Roster.slot_put_ne _ _ hrole
    rw [ih (fun later hmem => hturns later (List.mem_cons_of_mem _ hmem)) (by rw [hslot, himage]),
      hslot]

theorem Taken.tracked (h : Taken settings turns roster calls roster')
    (hanswered : Answered m calls m') (htracked : Tracked roster m) : Tracked roster' m' := by
  induction h generalizing m with
  | nil =>
    obtain rfl : m' = m := hanswered
    exact htracked
  | cons hturn _ ih =>
    obtain ⟨m₁, hfirst, hrest⟩ := answered_append.1 hanswered
    exact ih hrest (hturn.tracked hfirst htracked)

/-- After orderly turns a role has a stray container iff its slot is empty and there was one before,
or one of its turns passed over the container that was in its slot. -/
theorem Taken.stray (h : Taken settings turns roster calls roster') (horderly : Orderly turns)
    (hanswered : Answered m calls m') (htracked : Tracked roster m) (role : Role) :
    Stray role roster' m' ↔
      (roster'.slot role).container = none ∧
        (Stray role roster m ∨
          (∃ turn ∈ turns, turn.role = role ∧ turn.attempted = true) ∧
            Manned role roster m ∧ Falters m) := by
  induction h generalizing m with
  | nil =>
    obtain rfl : m' = m := hanswered
    constructor
    · intro hstray
      exact ⟨hstray.1, .inl hstray⟩
    · rintro ⟨-, hstray | ⟨⟨turn, hmem, -⟩, -⟩⟩
      · exact hstray
      · cases hmem
  | @cons turn turns roster roster' slot calls calls' hturn htaken ih =>
    obtain ⟨m₁, hfirst, hrest⟩ := answered_append.1 hanswered
    obtain ⟨hfatal, hlater, horderly⟩ := horderly
    have hfalters : Falters m₁ ↔ Falters m := by
      unfold Falters
      rw [hfirst.failing]
    rw [ih horderly hrest (hturn.tracked hfirst htracked), hfalters]
    refine and_congr_right fun hnone => ?_
    by_cases hrole : role = turn.role
    · subst hrole
      have hown := hturn.stray_own hfirst htracked
      cases hturn with
      | unchanged role refs himage =>
        obtain rfl : m₁ = m := hfirst
        simp [Turn.attempted]
      | attempted role refs forced hneeded hends =>
        have hempty : slot.container = none := by
          by_contra hsome
          refine hsome ?_
          rw [← hnone]
          rcases hends.fatal_or_image hsome with hresult | himage
          · -- Nothing is done after a fatal failure.
            obtain rfl := hfatal hresult
            cases htaken
            rw [Roster.slot_put_self]
          · have hkept : roster'.slot role = (roster.put role slot).slot role :=
              htaken.slot_of_recorded hlater (by rw [Roster.slot_put_self, himage])
            rw [hkept, Roster.slot_put_self]
        have hattempted : (Turn.mk role refs forced _).attempted = true := hends.attempted
        constructor
        · rintro (hstray | ⟨-, ⟨handle, hhandle, -⟩, -⟩)
          · rcases (hown.1 hstray).2 with hbefore | ⟨-, hpassed⟩
            · exact .inl hbefore
            · exact .inr ⟨⟨_, List.mem_cons_self, rfl, hattempted⟩, hpassed⟩
          · -- The slot is empty after the turn.
            rw [Roster.slot_put_self, hempty] at hhandle
            cases hhandle
        · rintro (hbefore | ⟨-, hpassed⟩)
          · exact .inl (hown.2 ⟨hempty, .inl hbefore⟩)
          · exact .inl (hown.2 ⟨hempty, .inr ⟨hattempted, hpassed⟩⟩)
    · -- The turn makes no difference for the role.
      obtain ⟨hstray, hmanned⟩ := hturn.stray_other hfirst htracked hrole
      rw [hstray, hmanned]
      simp [Ne.symm hrole]

end Taken

end Caretaker.Crew
