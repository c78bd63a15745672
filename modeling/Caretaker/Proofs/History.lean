import Caretaker.Proofs.Kept

/-!
# What a slot tells of its past

The slot of a role follows from the turns the role had, and from nothing else.  So each of its parts
can be read as a fact about the past: the recorded image is that of the latest replace that
succeeded, the phase tells how the latest attempt ended, and a container is one that the latest
replace started that got past the container before it.

Main statements:

- `History.image`, `History.ends`, `History.container`: what the parts of a slot tell.
- `kept_history`: sessions keep that every slot follows from the turns.
-/

namespace Caretaker.Crew

/-! ## Turns of the past -/

namespace Turn

/-- Whether a turn gave the role its image. -/
def succeeded (turn : Turn) : Bool :=
  match turn.result with
  | .ok (.replaced _ _) => true
  | _ => false

/-- Whether a turn tried to give the role its image. -/
def attempted (turn : Turn) : Bool :=
  match turn.result with
  | .ok .unchanged => false
  | _ => true

/-- Whether a turn got past the container that was there before. -/
def cleared (turn : Turn) : Bool :=
  match turn.result with
  | .ok .unchanged => false
  | .ok (.replaced _ _) => true
  | .error e => e.step ≠ .confirmExit

theorem attempted_of_succeeded {turn : Turn} (h : turn.succeeded = true) :
    turn.attempted = true := by
  unfold succeeded at h
  unfold attempted
  split at h
  · next hresult => rw [hresult]
  · cases h

end Turn

/-- The latest turn of a role that passes a test. -/
def latest (role : Role) (test : Turn → Bool) (turns : List Turn) : Option Turn :=
  turns.find? fun turn => turn.role = role && test turn

/-- The refs of the latest replace of a role that succeeded. -/
def latestSuccess (role : Role) (turns : List Turn) : Option ImageRefs :=
  (latest role Turn.succeeded turns).map (·.refs)

section Latest

variable {role : Role} {test : Turn → Bool} {turn : Turn} {turns : List Turn}

theorem latest_cons_of_ne (hrole : turn.role ≠ role) :
    latest role test (turn :: turns) = latest role test turns := by
  simp [latest, hrole]

theorem latest_cons_of_test (hrole : turn.role = role) (htest : test turn = true) :
    latest role test (turn :: turns) = some turn := by
  simp [latest, hrole, htest]

theorem latest_cons_of_not_test (htest : test turn = false) :
    latest role test (turn :: turns) = latest role test turns := by
  simp [latest, htest]

/-- A latest attempt that succeeded is the latest success. -/
theorem latestSuccess_of_attempt (h : latest role Turn.attempted turns = some turn)
    (hturn : turn.succeeded = true) : latestSuccess role turns = some turn.refs := by
  induction turns with
  | nil => cases h
  | cons head turns ih =>
    by_cases hrole : head.role = role
    · cases hattempted : head.attempted with
      | true =>
        rw [latest_cons_of_test hrole hattempted] at h
        cases h
        unfold latestSuccess
        rw [latest_cons_of_test hrole hturn]
        rfl
      | false =>
        have hsucceeded : head.succeeded = false := by
          by_contra hnot
          rw [Turn.attempted_of_succeeded (Bool.of_not_eq_false hnot)] at hattempted
          cases hattempted
        rw [latest_cons_of_not_test hattempted] at h
        unfold latestSuccess
        rw [latest_cons_of_not_test hsucceeded]
        exact ih h
    · rw [latest_cons_of_ne hrole] at h
      unfold latestSuccess
      rw [latest_cons_of_ne hrole]
      exact ih h

end Latest

/-! ## Histories -/

/-- A slot of a role as it follows from turns, the last one first, whose calls were answered
faithfully. -/
inductive History (settings : Settings) (role : Role) : List Turn → Slot → Prop where
  | unused : History settings role [] {}
  | others {turns : List Turn} {slot : Slot} (turn : Turn) (hrole : turn.role ≠ role)
      (h : History settings role turns slot) : History settings role (turn :: turns) slot
  | own {turns : List Turn} {slot slot' : Slot} {calls : List Exchange} (turn : Turn)
      (hrole : turn.role = role) (h : History settings role turns slot)
      (hchanges : turn.Changes settings slot calls slot') (hfaithful : FaithfulCalls calls) :
      History settings role (turn :: turns) slot'

theorem Ends.attempted {settings : Settings} {role : Role} {refs : ImageRefs} {slot slot' : Slot}
    {calls : List Exchange} {result : Replaced} {forced : Bool}
    (h : Ends settings role refs slot calls result slot') :
    (Turn.mk role refs forced result).attempted = true := by
  cases h <;> rfl

section Started

variable {settings : Settings} {role : Role} {refs : ImageRefs} {used : String}

@[simp] theorem descriptor_name :
    (role.descriptor settings used refs).name = role.containerName := by
  cases role <;> rfl

@[simp] theorem descriptor_image : (role.descriptor settings used refs).image = used := by
  cases role <;> rfl

/-- The handle of a container that was started carries what it was started from. -/
theorem handle_of_started {removal rest : List Exchange} {ensured : Exchange} {handle : Handle}
    (hfaithful : FaithfulCalls (removal ++
      ensured :: ⟨.start (role.descriptor settings used refs), .ok handle⟩ :: rest)) :
    handle.name = role.containerName ∧
      handle.descriptor = role.descriptor settings used refs := by
  have hmem : ⟨.start (role.descriptor settings used refs), .ok handle⟩ ∈ removal ++
      ensured :: ⟨.start (role.descriptor settings used refs), .ok handle⟩ :: rest :=
    List.mem_append_right _ (List.mem_cons_of_mem _ List.mem_cons_self)
  obtain ⟨hname, hdescriptor⟩ := hfaithful _ _ hmem
  rw [descriptor_name] at hname
  exact ⟨hname, hdescriptor⟩

end Started

namespace History

variable {settings : Settings} {role : Role} {turns : List Turn} {slot : Slot}

/-- The recorded image is that of the latest replace that succeeded. -/
theorem image (h : History settings role turns slot) :
    slot.image = (latestSuccess role turns).map (·.of role) := by
  unfold latestSuccess
  induction h with
  | unused => rfl
  | others turn hrole _ ih =>
    rw [latest_cons_of_ne hrole]
    exact ih
  | own turn hrole _ hchanges _ ih =>
    cases hchanges with
    | unchanged role' refs himage =>
      rw [latest_cons_of_not_test rfl]
      exact ih
    | attempted role' refs forced hneeded hends =>
      cases hends with
      | replaced removal handle hremoval =>
        rw [latest_cons_of_test hrole rfl]
        have hrole : role' = role := hrole
        rw [hrole]
        rfl
      | _ =>
        -- A replace that fails leaves the image alone.
        rw [latest_cons_of_not_test rfl]
        exact ih

/-- The slot is as the latest attempt left it; before the first one it is empty. -/
theorem ends (h : History settings role turns slot) :
    (latest role Turn.attempted turns = none ∧ slot = {}) ∨
    ∃ turn before calls, latest role Turn.attempted turns = some turn ∧
      Ends settings role turn.refs before calls turn.result slot ∧ FaithfulCalls calls := by
  induction h with
  | unused => exact .inl ⟨rfl, rfl⟩
  | others turn hrole _ ih =>
    rw [latest_cons_of_ne hrole]
    exact ih
  | own turn hrole _ hchanges hfaithful ih =>
    cases hchanges with
    | unchanged role' refs himage =>
      rw [latest_cons_of_not_test rfl]
      exact ih
    | attempted role' refs forced hneeded hends =>
      have hrole : role' = role := hrole
      subst hrole
      have hattempted : (Turn.mk role' refs forced _).attempted = true := hends.attempted
      rw [latest_cons_of_test rfl hattempted]
      exact .inr ⟨_, _, _, rfl, hends, hfaithful⟩

/-- A container in the slot is the one that the latest turn started that got past the one before it:
it has the descriptor of that start, and the turn told its id.  That turn succeeded and is still the
latest to do so, or its start was not confirmed. -/
theorem container (h : History settings role turns slot) {handle : Handle}
    (hhandle : slot.container = some handle) :
    ∃ turn, latest role Turn.cleared turns = some turn ∧
      handle.descriptor =
        role.descriptor settings (settings.usedImage (turn.refs.of role)) turn.refs ∧
      (turn.result = .ok (.replaced (turn.refs.of role) handle.id) ∧
          slot.image = some (turn.refs.of role) ∨
        ∃ e, turn.result = .error e ∧ e.step = .confirmStart ∧
          e.containerId = some handle.id) := by
  induction h with
  | unused => cases hhandle
  | others turn hrole _ ih =>
    rw [latest_cons_of_ne hrole]
    exact ih hhandle
  | own turn hrole _ hchanges hfaithful ih =>
    cases hchanges with
    | unchanged role' refs himage =>
      rw [latest_cons_of_not_test rfl]
      exact ih hhandle
    | attempted role' refs forced hneeded hends =>
      have hrole : role' = role := hrole
      subst hrole
      cases hends with
      | exitUnconfirmed old signalled cause hold =>
        -- The container before it is still there.
        rw [latest_cons_of_not_test rfl]
        exact ih hhandle
      | pruneFailed => cases hhandle
      | removalUnconfirmed => cases hhandle
      | imageMissing => cases hhandle
      | startFailed => cases hhandle
      | startUnconfirmed removal started cause hremoval =>
        cases hhandle
        exact ⟨_, latest_cons_of_test rfl rfl, (handle_of_started hfaithful).2,
          .inr ⟨_, rfl, rfl, rfl⟩⟩
      | replaced removal started hremoval =>
        cases hhandle
        exact ⟨_, latest_cons_of_test rfl rfl, (handle_of_started hfaithful).2,
          .inl ⟨rfl, rfl⟩⟩

/-- Among turns that only compare and bring the same images, whatever follows on a role that was
left alone leaves it alone. -/
theorem image_of_unchanged {news : List Turn} {refs : ImageRefs}
    (h : History settings role (news ++ turns) slot)
    (hnews : ∀ turn ∈ news, turn.refs = refs ∧ turn.forced = false)
    (hmem : ⟨role, refs, false, .ok .unchanged⟩ ∈ news) : slot.image = some (refs.of role) := by
  induction news generalizing slot with
  | nil => cases hmem
  | cons head news ih =>
    have hrest : ∀ turn ∈ news, turn.refs = refs ∧ turn.forced = false :=
      fun turn hturn => hnews turn (List.mem_cons_of_mem _ hturn)
    obtain ⟨hrefs, hforced⟩ := hnews head List.mem_cons_self
    cases h with
    | others _ hrole h =>
      rcases List.mem_cons.1 hmem with heq | hmem
      · rw [← heq] at hrole
        exact absurd rfl hrole
      · exact ih h hrest hmem
    | own _ hrole h hchanges _ =>
      cases hchanges with
      | unchanged role' refs' himage =>
        have hrole : role' = role := hrole
        have hrefs : refs' = refs := hrefs
        rw [← hrole, ← hrefs]
        exact himage
      | attempted role' refs' forced hneeded hends =>
        -- The role had the image already, and would not have been given it again.
        have hrole : role' = role := hrole
        have hrefs : refs' = refs := hrefs
        have hforced : forced = false := hforced
        subst hrole hrefs hforced
        rcases List.mem_cons.1 hmem with heq | hmem
        · have hresult := (Turn.mk.inj heq).2.2.2
          rw [← hresult] at hends
          cases hends
        · have himage := ih h hrest hmem
          rcases hneeded with hneeded | hneeded
          · cases hneeded
          · exact absurd himage hneeded

end History

/-! ## Histories in sessions -/

section Kept

variable {settings : Settings} {turns news : List Turn} {roster roster' : Roster}
  {calls : List Exchange}

/-- More turns go on with the history of every slot. -/
theorem History.taken (h : ∀ role, History settings role turns (roster.slot role))
    (htaken : Taken settings news roster calls roster') (hfaithful : FaithfulCalls calls)
    (role : Role) : History settings role (news.reverse ++ turns) (roster'.slot role) := by
  induction htaken generalizing turns with
  | nil => exact h role
  | @cons turn news roster roster' slot calls calls' hturn _ ih =>
    rw [List.reverse_cons, List.append_assoc]
    refine ih (fun other => ?_) fun d handle hmem =>
      hfaithful d handle (List.mem_append_right _ hmem)
    by_cases hother : turn.role = other
    · -- The slot whose turn it was.
      subst hother
      rw [Roster.slot_put_self]
      exact .own turn rfl (h turn.role) hturn
        fun d handle hmem => hfaithful d handle (List.mem_append_left _ hmem)
    · rw [Roster.slot_put_ne _ _ (Ne.symm hother)]
      exact .others turn hother (h other)

/-- Sessions on a faithful backend keep that every slot follows from the turns. -/
theorem kept_history {ρ : Type} [Container.Backend ρ] (hfaithful : FaithfulStart ρ)
    (outside : ρ → ρ → Prop) :
    Kept settings outside fun turns roster _ =>
      ∀ role, History settings role turns (roster.slot role) where
  moves h _ := h
  tends _ h _ := h
  updates h htaken hperformed := History.taken h htaken (hperformed.faithful hfaithful)

theorem history_start (settings : Settings) (role : Role) :
    History settings role [] (Roster.slot {} role) := by
  cases role <;> exact .unused

end Kept

end Caretaker.Crew
