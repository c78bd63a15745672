import Caretaker.Proofs.Course
import Caretaker.Proofs.Protocol
import Caretaker.Proofs.Settled
import Caretaker.Proofs.Sights

/-!
# Applications role by role

To apply refs to several roles at once is to compare and replace one role after the other, up to the
first failure after which nothing more should be done.  So what an application did for each role is
recorded in its slot, and to apply the same refs again comes down to the roles that failed.

Main definitions:

- `replaceEach`: the roles one after the other, each by an operation of its own.
- `CutShort`: results for a list of roles that end with the first fatal failure.

Main statements:

- `run_replaceEach`: an application does what the single operations do.
- `run_applyLocked_again`: what an application does to roles that have their image, and to others.
- `apply_in_order`: both for every list of roles.
-/

namespace Caretaker.Crew

open Container (Backend Memory)
open Script Transaction

/-- Gives roles the images of `refs` one after the other, each by an operation of its own, and stops
after the first fatal failure. -/
def replaceEach (settings : Settings) (refs : ImageRefs) : List Role → Transaction (List RoleUpdate)
  | [] => return []
  | role :: roles => do
    let result ← replaceIfChanged settings role refs
    if isFatal result then return [⟨role, result⟩]
    else return ⟨role, result⟩ :: (← replaceEach settings refs roles)

/-! ## Results that end with a fatal failure -/

/-- Whether updates are what became of some roles in order, up to the first fatal failure. -/
structure CutShort (roles : List Role) (updates : List RoleUpdate) : Prop where
  isPrefix : updates.map (·.role) <+: roles
  going : ∀ update ∈ updates.dropLast, isFatal update.result = false
  whole : (∀ update ∈ updates, isFatal update.result = false) → updates.map (·.role) = roles

theorem CutShort.nil : CutShort [] [] where
  isPrefix := List.prefix_rfl
  going := List.forall_mem_nil _
  whole _ := rfl

theorem CutShort.fatal {role : Role} {result : Replaced} (hfatal : isFatal result = true)
    (roles : List Role) : CutShort (role :: roles) [⟨role, result⟩] where
  isPrefix := ⟨roles, rfl⟩
  going := List.forall_mem_nil _
  whole hgoing := by
    rw [hgoing _ List.mem_cons_self] at hfatal
    cases hfatal

theorem CutShort.cons {roles : List Role} {updates : List RoleUpdate} {role : Role}
    {result : Replaced} (hresult : isFatal result = false) (h : CutShort roles updates) :
    CutShort (role :: roles) (⟨role, result⟩ :: updates) where
  isPrefix := List.cons_prefix_cons.2 ⟨rfl, h.isPrefix⟩
  going := by
    intro update hmem
    cases updates with
    | nil => cases hmem
    | cons next updates =>
      rw [List.dropLast_cons_cons] at hmem
      rcases List.mem_cons.1 hmem with rfl | hmem
      · exact hresult
      · exact h.going update hmem
  whole hgoing := by
    rw [List.map_cons, h.whole fun update hmem => hgoing update (List.mem_cons_of_mem _ hmem)]

/-- An application goes on to the next role after every failure that is not fatal. -/
theorem cutShort_applyLocked (settings : Settings) (refs : ImageRefs) (roles : List Role) :
    (applyLocked settings refs roles).Yields (CutShort roles) := by
  induction roles with
  | nil => exact .nil
  | cons role roles ih =>
    apply yields_bind
    intro result
    split
    · next hfatal => exact .fatal hfatal roles
    · next hresult =>
      have hgoing : isFatal result = false := Bool.eq_false_iff.2 hresult
      exact ih.bind fun updates hcut => hcut.cons hgoing

section Runs

variable {ρ : Type} [Backend ρ] {settings : Settings} {refs : ImageRefs} {role : Role}
  {roles : List Role} {w w' : World ρ}

/-! ## Role by role -/

/-- After a fatal failure of the first role the application is at its end. -/
theorem run_applyLocked_of_fatal (roles : List Role)
    (hfatal : isFatal ((compareLocked settings role refs).run w).1 = true) :
    (applyLocked settings refs (role :: roles)).run w =
        ([⟨role, ((compareLocked settings role refs).run w).1⟩],
          ((compareLocked settings role refs).run w).2) ∧
      (applyLocked settings refs (role :: roles)).sights w =
        (compareLocked settings role refs).sights w := by
  rw [applyLocked, Transaction.run_bind, sights_bind, if_pos hfatal]
  exact ⟨rfl, List.append_nil _⟩

/-- Else it goes on with the other roles. -/
theorem run_applyLocked_of_going (roles : List Role)
    (hgoing : ¬ isFatal ((compareLocked settings role refs).run w).1 = true) :
    let first := (compareLocked settings role refs).run w
    let rest := (applyLocked settings refs roles).run first.2
    (applyLocked settings refs (role :: roles)).run w = (⟨role, first.1⟩ :: rest.1, rest.2) ∧
      (applyLocked settings refs (role :: roles)).sights w =
        (compareLocked settings role refs).sights w ++
          (applyLocked settings refs roles).sights first.2 := by
  intro first rest
  rw [applyLocked, Transaction.run_bind, sights_bind, if_neg hgoing, Transaction.run_bind,
    sights_bind]
  refine ⟨rfl, ?_⟩
  show _ ++ (_ ++ []) = _
  rw [List.append_nil]

/-- An application does what the single operations do, and nothing else is seen of it. -/
theorem run_replaceEach (settings : Settings) (refs : ImageRefs) (roles : List Role)
    (w : World ρ) :
    (replaceEach settings refs roles).run w = (applyLocked settings refs roles).run w ∧
      (replaceEach settings refs roles).sights w = (applyLocked settings refs roles).sights w := by
  induction roles generalizing w with
  | nil => exact ⟨rfl, rfl⟩
  | cons role roles ih =>
    -- A single operation is a comparison under the lock, which the application holds all along.
    have hrun : (replaceIfChanged settings role refs).run w =
        (compareLocked settings role refs).run w := run_locked .exclusive _ w
    have hsights : (replaceIfChanged settings role refs).sights w =
        (compareLocked settings role refs).sights w := sights_locked w .exclusive _
    rw [replaceEach, Transaction.run_bind, sights_bind, hrun, hsights]
    by_cases hfatal : isFatal ((compareLocked settings role refs).run w).1 = true
    · obtain ⟨hall, hallSights⟩ := run_applyLocked_of_fatal roles hfatal
      rw [hall, hallSights, if_pos hfatal]
      exact ⟨rfl, List.append_nil _⟩
    · obtain ⟨hall, hallSights⟩ := run_applyLocked_of_going roles hfatal
      obtain ⟨hrest, hrestSights⟩ := ih ((compareLocked settings role refs).run w).2
      rw [hall, hallSights, if_neg hfatal, Transaction.run_bind, sights_bind, hrest, hrestSights]
      refine ⟨rfl, ?_⟩
      show _ ++ (_ ++ []) = _
      rw [List.append_nil]

/-! ## What the log tells makes no difference -/

/-- A world that forgot what its log told. -/
def World.unlogged (w : World ρ) : World ρ := { w with events := [] }

/-- Nothing that is answered depends on what the log told. -/
theorem World.answer_unlogged (h : w.unlogged = w'.unlogged) (r : Request) :
    (w.answer r).1 = (w'.answer r).1 ∧ (w.answer r).2.unlogged = (w'.answer r).2.unlogged ∧
      w.sights r = w'.sights r := by
  obtain ⟨backend, roster, lastKnown, lock, gated, events⟩ := w
  obtain ⟨backend', roster', lastKnown', lock', gated', events'⟩ := w'
  obtain ⟨rfl, rfl, rfl, rfl, rfl, -⟩ := World.mk.inj h
  cases r <;> exact ⟨rfl, rfl, rfl⟩

theorem run_unlogged {α : Type} (t : Transaction α) (h : w.unlogged = w'.unlogged) :
    (t.run w).1 = (t.run w').1 ∧ (t.run w).2.unlogged = (t.run w').2.unlogged ∧
      t.sights w = t.sights w' := by
  induction t generalizing w w' with
  | done value => exact ⟨rfl, h, rfl⟩
  | ask r next ih =>
    obtain ⟨hanswer, hworld, hsights⟩ := World.answer_unlogged h r
    obtain ⟨hvalue, hfinal, hrest⟩ := ih (w.answer r).1 hworld
    rw [sights_ask, sights_ask, hsights, hrest, ← hanswer]
    refine ⟨?_, ?_, rfl⟩
    · show (Transaction.run (next (w.answer r).1) (w.answer r).2).1 =
        (Transaction.run (next (w'.answer r).1) (w'.answer r).2).1
      rw [hvalue, hanswer]
    · show (Transaction.run (next (w.answer r).1) (w.answer r).2).2.unlogged =
        (Transaction.run (next (w'.answer r).1) (w'.answer r).2).2.unlogged
      rw [hfinal, hanswer]

/-! ## Single roles -/

/-- A role that has the image is left alone: nothing is called and nothing is shown. -/
theorem run_compareLocked_of_same (settings : Settings)
    (himage : (w.roster.slot role).image = some (refs.of role)) :
    ((compareLocked settings role refs).run w).1 = .ok .unchanged ∧
      ((compareLocked settings role refs).run w).2.unlogged = w.unlogged ∧
      (compareLocked settings role refs).sights w = [] := by
  have hslot : (Transaction.slot role).run w = (w.roster.slot role, w) := rfl
  have hseen : (Transaction.slot role).sights w = [] := rfl
  simp only [compareLocked, Transaction.run_bind, sights_bind, hslot, hseen, if_pos himage]
  exact ⟨rfl, rfl, rfl⟩

/-- What a comparison does to the slot of its role; the other slot is left alone. -/
theorem run_compareLocked (settings : Settings) (role : Role) (refs : ImageRefs) (w : World ρ) :
    ∃ slot calls, Turn.Changes settings (w.roster.slot role)
        ⟨role, refs, false, ((compareLocked settings role refs).run w).1⟩ calls slot ∧
      ((compareLocked settings role refs).run w).2.roster = w.roster.put role slot := by
  have hcompare : (compareLocked settings role refs).Ensures Account.rule _ w.account :=
    ensures_compareLocked
  obtain ⟨calls, htaken, -, -⟩ := Transaction.ensures_calls hcompare
  obtain ⟨slot, hturn, hroster⟩ := htaken.of_single
  exact ⟨slot, calls, hturn, hroster⟩

/-- A role that does not have the image is not left unchanged. -/
theorem run_compareLocked_ne_unchanged (settings : Settings)
    (himage : (w.roster.slot role).image ≠ some (refs.of role)) :
    ((compareLocked settings role refs).run w).1 ≠ .ok .unchanged := by
  obtain ⟨slot, calls, hturn, -⟩ := run_compareLocked settings role refs w
  intro hunchanged
  rw [hunchanged] at hturn
  cases hturn with
  | unchanged role refs hrecorded => exact himage hrecorded
  | attempted role refs forced hneeded hends => cases hends

/-- A comparison leaves the slots of the other roles as they are. -/
theorem slot_compareLocked_of_ne (settings : Settings) {other : Role} (hne : other ≠ role)
    (w : World ρ) :
    ((compareLocked settings role refs).run w).2.roster.slot other = w.roster.slot other := by
  obtain ⟨slot, calls, -, hroster⟩ := run_compareLocked settings role refs w
  rw [hroster, Roster.slot_put_ne _ _ hne]

/-- A turn records its image just if it does not fail. -/
theorem Turn.Changes.image_iff {turn : Turn} {slot slot' : Slot} {calls : List Exchange}
    (h : turn.Changes settings slot calls slot') (hforced : turn.forced = false) :
    slot'.image = some (turn.refs.of turn.role) ↔ turn.result.isOk = true := by
  cases h with
  | unchanged role refs himage => exact iff_of_true himage rfl
  | attempted role refs forced hneeded hends =>
    have hne : slot.image ≠ some (refs.of role) := by
      apply hneeded.resolve_left
      intro htrue
      rw [htrue] at hforced
      cases hforced
    cases hends with
    | replaced => exact iff_of_true rfl rfl
    | _ => exact iff_of_false hne Bool.false_ne_true

/-! ## Applied again -/

/-- Whether updates leave alone every role that did not fail before, and tell of the others what
`retried` tells. -/
structure Retries (failed : List Role) (updates retried : List RoleUpdate) : Prop where
  retried : updates.filter (·.role ∈ failed) = retried
  unchanged_iff : ∀ update ∈ updates, update.result = .ok .unchanged ↔ update.role ∉ failed

omit [Backend ρ] in
theorem Retries.nil (failed : List Role) : Retries failed [] [] where
  retried := rfl
  unchanged_iff := List.forall_mem_nil _

/-- A role that failed before gets its turn again. -/
theorem Retries.again {failed : List Role} {updates retried : List RoleUpdate} {result : Replaced}
    (h : Retries failed updates retried) (hfailed : role ∈ failed)
    (hattempted : result ≠ .ok .unchanged) :
    Retries failed (⟨role, result⟩ :: updates) (⟨role, result⟩ :: retried) where
  retried := by
    rw [List.filter_cons_of_pos (by simpa using hfailed), h.retried]
  unchanged_iff := by
    intro update hmem
    rcases List.mem_cons.1 hmem with rfl | hmem
    · exact iff_of_false hattempted (not_not_intro hfailed)
    · exact h.unchanged_iff update hmem

/-- A role that did not fail before is left alone. -/
theorem Retries.skip {failed : List Role} {updates retried : List RoleUpdate}
    (h : Retries failed updates retried) (hdone : role ∉ failed) :
    Retries failed (⟨role, .ok .unchanged⟩ :: updates) retried where
  retried := by
    rw [List.filter_cons_of_neg (by simpa using hdone), h.retried]
  unchanged_iff := by
    intro update hmem
    rcases List.mem_cons.1 hmem with rfl | hmem
    · exact iff_of_true rfl hdone
    · exact h.unchanged_iff update hmem

/-- To apply refs to roles of which some have their image already comes down to the others.  The
roles are different ones, so that none gets its image on the way. -/
theorem run_applyLocked_again (settings : Settings) {failed : List Role} (hnodup : roles.Nodup)
    (himage : ∀ role ∈ roles, (w.roster.slot role).image = some (refs.of role) ↔ role ∉ failed)
    (hsame : w.unlogged = w'.unlogged) :
    let again := (applyLocked settings refs roles).run w
    let rest := (applyLocked settings refs (roles.filter (· ∈ failed))).run w'
    Retries failed again.1 rest.1 ∧ again.2.unlogged = rest.2.unlogged ∧
      (applyLocked settings refs roles).sights w =
        (applyLocked settings refs (roles.filter (· ∈ failed))).sights w' := by
  induction roles generalizing w w' with
  | nil => exact ⟨.nil failed, hsame, rfl⟩
  | cons role roles ih =>
    obtain ⟨hnot, hnodup⟩ := List.nodup_cons.1 hnodup
    -- The turn of the first role leaves the slots of the others as they are.
    have himage' : ∀ other ∈ roles,
        (((compareLocked settings role refs).run w).2.roster.slot other).image =
          some (refs.of other) ↔ other ∉ failed := by
      intro other hother
      have hne : other ≠ role := by
        rintro rfl
        exact hnot hother
      rw [slot_compareLocked_of_ne settings hne]
      exact himage other (List.mem_cons_of_mem _ hother)
    have hfirst := himage role List.mem_cons_self
    by_cases hfailed : role ∈ failed
    · -- The role gets its turn in both, with the same end.
      have hattempted : ((compareLocked settings role refs).run w).1 ≠ .ok .unchanged :=
        run_compareLocked_ne_unchanged settings fun hrecorded => hfirst.1 hrecorded hfailed
      obtain ⟨hvalue, hworld, hsights⟩ := run_unlogged (compareLocked settings role refs) hsame
      rw [List.filter_cons_of_pos (by simpa using hfailed)]
      by_cases hfatal : isFatal ((compareLocked settings role refs).run w).1 = true
      · obtain ⟨hall, hallSights⟩ := run_applyLocked_of_fatal roles hfatal
        rw [hvalue] at hfatal
        obtain ⟨hrest, hrestSights⟩ :=
          run_applyLocked_of_fatal (roles.filter (· ∈ failed)) hfatal
        rw [hall, hallSights, hrest, hrestSights, ← hvalue]
        exact ⟨(Retries.nil failed).again hfailed hattempted, hworld, hsights⟩
      · obtain ⟨hall, hallSights⟩ := run_applyLocked_of_going roles hfatal
        rw [hvalue] at hfatal
        obtain ⟨hrest, hrestSights⟩ :=
          run_applyLocked_of_going (roles.filter (· ∈ failed)) hfatal
        obtain ⟨hretries, hfinal, hothers⟩ := ih hnodup himage' hworld
        rw [hall, hallSights, hrest, hrestSights, ← hvalue, hsights, hothers]
        exact ⟨hretries.again hfailed hattempted, hfinal, rfl⟩
    · -- The role has its image, and its turn only adds to the log.
      obtain ⟨hvalue, hworld, hsights⟩ :=
        run_compareLocked_of_same settings (hfirst.2 hfailed)
      have hgoing : ¬ isFatal ((compareLocked settings role refs).run w).1 = true := by
        rw [hvalue]
        exact Bool.false_ne_true
      obtain ⟨hall, hallSights⟩ := run_applyLocked_of_going roles hgoing
      obtain ⟨hretries, hfinal, hothers⟩ := ih hnodup himage' (hworld.trans hsame)
      rw [List.filter_cons_of_neg (by simpa using hfailed), hall, hallSights, hsights,
        List.nil_append, hvalue]
      exact ⟨hretries.skip hfailed, hfinal, hothers⟩

/-! ## What an application leaves -/

/-- The roles of which updates tell that they failed. -/
def failedOf (updates : List RoleUpdate) : List Role :=
  (updates.filter fun update => !update.result.isOk).map (·.role)

section Failed

variable {updates : List RoleUpdate}

omit [Backend ρ] in
/-- Where each role has one update, its result tells whether it failed. -/
theorem mem_failedOf (hnodup : (updates.map (·.role)).Nodup) {update : RoleUpdate}
    (hmem : update ∈ updates) : update.role ∈ failedOf updates ↔ update.result.isOk = false := by
  constructor
  · intro hfailed
    obtain ⟨other, hother, hrole⟩ := List.mem_map.1 hfailed
    obtain ⟨hother, hresult⟩ := List.mem_filter.1 hother
    obtain rfl := List.inj_on_of_nodup_map hnodup hother hmem hrole
    exact (Bool.not_eq_true' _).mp hresult
  · intro hresult
    exact List.mem_map.2 ⟨update, List.mem_filter.2 ⟨hmem, by rw [hresult]; rfl⟩, rfl⟩

omit [Backend ρ] in
theorem filter_failedOf (hnodup : (updates.map (·.role)).Nodup) :
    (updates.map (·.role)).filter (· ∈ failedOf updates) = failedOf updates := by
  rw [List.filter_map]
  congr 1
  apply List.filter_congr
  intro update hmem
  have hfailed := mem_failedOf hnodup hmem
  cases hresult : update.result.isOk with
  | true =>
    rw [hresult] at hfailed
    simpa using hfailed
  | false =>
    rw [hresult] at hfailed
    simpa using hfailed

end Failed

/-- Where each role has one turn, its image is recorded in the end just if that did not fail. -/
theorem Taken.image_iff {turns : List Turn} {roster roster' : Roster} {calls : List Exchange}
    (h : Taken settings turns roster calls roster') (hnodup : (turns.map (·.role)).Nodup)
    {turn : Turn} (hmem : turn ∈ turns) (hforced : turn.forced = false) :
    (roster'.slot turn.role).image = some (turn.refs.of turn.role) ↔ turn.result.isOk = true := by
  induction h with
  | nil => cases hmem
  | @cons head turns roster roster' slot calls calls' hturn hrest ih =>
    obtain ⟨hnot, hnodup⟩ := List.nodup_cons.1 hnodup
    rcases List.mem_cons.1 hmem with rfl | hmem
    · -- No later turn touches the slot.
      have hother : ∀ other ∈ turns, other.role ≠ turn.role := by
        intro other hother hrole
        exact hnot (List.mem_map.2 ⟨other, hother, hrole⟩)
      rw [hrest.slot_of_notMem hother, Roster.slot_put_self]
      exact hturn.image_iff hforced
    · exact ih hnodup hmem

/-- After an application to different roles, a role has its image recorded just if that did not
fail. -/
theorem image_iff_applied (hnodup : roles.Nodup)
    (hwhole : ((applyLocked settings refs roles).run w).1.map (·.role) = roles) :
    ∀ role ∈ roles,
      (((applyLocked settings refs roles).run w).2.roster.slot role).image = some (refs.of role) ↔
        role ∉ failedOf ((applyLocked settings refs roles).run w).1 := by
  have happly : (applyLocked settings refs roles).Ensures Account.rule _ w.account :=
    ensures_applyLocked
  obtain ⟨calls, htaken, -, -⟩ := Transaction.ensures_calls happly
  intro role hrole
  rw [← hwhole] at hrole hnodup
  obtain ⟨update, hmem, rfl⟩ := List.mem_map.1 hrole
  have hturns : (((applyLocked settings refs roles).run w).1.map fun update =>
      (⟨update.role, refs, false, update.result⟩ : Turn)).map (·.role) =
        ((applyLocked settings refs roles).run w).1.map (·.role) := by
    rw [List.map_map]
    rfl
  rw [mem_failedOf hnodup hmem, Bool.not_eq_false]
  rw [← hturns] at hnodup
  exact htaken.image_iff hnodup (List.mem_map_of_mem hmem) rfl

end Runs

/-- To apply refs to a list of roles is to compare and replace one role after the other, each on its
own, and to stop after the first fatal failure; the results are for as many roles as it came to.
Where the roles are different ones and no failure was fatal, to apply the same refs again is to
apply them to the roles that failed: each of them is tried again, until one fails fatally, and every
other role that it comes to is left alone, without a call and without a change. -/
theorem apply_in_order {ρ : Type} [Backend ρ] (settings : Settings) (refs : ImageRefs)
    (roles : List Role) (w : World ρ) :
    let first := (apply settings refs roles).run w
    first = (replaceEach settings refs roles).run w ∧
      (apply settings refs roles).sights w = (replaceEach settings refs roles).sights w ∧
      CutShort roles first.1 ∧
      (roles.Nodup → (∀ update ∈ first.1, isFatal update.result = false) →
        ∀ w' : World ρ, w'.roster = first.2.roster →
          let again := (apply settings refs roles).run w'
          let retried := (apply settings refs (failedOf first.1)).run w'
          CutShort roles again.1 ∧ Retries (failedOf first.1) again.1 retried.1 ∧
            again.2.unlogged = retried.2.unlogged ∧
            (apply settings refs roles).sights w' =
              (apply settings refs (failedOf first.1)).sights w') := by
  have hlocked : ∀ (roles : List Role) (w : World ρ),
      (apply settings refs roles).run w = (applyLocked settings refs roles).run w ∧
        (apply settings refs roles).sights w = (applyLocked settings refs roles).sights w := by
    intro roles w
    exact ⟨run_locked .exclusive _ w, sights_locked w .exclusive _⟩
  have hcut : ∀ w : World ρ, CutShort roles ((applyLocked settings refs roles).run w).1 := by
    intro w
    exact (cutShort_applyLocked settings refs roles).run World.answer w
  obtain ⟨heach, heachSights⟩ := run_replaceEach settings refs roles w
  intro first
  have hfirst : first = (applyLocked settings refs roles).run w := (hlocked roles w).1
  refine ⟨?_, ?_, ?_, ?_⟩
  · rw [hfirst, heach]
  · rw [(hlocked roles w).2, heachSights]
  · rw [hfirst]
    exact hcut w
  · intro hnodup hgoing w' hroster
    rw [hfirst] at hgoing hroster
    have hwhole := (hcut w).whole hgoing
    have himage := image_iff_applied hnodup hwhole
    rw [← hroster, ← hfirst] at himage
    have hfailed : roles.filter (· ∈ failedOf first.1) = failedOf first.1 := by
      rw [hfirst]
      have hfilter := filter_failedOf (hwhole ▸ hnodup)
      rwa [hwhole] at hfilter
    have hagain := run_applyLocked_again settings hnodup himage (rfl : w'.unlogged = _)
    rw [hfailed] at hagain
    obtain ⟨hretries, hworld, hsights⟩ := hagain
    intro again retried
    have hsame : again = (applyLocked settings refs roles).run w' := (hlocked roles w').1
    have hsame' : retried = (applyLocked settings refs (failedOf first.1)).run w' :=
      (hlocked _ w').1
    rw [hsame, hsame', (hlocked roles w').2, (hlocked _ w').2]
    exact ⟨hcut w', hretries, hworld, hsights⟩

/-! ## An application that is cut short the second time -/

namespace Sample

/-- A world where no image can be had. -/
def imageless : World Memory := { backend := ({} : Memory).fail .ensureImage }

/-- What became of an application where no image could be had. -/
def unapplied : List RoleUpdate × World Memory :=
  (apply developmentSettings (refs "sup:v1") Role.all).run imageless

/-- After that application images can be had again, and no start is confirmed any more. -/
def unconfirming : World Memory :=
  { unapplied.2 with
    backend := (unapplied.2.backend.recover .ensureImage).fail .awaitStart }

end Sample

theorem apply_in_order_unconfirming :
    Role.all.Nodup ∧ (∀ update ∈ Sample.unapplied.1, isFatal update.result = false) ∧
      Sample.unconfirming.roster = Sample.unapplied.2.roster ∧
      let refs := Sample.refs "sup:v1"
      let again := (apply developmentSettings refs Role.all).run Sample.unconfirming
      let retried := (apply developmentSettings refs (failedOf Sample.unapplied.1)).run
        Sample.unconfirming
      CutShort Role.all again.1 ∧ Retries (failedOf Sample.unapplied.1) again.1 retried.1 ∧
        again.2.unlogged = retried.2.unlogged ∧
        (apply developmentSettings refs Role.all).sights Sample.unconfirming =
          (apply developmentSettings refs (failedOf Sample.unapplied.1)).sights
            Sample.unconfirming := by
  have hnodup : Role.all.Nodup := by decide
  have hgoing : ∀ update ∈ Sample.unapplied.1, isFatal update.result = false := by decide
  have hroster : Sample.unconfirming.roster = Sample.unapplied.2.roster := rfl
  obtain ⟨-, -, -, hagain⟩ :=
    apply_in_order developmentSettings (Sample.refs "sup:v1") Role.all Sample.imageless
  exact ⟨hnodup, hgoing, hroster, hagain hnodup hgoing _ hroster⟩

/-- A role that failed is not tried again where a role before it fails fatally the second time. -/
theorem supervisor_not_retried :
    Role.all.Nodup ∧ (∀ update ∈ Sample.unapplied.1, isFatal update.result = false) ∧
      Sample.unconfirming.roster = Sample.unapplied.2.roster ∧
      Role.supervisor ∈ failedOf Sample.unapplied.1 ∧
      ∀ update ∈ ((apply developmentSettings (Sample.refs "sup:v1") Role.all).run
        Sample.unconfirming).1, update.role ≠ .supervisor := by
  refine ⟨by decide, by decide, rfl, by decide, ?_⟩
  decide

end Caretaker.Crew
