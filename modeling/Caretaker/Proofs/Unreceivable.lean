import Mathlib.Data.List.Induction
import Caretaker.Proofs.ImageStream

/-!
# When nothing can be received any more

The receiving end of the channel has one owner after the other: the store, until the stream is asked
for, and the stream from then on.  It goes with its owner.  So what a publisher is told hangs on
which of the two was dropped, and on whether the stream had been asked for before.

Who holds an end of the channel is told by the account of a history (`Tallied`).  Here the holders
of the receiving end are read off the order of the steps: which step was done when.

Main definitions:

- `DoneWhen`: a step was done at a moment of a history.
- `HandedOut`, `Unreceivable`: the stream was handed out, and the receiving end is gone.

Main statements:

- `ordered_afterAll`: what the account says about the store and the stream is told by the order of
  the steps.
- `latest_once_closed_for_good`: the stream is handed out once, publishers are refused exactly when
  the receiving end is gone, and from then on all of them are.
-/

namespace Caretaker.ImageStore

/-! ## The order of steps -/

/-- A step was done at a moment at which `before` held of what had been done until then. -/
def DoneWhen (step : Step) (before : List Step → Prop) (history : List Step) : Prop :=
  ∃ front back, history = front ++ step :: back ∧ before front

/-- The stream was asked for while the store was there. -/
def HandedOut (history : List Step) : Prop :=
  DoneWhen .latest (fun before => .dropStore ∉ before) history

/-- The receiving end went with its owner: with the stream that was handed out, or with the store
before the stream was asked for. -/
inductive Unreceivable (history : List Step) : Prop where
  | withStream (h : DoneWhen .dropStream HandedOut history)
  | withStore (h : DoneWhen .dropStore (fun before => .latest ∉ before) history)

variable {deed : Step} {before : List Step → Prop} {history : List Step}

theorem DoneWhen.append (h : DoneWhen deed before history) (later : List Step) :
    DoneWhen deed before (history ++ later) := by
  obtain ⟨front, back, rfl, hbefore⟩ := h
  exact ⟨front, back ++ later, by simp, hbefore⟩

/-- Either it was done before, or it is the step that is done now. -/
theorem doneWhen_concat {last : Step} :
    DoneWhen deed before (history ++ [last]) ↔
      DoneWhen deed before history ∨ last = deed ∧ before history := by
  constructor
  · rintro ⟨front, back, hhistory, hbefore⟩
    rcases List.eq_nil_or_concat back with rfl | ⟨back, last', rfl⟩
    · obtain ⟨hfront, hlast⟩ := List.append_inj' hhistory rfl
      exact .inr ⟨(List.cons.inj hlast).1, hfront ▸ hbefore⟩
    · rw [List.concat_eq_append, ← List.cons_append, ← List.append_assoc] at hhistory
      exact .inl ⟨front, back, (List.append_inj' hhistory rfl).1, hbefore⟩
  · rintro (h | ⟨rfl, hbefore⟩)
    · exact h.append _
    · exact ⟨history, [], rfl, hbefore⟩

theorem not_doneWhen_nil : ¬ DoneWhen deed before [] := by
  rintro ⟨front, back, hhistory, -⟩
  simp at hhistory

/-- What was done when the stream had been handed out was done after that. -/
theorem DoneWhen.handedOut (h : DoneWhen deed HandedOut history) : HandedOut history := by
  obtain ⟨front, back, rfl, hfront⟩ := h
  exact hfront.append _

theorem HandedOut.mem (h : HandedOut history) : .latest ∈ history := by
  obtain ⟨front, back, rfl, -⟩ := h
  simp

/-- While the store is there, the stream is handed out as soon as it is asked for. -/
theorem handedOut_iff_mem (h : .dropStore ∉ history) : HandedOut history ↔ .latest ∈ history := by
  refine ⟨HandedOut.mem, fun hmem => ?_⟩
  obtain ⟨front, back, rfl⟩ := List.append_of_mem hmem
  exact ⟨front, back, rfl, fun hfront => h (List.mem_append_left _ hfront)⟩

/-- The store went before the stream was asked for exactly when it went and the stream was never
handed out. -/
theorem doneWhen_dropStore_iff :
    DoneWhen .dropStore (fun before => .latest ∉ before) history ↔
      .dropStore ∈ history ∧ ¬ HandedOut history := by
  constructor
  · rintro ⟨front, back, rfl, hasked⟩
    refine ⟨by simp, ?_⟩
    rintro ⟨front', back', hhistory, hthere⟩
    -- whichever of the two steps comes first would have to be missing before the other
    rcases List.append_eq_append_iff.1 hhistory with ⟨middle, rfl, hback⟩ | ⟨middle, rfl, hback⟩
    · cases middle with
      | nil => simp at hback
      | cons first middle =>
        obtain ⟨rfl, -⟩ := List.cons.inj hback
        exact hthere (by simp)
    · cases middle with
      | nil => simp at hback
      | cons first middle =>
        obtain ⟨rfl, -⟩ := List.cons.inj hback
        exact hasked (by simp)
  · rintro ⟨hmem, hnot⟩
    obtain ⟨front, back, rfl, hfront⟩ := List.eq_append_cons_of_mem hmem
    refine ⟨front, back, rfl, fun hasked => hnot ?_⟩
    exact DoneWhen.append ((handedOut_iff_mem hfront).2 hasked) _

theorem Unreceivable.append (h : Unreceivable history) (later : List Step) :
    Unreceivable (history ++ later) := by
  cases h with
  | withStream h => exact .withStream (h.append later)
  | withStore h => exact .withStore (h.append later)

/-- Once the stream is handed out, the store may go. -/
theorem HandedOut.unreceivable_dropStore (h : HandedOut history) :
    Unreceivable (history ++ [.dropStore]) ↔ Unreceivable history := by
  refine ⟨fun hgone => ?_, fun hgone => hgone.append _⟩
  cases hgone with
  | withStream hgone =>
    rcases doneWhen_concat.1 hgone with hgone | ⟨hstep, -⟩
    · exact .withStream hgone
    · cases hstep
  | withStore hgone =>
    rcases doneWhen_concat.1 hgone with hgone | ⟨-, hasked⟩
    · exact .withStore hgone
    · exact absurd h.mem hasked

/-! ## Who holds the receiving end -/

/-- What an account says about the store and the stream, told by the order of the steps. -/
structure Ordered (history : List Step) (holders : Holders) : Prop where
  store : holders.store = true ↔ .dropStore ∉ history
  taken : holders.taken = true ↔ HandedOut history
  stream : holders.stream = true ↔ HandedOut history ∧ ¬ DoneWhen .dropStream HandedOut history

/-- One more step is told by its place behind the others. -/
theorem Ordered.step {holders : Holders} (h : Ordered history holders) (step : Step) :
    Ordered (history ++ [step]) (holders.after step) := by
  obtain ⟨hstore, htaken, hstream⟩ := h
  have hhanded (last : Step) : HandedOut (history ++ [last]) ↔
      HandedOut history ∨ last = .latest ∧ .dropStore ∉ history := doneWhen_concat
  cases step with
  | dropStream =>
    refine ⟨?_, ?_, ?_⟩
    · simpa [Holders.after] using hstore
    · simpa [Holders.after, hhanded] using htaken
    · -- it is dropped now, if it was handed out at all
      have hdropped : HandedOut (history ++ [.dropStream]) →
          DoneWhen .dropStream HandedOut (history ++ [.dropStream]) := by
        rw [hhanded, doneWhen_concat]
        simp +contextual
      simpa [Holders.after] using hdropped
  | latest =>
    have hout : DoneWhen .dropStream HandedOut (history ++ [.latest]) ↔
        DoneWhen .dropStream HandedOut history := by
      rw [doneWhen_concat]
      simp
    by_cases hfree : holders.store = true ∧ holders.taken = false
    · -- it was not handed out until now, so it was not dropped either
      have hnot : ¬ HandedOut history := by simp [← htaken, hfree.2]
      have hkept : ¬ DoneWhen .dropStream HandedOut history := fun hdone => hnot hdone.handedOut
      have hthere : .dropStore ∉ history := hstore.1 hfree.1
      refine ⟨?_, ?_, ?_⟩
      · simpa [Holders.after, hfree] using hthere
      · simp [Holders.after, hhanded, hfree, hthere]
      · simp [Holders.after, hhanded, hout, hfree, hthere, hkept]
    · have hafter : holders.after .latest = holders := by
        rw [Holders.after, if_neg (by simpa using hfree)]
      have hsame : HandedOut (history ++ [.latest]) ↔ HandedOut history := by
        rw [hhanded, ← hstore, ← htaken]
        simpa using hfree
      rw [hafter]
      refine ⟨?_, ?_, ?_⟩
      · simpa using hstore
      · rwa [hsame]
      · rwa [hsame, hout]
  | _ =>
    refine ⟨?_, ?_, ?_⟩
    · simp [Holders.after, hstore]
    · simp [Holders.after, hhanded, htaken]
    · simp [Holders.after, hhanded, doneWhen_concat, hstream]

theorem ordered_afterAll (history : List Step) : Ordered history (Holders.afterAll {} history) := by
  induction history using List.reverseRecOn with
  | nil =>
    have hnot : ¬ HandedOut [] := not_doneWhen_nil
    refine ⟨?_, ?_, ?_⟩ <;> simp [Holders.afterAll, hnot]
  | append_singleton history last ih =>
    have hafter : Holders.afterAll {} (history ++ [last]) =
        (Holders.afterAll {} history).after last := by
      simp [Holders.afterAll, List.foldl_append]
    rw [hafter]
    exact ih.step last

/-- Nothing can be received exactly when the receiving end went with its owner. -/
theorem receives_eq_false_iff (history : List Step) :
    (Holders.afterAll {} history).receives = false ↔ Unreceivable history := by
  obtain ⟨hstore, htaken, hstream⟩ := ordered_afterAll history
  rw [Holders.receives, Bool.or_eq_false_iff]
  constructor
  · rintro ⟨hnone, hfree⟩
    by_cases hout : HandedOut history
    · refine .withStream (Classical.byContradiction fun hkept => ?_)
      rw [hstream.2 ⟨hout, hkept⟩] at hnone
      cases hnone
    · refine .withStore (doneWhen_dropStore_iff.2 ⟨?_, hout⟩)
      by_contra hthere
      rw [← htaken, Bool.not_eq_true] at hout
      rw [hstore.2 hthere, hout] at hfree
      cases hfree
  · intro hgone
    rw [← Bool.not_eq_true, hstream]
    cases hgone with
    | withStream hgone =>
      exact ⟨fun hheld => hheld.2 hgone, by simp [htaken.2 hgone.handedOut]⟩
    | withStore hgone =>
      obtain ⟨hmem, hnot⟩ := doneWhen_dropStore_iff.1 hgone
      have hfalse : ¬ (Holders.afterAll {} history).store = true :=
        fun hthere => hstore.1 hthere hmem
      exact ⟨fun hheld => hnot hheld.1, by simp [Bool.not_eq_true _ ▸ hfalse]⟩

/-! ## The answers -/

section

variable {announced yielded : List ImageRefs} {store : ImageStore} {publisher : Nat}

/-- The first call for the stream is the one that gets it. -/
theorem latest_answer (h : Tallied announced yielded (Holders.afterAll {} history) store) :
    (store.step .latest).1 = .latest (
      if .dropStore ∈ history then none
      else if .latest ∈ history then some (.error .alreadyTaken)
      else some (.ok ())) := by
  obtain ⟨hstore, htaken, -⟩ := ordered_afterAll history
  rw [h.latest]
  by_cases hdropped : .dropStore ∈ history
  · have hfalse : (Holders.afterAll {} history).store = false := by
      rw [← Bool.not_eq_true, hstore]
      exact not_not_intro hdropped
    simp [hdropped, hfalse]
  · have hasked : (Holders.afterAll {} history).taken = true ↔ .latest ∈ history :=
      htaken.trans (handedOut_iff_mem hdropped)
    simp [hdropped, hstore.2 hdropped, hasked]

/-- A publisher that is there is refused when nothing can be received, and only then. -/
theorem publish_answer (h : Tallied announced yielded (Holders.afterAll {} history) store)
    (hthere : publisher ∈ (Holders.afterAll {} history).publishers) (refs : ImageRefs) :
    ((store.step (.publish publisher refs)).1 = .published (some (.error .closed)) ↔
      Unreceivable history) ∧
    ((store.step (.publish publisher refs)).1 = .published (some (.ok ())) ↔
      ¬ Unreceivable history) := by
  rw [h.publish, ← receives_eq_false_iff]
  cases (Holders.afterAll {} history).receives <;> simp [hthere]

/-- Whoever is refused was there, for one that is gone is told nothing. -/
theorem mem_publishers_of_closed
    (h : Tallied announced yielded (Holders.afterAll {} history) store) {refs : ImageRefs}
    (hclosed : (store.step (.publish publisher refs)).1 = .published (some (.error .closed))) :
    publisher ∈ (Holders.afterAll {} history).publishers := by
  by_contra hgone
  rw [h.publish, if_pos hgone] at hclosed
  cases hclosed

theorem embedded_answer (h : Tallied announced yielded (Holders.afterAll {} history) store) :
    (store.step .embedded).1 =
      .embedded (if .dropStore ∈ history then none else some store.embedded) := by
  obtain ⟨hstore, -, -⟩ := ordered_afterAll history
  have hopen := h.isOpen
  simp only [ImageStore.step, embedded?, hopen]
  by_cases hdropped : .dropStore ∈ history
  · rw [if_neg fun hthere => hstore.1 hthere hdropped, if_pos hdropped]
  · rw [if_pos (hstore.2 hdropped), if_neg hdropped]

end

/-- Whatever was done with the store and its channel:

- the stream is handed out when it is asked for first and not again, as long as the store is there;
- a publisher that is there is refused exactly when the receiving end went with its owner, and for
  that it does not count that the store is dropped once the stream is out;
- after one publisher was refused, each of them is, whatever is done in between;
- the images that are built in stay the same. -/
theorem latest_once_closed_for_good (embedded : ImageRefs) (isSeeded : Bool)
    (history : List Step) :
    let store := if isSeeded then seeded embedded else plain embedded
    let now := (store.steps history).2
    (now.step .latest).1 = .latest (
      if .dropStore ∈ history then none
      else if .latest ∈ history then some (.error .alreadyTaken)
      else some (.ok ())) ∧
    (∀ publisher ∈ (Holders.afterAll {} history).publishers, ∀ refs,
      ((now.step (.publish publisher refs)).1 = .published (some (.error .closed)) ↔
        Unreceivable history) ∧
      ((now.step (.publish publisher refs)).1 = .published (some (.ok ())) ↔
        ¬ Unreceivable history)) ∧
    (HandedOut history → (Unreceivable (history ++ [.dropStore]) ↔ Unreceivable history)) ∧
    (∀ publisher refs, (now.step (.publish publisher refs)).1 = .published (some (.error .closed)) →
      ∀ later, ∀ other ∈ (Holders.afterAll {} (history ++ later)).publishers, ∀ newer,
        ((now.steps later).2.step (.publish other newer)).1 = .published (some (.error .closed))) ∧
    (now.step .embedded).1 = .embedded (if .dropStore ∈ history then none else some embedded) := by
  intro store now
  have htallied (done : List Step) : ∃ announced yielded,
      Tallied announced yielded (Holders.afterAll {} done) (store.steps done).2 := by
    cases isSeeded
    · exact ⟨_, _, (tallied_plain embedded).steps done⟩
    · exact ⟨_, _, (tallied_seeded embedded).steps done⟩
  have hbuiltIn : now.embedded = embedded := by
    rw [embedded_steps]
    cases isSeeded <;> rfl
  obtain ⟨_, _, hnow⟩ := htallied history
  refine ⟨latest_answer hnow, fun publisher hthere refs => publish_answer hnow hthere refs,
    HandedOut.unreceivable_dropStore, fun publisher refs hclosed later other hother newer => ?_,
    hbuiltIn ▸ embedded_answer hnow⟩
  -- what cannot be received now cannot be received later
  have hthere := mem_publishers_of_closed hnow hclosed
  have hgone : Unreceivable history := (publish_answer hnow hthere refs).1.1 hclosed
  obtain ⟨_, _, hlater⟩ := htallied (history ++ later)
  rw [← steps_append]
  exact (publish_answer hlater hother newer).1.2 (hgone.append later)

/-- The store is dropped before its stream was asked for: both publishers are refused, also the one
that is left when the other was dropped. -/
theorem latest_once_closed_for_good_orphaned :
    let refs : ImageRefs := { supervisor := "sup:v1", updater := "upd:v1" }
    let now := ((plain refs).steps [.clone 0, .dropStore]).2
    (now.step (.publish 0 refs)).1 = .published (some (.error .closed)) ∧
    ((now.steps [.dropPublisher 0]).2.step (.publish 1 refs)).1 =
      .published (some (.error .closed)) := by
  intro refs now
  have hall := latest_once_closed_for_good refs false [.clone 0, .dropStore]
  have hclosed : (now.step (.publish 0 refs)).1 = .published (some (.error .closed)) := rfl
  exact ⟨hclosed, hall.2.2.2.1 0 refs hclosed [.dropPublisher 0] 1 (by decide) refs⟩

end Caretaker.ImageStore
