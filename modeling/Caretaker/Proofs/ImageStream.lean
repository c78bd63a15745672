import Mathlib.Data.List.Basic
import Caretaker.Images.Store

/-!
# What the image stream yields

Publishers may announce, be cloned and be dropped in any order while the stream is not yet handed
out, is read, or is gone.  Whatever was done, everything that was announced and accepted is either
yielded already or still in the channel, in the order it was announced in.

Who holds an end of the channel is read off what was done alone (`Holders.after`), and so is what
was announced and what was yielded, from the steps and their answers.  One step keeps the account of
these together with the channel (`Tallied.step`), so every history keeps it (`Tallied.steps`).

Main statements:
- `yielded_prefix_of_announced`: what the stream yielded is a prefix of what was announced, and the
  next answer of the stream, of a publisher and of the store is told by the history.
-/

namespace Caretaker.ImageStore

/-- No step changes what is built in. -/
theorem embedded_step (store : ImageStore) (step : Step) :
    (store.step step).2.embedded = store.embedded := by
  cases step with
  | publish publisher refs =>
    simp only [ImageStore.step, publish?]
    split
    · rfl
    · split <;> rfl
  | dropStream =>
    simp only [ImageStore.step, dropStream]
    split <;> rfl
  | dropStore =>
    simp only [ImageStore.step, dropStore]
    split <;> rfl
  | latest =>
    simp only [ImageStore.step, latest?]
    split
    · rfl
    · split <;> rfl
  | next =>
    simp only [ImageStore.step, poll?]
    split
    · rfl
    · split <;> rfl
  | _ => rfl

theorem embedded_steps (store : ImageStore) (history : List Step) :
    (store.steps history).2.embedded = store.embedded := by
  induction history generalizing store with
  | nil => rfl
  | cons step rest ih => exact (ih _).trans (embedded_step store step)

/-- Steps one after the other come to where all of them come. -/
theorem steps_append (store : ImageStore) (first second : List Step) :
    (store.steps (first ++ second)).2 = ((store.steps first).2.steps second).2 := by
  induction first generalizing store with
  | nil => rfl
  | cons step rest ih => exact ih _

/-! ## Reading a history -/

/-- The images a publisher was told it had announced, if the step did that. -/
def Step.accepted? : Step → Answer → Option ImageRefs
  | .publish _ refs, .published (some (.ok ())) => some refs
  | _, _ => none

/-- The images the stream yielded, if the answer gives some. -/
def Answer.yielded? : Answer → Option ImageRefs
  | .next (some (.item refs)) => some refs
  | _ => none

/-- What was announced and accepted in a history, in order. -/
def accepted (history : List Step) (answers : List Answer) : List ImageRefs :=
  (history.zip answers).filterMap fun exchange => exchange.1.accepted? exchange.2

/-- What the stream yielded, in order. -/
def yielded (answers : List Answer) : List ImageRefs :=
  answers.filterMap Answer.yielded?

/-- Who holds something of the channel: the publishers, the store and the stream. -/
structure Holders where
  /-- How many publishers were made so far; the next one gets this number. -/
  made : Nat := 1
  /-- The publishers that are still there, by number. -/
  publishers : List Nat := [0]
  /-- Whether the store is still there. -/
  store : Bool := true
  /-- Whether the stream was handed out. -/
  taken : Bool := false
  /-- Whether the stream was handed out and is still there. -/
  stream : Bool := false
deriving DecidableEq, Repr

/-- Who holds something after one more step. -/
def Holders.after (holders : Holders) : Step → Holders
  | .clone publisher =>
    { holders with
      made := holders.made + 1
      publishers :=
        if publisher ∈ holders.publishers then holders.made :: holders.publishers
        else holders.publishers }
  | .dropPublisher publisher =>
    { holders with publishers := holders.publishers.filter (· ≠ publisher) }
  | .dropStream => { holders with stream := false }
  | .dropStore => { holders with store := false }
  | .latest =>
    if holders.store && !holders.taken then { holders with taken := true, stream := true }
    else holders
  | .publish .. | .embedded | .next => holders

/-- Who holds something after a history. -/
def Holders.afterAll (holders : Holders) (history : List Step) : Holders :=
  history.foldl Holders.after holders

/-- Whether something that is announced now can still be received. -/
def Holders.receives (holders : Holders) : Bool :=
  holders.stream || (holders.store && !holders.taken)

/-! ## The account of a channel -/

/-- The account of a channel: its holders are these, and what was announced was yielded or is still
pending, unless nobody can receive any more. -/
structure Tallied (announced yielded : List ImageRefs) (holders : Holders) (store : ImageStore) :
    Prop where
  isOpen : store.isOpen = holders.store
  receiver : store.receiver =
    if holders.stream then .streaming
    else if holders.store && !holders.taken then .stored
    else .gone
  taken : holders.stream = true → holders.taken = true
  backlog : holders.receives = true → announced = yielded ++ store.pending
  isPrefix : yielded <+: announced
  made : store.publishers.length = holders.made
  publishers : ∀ publisher,
    store.hasPublisher publisher = true ↔ publisher ∈ holders.publishers

section

variable {announced yielded : List ImageRefs} {holders : Holders} {store : ImageStore}

theorem tallied_plain (embedded : ImageRefs) : Tallied [] [] {} (plain embedded) where
  isOpen := rfl
  receiver := rfl
  taken := nofun
  backlog _ := rfl
  isPrefix := List.prefix_refl []
  made := rfl
  publishers publisher := by cases publisher <;> simp [plain, hasPublisher]

theorem tallied_seeded (embedded : ImageRefs) : Tallied [embedded] [] {} (seeded embedded) where
  isOpen := rfl
  receiver := rfl
  taken := nofun
  backlog _ := rfl
  isPrefix := List.nil_prefix
  made := rfl
  publishers publisher := by cases publisher <;> simp [seeded, hasPublisher]

/-- The stream can be read exactly while it is held. -/
theorem Tallied.streaming_iff (h : Tallied announced yielded holders store) :
    store.receiver = .streaming ↔ holders.stream = true := by
  rw [h.receiver]
  cases holders.stream <;> cases holders.store <;> cases holders.taken <;> simp

/-- The receiving end waits in the store exactly while the stream can still be handed out. -/
theorem Tallied.stored_iff (h : Tallied announced yielded holders store) :
    store.receiver = .stored ↔ holders.store = true ∧ holders.taken = false := by
  have htaken := h.taken
  rw [h.receiver]
  cases hstream : holders.stream <;> cases holders.store <;> cases hgiven : holders.taken <;>
    simp_all

/-- Nothing can be received exactly when neither the stream nor a store that has it is held. -/
theorem Tallied.gone_iff (h : Tallied announced yielded holders store) :
    store.receiver = .gone ↔ holders.receives = false := by
  rw [h.receiver, Holders.receives]
  cases holders.stream <;> cases holders.store <;> cases holders.taken <;> simp

/-- Some publisher is there in the store exactly when one is there by the account. -/
theorem Tallied.any_publishers (h : Tallied announced yielded holders store) :
    store.publishers.any id = true ↔ holders.publishers ≠ [] := by
  constructor
  · intro hany hnone
    obtain ⟨there, hmem, hthere⟩ := List.any_eq_true.1 hany
    obtain ⟨publisher, hlt, hget⟩ := List.mem_iff_getElem.1 hmem
    have hhas : store.hasPublisher publisher = true := by
      simpa [hasPublisher, List.getElem?_eq_getElem hlt, hget] using hthere
    have := (h.publishers publisher).1 hhas
    rw [hnone] at this
    exact absurd this List.not_mem_nil
  · intro hsome
    obtain ⟨publisher, hmem⟩ := List.exists_mem_of_ne_nil _ hsome
    have hhas := (h.publishers publisher).2 hmem
    rw [hasPublisher] at hhas
    rcases hget : store.publishers[publisher]? with _ | there
    · simp [hget] at hhas
    · have hthere : there = true := by simpa [hget] using hhas
      exact List.any_eq_true.2 ⟨there, List.mem_of_getElem? hget, hthere⟩

/-! ## What is answered next -/

/-- What an announcement is answered with. -/
theorem Tallied.publish (h : Tallied announced yielded holders store) (publisher : Nat)
    (refs : ImageRefs) :
    (store.step (.publish publisher refs)).1 = .published (
      if publisher ∉ holders.publishers then none
      else if holders.receives then some (.ok ())
      else some (.error .closed)) := by
  have hpublisher := h.publishers publisher
  have hgone := h.gone_iff
  simp only [ImageStore.step, publish?]
  by_cases hthere : publisher ∈ holders.publishers
  · cases hreceives : holders.receives <;> simp_all
  · simp_all

/-- What the store answers when it is asked for the stream. -/
theorem Tallied.latest (h : Tallied announced yielded holders store) :
    (store.step .latest).1 = .latest (
      if !holders.store then none
      else if holders.taken then some (.error .alreadyTaken)
      else some (.ok ())) := by
  have hopen := h.isOpen
  have hstored := h.stored_iff
  simp only [ImageStore.step, latest?]
  cases hstore : holders.store
  · simp_all
  · cases htaken : holders.taken <;> simp_all

/-- What the stream answers when it is asked for the next images. -/
theorem Tallied.next (h : Tallied announced yielded holders store) :
    (store.step .next).1 = .next (
      if !holders.stream then none
      else match announced.drop yielded.length with
        | refs :: _ => some (.item refs)
        | [] => some (if holders.publishers = [] then .ended else .pending)) := by
  have hstreaming := h.streaming_iff
  have hany := h.any_publishers
  have hbacklog := h.backlog
  simp only [ImageStore.step, poll?]
  cases hstream : holders.stream
  · simp_all
  · have hreceiver : store.receiver = .streaming := hstreaming.2 hstream
    have hpending : announced.drop yielded.length = store.pending := by
      rw [hbacklog (by simp [Holders.receives, hstream]), List.drop_left]
    rw [hpending, hreceiver]
    rcases store.pending with _ | ⟨refs, rest⟩
    · by_cases hnone : holders.publishers = []
      · have hnobody : store.publishers.any id = false := by
          rw [← Bool.not_eq_true]
          exact fun hsome => hany.1 hsome hnone
        simp [hnone, hnobody]
      · simp [hnone, hany.2 hnone]
    · simp

/-! ## One step -/

theorem Tallied.afterPublish (h : Tallied announced yielded holders store) (publisher : Nat)
    (refs : ImageRefs) :
    Tallied (announced ++ ((Step.publish publisher refs).accepted?
        (store.step (.publish publisher refs)).1).toList)
      yielded holders (store.step (.publish publisher refs)).2 := by
  rw [h.publish]
  have hpublisher := h.publishers publisher
  have hgone := h.gone_iff
  simp only [ImageStore.step, publish?]
  by_cases hthere : publisher ∈ holders.publishers
  · cases hreceives : holders.receives
    · -- nobody can receive: refused, and nothing is announced
      simp_all [Step.accepted?]
    · -- accepted: announced and pending grow by the same images
      have hnot : store.receiver ≠ .gone := by
        intro hreceiver
        have := hgone.1 hreceiver
        rw [hreceives] at this
        cases this
      simp only [hpublisher.2 hthere, hthere, hnot, Step.accepted?, Bool.not_true,
        Bool.false_eq_true, if_false, if_true, not_true, Option.toList_some]
      exact { h with
        backlog := fun hnow => by rw [h.backlog hnow, List.append_assoc]
        isPrefix := h.isPrefix.trans (List.prefix_append _ _) }
  · simp_all [Step.accepted?]

theorem Tallied.afterClone (h : Tallied announced yielded holders store) (publisher : Nat) :
    Tallied announced yielded (holders.after (.clone publisher))
      (store.step (.clone publisher)).2 := by
  refine { h with
    backlog := h.backlog
    made := by simp [ImageStore.step, clonePublisher, Holders.after, h.made]
    publishers := ?_ }
  intro other
  have hother := h.publishers other
  have hpublisher := h.publishers publisher
  simp only [ImageStore.step, clonePublisher, Holders.after, hasPublisher] at hother hpublisher ⊢
  rcases Nat.lt_trichotomy other store.publishers.length with hlt | heq | hgt
  · -- an older publisher is as it was
    rw [List.getElem?_append_left hlt]
    have hne : other ≠ holders.made := by rw [← h.made]; omega
    split <;> simp [hother, hne]
  · -- the new one is there if the one it was made from is
    have hnew : other ∉ holders.publishers := by
      rw [← hother, heq]
      simp
    have hmade : other = holders.made := by rw [← h.made]; exact heq
    rw [heq, List.getElem?_concat_length, ← heq]
    split <;> rename_i hfrom
    · simpa [hmade] using hpublisher.2 hfrom
    · simp only [Option.getD_some, hnew, iff_false]
      exact fun hhas => hfrom (hpublisher.1 hhas)
  · -- a number that was never given out
    have hnone : other ∉ holders.publishers := by
      rw [← hother, List.getElem?_eq_none (by omega)]
      simp
    have hne : other ≠ holders.made := by rw [← h.made]; omega
    rw [List.getElem?_eq_none (by simp; omega)]
    split <;> simp [hnone, hne]

theorem Tallied.afterDropPublisher (h : Tallied announced yielded holders store)
    (publisher : Nat) :
    Tallied announced yielded (holders.after (.dropPublisher publisher))
      (store.step (.dropPublisher publisher)).2 := by
  refine { h with
    backlog := h.backlog
    made := by simp [ImageStore.step, dropPublisher, Holders.after, h.made]
    publishers := ?_ }
  intro other
  have hother := h.publishers other
  simp only [ImageStore.step, dropPublisher, Holders.after, hasPublisher] at hother ⊢
  by_cases heq : other = publisher
  · subst heq
    rw [List.getElem?_set_self']
    cases store.publishers[other]? <;> simp
  · rw [List.getElem?_set_ne (Ne.symm heq)]
    simp [hother, heq]

theorem Tallied.afterDropStream (h : Tallied announced yielded holders store) :
    Tallied announced yielded (holders.after .dropStream) (store.step .dropStream).2 := by
  have hstreaming := h.streaming_iff
  have htaken := h.taken
  simp only [ImageStore.step, dropStream, Holders.after]
  cases hstream : holders.stream
  · -- there is no stream to drop
    have hholders : { holders with stream := false } = holders := by rw [← hstream]
    rw [hholders, if_neg (by simp [hstreaming, hstream])]
    exact h
  · rw [if_pos (hstreaming.2 hstream)]
    refine { h with receiver := ?_, taken := nofun, backlog := ?_ }
    · simp [htaken hstream]
    · -- nothing can be received any more, so nothing is owed
      simp [Holders.receives, htaken hstream]

theorem Tallied.afterDropStore (h : Tallied announced yielded holders store) :
    Tallied announced yielded (holders.after .dropStore) (store.step .dropStore).2 := by
  have hstored := h.stored_iff
  have hreceiver := h.receiver
  have hbacklog := h.backlog
  simp only [ImageStore.step, dropStore, Holders.after]
  by_cases hat : store.receiver = .stored
  · rw [if_pos hat]
    have hstream : holders.stream = false := by
      cases hstream : holders.stream
      · rfl
      · rw [h.streaming_iff.2 hstream] at hat
        cases hat
    refine { h with isOpen := rfl, receiver := ?_, backlog := ?_ }
    · simp [hstream]
    · simp [Holders.receives, hstream]
  · rw [if_neg hat]
    have hgiven : (holders.store && !holders.taken) = false := by
      cases hstore : holders.store <;> cases htaken : holders.taken <;> simp_all
    refine { h with isOpen := rfl, receiver := ?_, backlog := ?_ }
    · simpa [hgiven] using hreceiver
    · simpa [Holders.receives, hgiven] using hbacklog

theorem Tallied.afterLatest (h : Tallied announced yielded holders store) :
    Tallied announced yielded (holders.after .latest) (store.step .latest).2 := by
  have hstored := h.stored_iff
  have hopen := h.isOpen
  simp only [ImageStore.step, latest?, Holders.after]
  by_cases hat : store.receiver = .stored
  · -- handed out with everything that is pending
    have ⟨hstore, hgiven⟩ := hstored.1 hat
    have hbacklog := h.backlog (by simp [Holders.receives, hstore, hgiven])
    have hthere : ¬(!store.isOpen) = true := by rw [hopen, hstore]; decide
    have hfree : (holders.store && !holders.taken) = true := by rw [hstore, hgiven]; rfl
    rw [if_pos hfree, if_neg hthere, if_pos hat]
    exact { h with
      receiver := rfl
      taken := fun _ => rfl
      backlog := fun _ => hbacklog }
  · have hgiven : (holders.store && !holders.taken) = false := by
      cases hstore : holders.store <;> cases htaken : holders.taken <;> simp_all
    simp only [hgiven, hat, Bool.false_eq_true, if_false]
    split <;> exact h

theorem Tallied.afterNext (h : Tallied announced yielded holders store) :
    Tallied announced (yielded ++ (store.step .next).1.yielded?.toList) holders
      (store.step .next).2 := by
  have hstreaming := h.streaming_iff
  simp only [ImageStore.step, poll?]
  by_cases hreceiver : store.receiver = .streaming
  · have hbacklog := h.backlog (by simp [Holders.receives, hstreaming.1 hreceiver])
    rw [if_neg (by simp [hreceiver])]
    rcases hpending : store.pending with _ | ⟨refs, rest⟩
    · -- nothing is pending, so nothing is yielded
      have hnothing : Answer.yielded? (.next (some (
          if store.publishers.any id then .pending else .ended))) = none := by
        split <;> rfl
      rw [hnothing, Option.toList_none, List.append_nil]
      exact h
    · -- the oldest pending images move from one side of the seam to the other
      have hseam : announced = (yielded ++ [refs]) ++ rest := by
        rw [hbacklog, hpending, List.append_assoc, List.singleton_append]
      exact { h with
        backlog := fun _ => hseam
        isPrefix := hseam ▸ List.prefix_append _ _ }
  · rw [if_pos hreceiver]
    simpa [Answer.yielded?] using h

/-- One step keeps the account. -/
theorem Tallied.step (h : Tallied announced yielded holders store) (step : Step) :
    Tallied (announced ++ (step.accepted? (store.step step).1).toList)
      (yielded ++ (store.step step).1.yielded?.toList) (holders.after step)
      (store.step step).2 := by
  cases step with
  | publish publisher refs =>
    simpa [ImageStore.step, Answer.yielded?, Holders.after] using h.afterPublish publisher refs
  | clone publisher =>
    simpa [ImageStore.step, Step.accepted?, Answer.yielded?] using h.afterClone publisher
  | dropPublisher publisher =>
    simpa [ImageStore.step, Step.accepted?, Answer.yielded?] using h.afterDropPublisher publisher
  | dropStream => simpa [ImageStore.step, Step.accepted?, Answer.yielded?] using h.afterDropStream
  | dropStore => simpa [ImageStore.step, Step.accepted?, Answer.yielded?] using h.afterDropStore
  | embedded => simpa [ImageStore.step, Step.accepted?, Answer.yielded?, Holders.after] using h
  | latest => simpa [ImageStore.step, Step.accepted?, Answer.yielded?] using h.afterLatest
  | next => simpa [Step.accepted?, Holders.after] using h.afterNext

/-! ## Every history -/

/-- Every history keeps the account. -/
theorem Tallied.steps (h : Tallied announced yielded holders store) (history : List Step) :
    Tallied (announced ++ accepted history (store.steps history).1)
      (yielded ++ ImageStore.yielded (store.steps history).1) (holders.afterAll history)
      (store.steps history).2 := by
  induction history generalizing announced yielded holders store with
  | nil => simpa [ImageStore.steps, accepted, ImageStore.yielded, Holders.afterAll] using h
  | cons step rest ih =>
    have hrest := ih (h.step step)
    have haccepted : accepted (step :: rest) (store.steps (step :: rest)).1 =
        (step.accepted? (store.step step).1).toList ++
          accepted rest ((store.step step).2.steps rest).1 := by
      simp only [accepted, ImageStore.steps, List.zip_cons_cons, List.filterMap_cons]
      cases step.accepted? (store.step step).1 <;> rfl
    have hyielded : ImageStore.yielded (store.steps (step :: rest)).1 =
        (store.step step).1.yielded?.toList ++
          ImageStore.yielded ((store.step step).2.steps rest).1 := by
      simp only [ImageStore.yielded, ImageStore.steps, List.filterMap_cons]
      cases (store.step step).1.yielded? <;> rfl
    rw [haccepted, hyielded, ← List.append_assoc, ← List.append_assoc]
    exact hrest

/-- While neither the stream nor the store is dropped, everything announced can be received, and
the stream is held once it was asked for. -/
theorem held_of_no_drop {history : List Step} (hstream : .dropStream ∉ history)
    (hstore : .dropStore ∉ history) :
    (Holders.afterAll {} history).receives = true ∧
      ((Holders.afterAll {} history).stream = true ↔ .latest ∈ history) := by
  -- before it is handed out, the stream is neither taken nor held, and afterwards it is both
  suffices hgiven : ∀ holders : Holders, holders.store = true → holders.stream = holders.taken →
      (holders.afterAll history).receives = true ∧
        ((holders.afterAll history).stream = true ↔ holders.stream = true ∨ .latest ∈ history) by
    simpa using hgiven {} rfl rfl
  induction history with
  | nil =>
    intro holders hthere hsame
    cases htaken : holders.taken <;> simp_all [Holders.afterAll, Holders.receives]
  | cons step rest ih =>
    intro holders hthere hsame
    have ih := ih (fun h => hstream (List.mem_cons_of_mem _ h))
      (fun h => hstore (List.mem_cons_of_mem _ h)) (holders.after step)
    cases step with
    | dropStream => exact absurd List.mem_cons_self hstream
    | dropStore => exact absurd List.mem_cons_self hstore
    | latest =>
      cases htaken : holders.taken <;>
        simp_all [Holders.afterAll, Holders.after]
    | _ => simp_all [Holders.afterAll, Holders.after]

end

/-- What the stream yielded is a prefix of what was announced and accepted, after the built-in
images if the channel was seeded, and the history tells every next answer. -/
theorem yielded_prefix_of_announced (embedded : ImageRefs) (isSeeded : Bool)
    (history : List Step) :
    let store := if isSeeded then seeded embedded else plain embedded
    let answers := (store.steps history).1
    let now := (store.steps history).2
    let announced := (if isSeeded then [embedded] else []) ++ accepted history answers
    let holders := Holders.afterAll {} history
    -- nothing is lost, doubled or out of order
    ImageStore.yielded answers <+: announced ∧
    -- what a publisher is told, and when the stream is handed out
    (∀ publisher refs, (now.step (.publish publisher refs)).1 = .published (
      if publisher ∉ holders.publishers then none
      else if holders.receives then some (.ok ())
      else some (.error .closed))) ∧
    (now.step .latest).1 = .latest (
      if !holders.store then none
      else if holders.taken then some (.error .alreadyTaken)
      else some (.ok ())) ∧
    (.dropStream ∉ history → .dropStore ∉ history →
      holders.receives = true ∧ (holders.stream = true ↔ .latest ∈ history)) ∧
    -- what the stream answers next
    (holders.stream = false → (now.step .next).1 = .next none) ∧
    (holders.stream = true →
      (∀ refs, (now.step .next).1 = .next (some (.item refs)) ↔
        ImageStore.yielded answers ++ [refs] <+: announced) ∧
      ((now.step .next).1 = .next (some .pending) ↔
        ImageStore.yielded answers = announced ∧ holders.publishers ≠ []) ∧
      ((now.step .next).1 = .next (some .ended) ↔
        ImageStore.yielded answers = announced ∧ holders.publishers = [])) := by
  intro store answers now announced holders
  have htallied : Tallied announced (ImageStore.yielded answers) holders now := by
    cases isSeeded
    · exact (tallied_plain embedded).steps history
    · exact (tallied_seeded embedded).steps history
  have hnext := htallied.next
  obtain ⟨rest, hannounced⟩ := htallied.isPrefix
  rw [← hannounced, List.drop_left] at hnext
  refine ⟨htallied.isPrefix, htallied.publish, htallied.latest, held_of_no_drop, ?_, ?_⟩
  · intro hstream
    rw [hnext, hstream]
    rfl
  · intro hstream
    rw [hnext, hstream]
    rcases rest with _ | ⟨first, rest⟩
    · -- everything was yielded: there is no longer prefix
      rw [List.append_nil] at hannounced
      have hnot : ∀ refs, ¬ announced ++ [refs] <+: announced := by
        intro refs hlonger
        have hlength := hlonger.length_le
        rw [List.length_append, List.length_singleton] at hlength
        omega
      by_cases hnone : holders.publishers = [] <;> simp [hnone, hnot, hannounced]
    · -- something is left: the first of it comes next, and nothing else
      have hnotAll : ImageStore.yielded answers ≠ announced := by
        intro hall
        have hlength := congrArg List.length hannounced
        rw [List.length_append, hall, List.length_cons] at hlength
        omega
      have hfirst : ∀ refs,
          ImageStore.yielded answers ++ [refs] <+: announced ↔ first = refs := by
        intro refs
        rw [← hannounced, List.prefix_append_right_inj, List.cons_prefix_cons]
        exact ⟨fun h => h.1.symm, fun h => ⟨h.symm, List.nil_prefix⟩⟩
      simp [hnotAll, hfirst]

end Caretaker.ImageStore
