import Caretaker.Proofs.Attempts

/-!
# What a wait for an exit goes by

A wait for an exit is one request, and all that is known of the exit is how that request ends.  An
engine tells of the exit by a record, whatever the code in it is, or says that the container is not
there.  But a stream that ends without a record passes for an exit as well, although nothing in it
is about the container.

Main definitions:

- `Outcome.TellsExit`, `Outcome.IsBlank`: streams with a record and streams without any.

Main statements:

- `exit_confirmed_iff`: when a wait for an exit is over without a fault.
- `exit_without_record`: a wait that is over although the engine told of no exit.
-/

namespace Caretaker.Engine

open Container (Call Fault)
open Script

/-! ## Streams of exits -/

/-- Whether the end of a wait begins with the record of an exit. -/
def Outcome.TellsExit (outcome : Outcome) : Prop :=
  ∃ body, outcome.body = .ok body ∧ (Json.Stream.read Answer.exit? body).items ≠ []

/-- Whether the end of a wait is a stream that ends well and has no record in it. -/
def Outcome.IsBlank (outcome : Outcome) : Prop :=
  ∃ body, outcome.body = .ok body ∧ (Json.Stream.read Answer.exit? body).items = [] ∧
    (Json.Stream.read Answer.exit? body).isWhole

/-- What decides a wait is an answer. -/
theorem Outcome.answered_of_decisive {outcome : Outcome}
    (h : outcome.TellsExit ∨ outcome.IsMissing ∨ outcome.IsBlank) :
    ∃ status body, outcome = .answered status body := by
  rcases h with ⟨body, hbody, -⟩ | ⟨fault, hbody, hstatus⟩ | ⟨body, hbody, -⟩
  · exact ⟨_, _, (answered_of_body hbody).choose_spec⟩
  · exact ⟨_, _, (answered_of_status hbody hstatus).choose_spec⟩
  · exact ⟨_, _, (answered_of_body hbody).choose_spec⟩

section Decisive

variable {outcome : Outcome}

/-- A stream decides a wait by a record in it, or by the end of it. -/
theorem Outcome.decisive_of_body {body : List UInt8} (h : outcome.body = .ok body) :
    (Json.Stream.read Answer.exit? body).items ≠ [] ∨ (Json.Stream.read Answer.exit? body).isWhole ↔
      outcome.TellsExit ∨ outcome.IsMissing ∨ outcome.IsBlank := by
  constructor
  · by_cases hitems : (Json.Stream.read Answer.exit? body).items = []
    · rintro (hsome | hwhole)
      · exact absurd hitems hsome
      · exact .inr (.inr ⟨body, h, hitems, hwhole⟩)
    · exact fun _ => .inl ⟨body, h, hitems⟩
  · rintro (⟨body', hbody, hitems⟩ | ⟨fault, hbody, -⟩ | ⟨body', hbody, -, hwhole⟩)
    · obtain rfl := Except.ok.inj (h.symm.trans hbody)
      exact .inl hitems
    · cases h.symm.trans hbody
    · obtain rfl := Except.ok.inj (h.symm.trans hbody)
      exact .inr hwhole

/-- Of the faults only the status of something that is not there decides a wait. -/
theorem Outcome.decisive_of_fault {fault : EngineFault} (h : outcome.body = .error fault) :
    fault.status? = some notThere ↔
      outcome.TellsExit ∨ outcome.IsMissing ∨ outcome.IsBlank := by
  constructor
  · exact fun hstatus => .inr (.inl ⟨fault, h, hstatus⟩)
  · rintro (⟨body, hbody, -⟩ | ⟨fault', hbody, hstatus⟩ | ⟨body, hbody, -⟩)
    · cases h.symm.trans hbody
    · obtain rfl := Except.error.inj (h.symm.trans hbody)
      exact hstatus
    · cases h.symm.trans hbody

end Decisive

/-! ## The wait -/

section Wait

variable (id : String)

/-- A stream that began is read without any request. -/
theorem tries_exitOf (exits : Json.Stream Answer.Exit) (tried : List Sent) :
    (exitOf id exits).run.Ensures Attempts.rule (fun result after =>
      after = tried ∧ (result = .ok () ↔ exits.items ≠ [] ∨ exits.isWhole)) tried := by
  unfold exitOf
  split
  · next hitems =>
    split
    · next hwhole => exact ⟨rfl, iff_of_true rfl (.inr hwhole)⟩
    · next hcut =>
      have hno : ¬ (exits.items ≠ [] ∨ exits.isWhole = true) := by
        rintro (hsome | hwhole)
        · exact hsome hitems
        · exact hcut hwhole
      exact ⟨rfl, iff_of_false nofun hno⟩
  · next exit rest hitems =>
    have hsome : exits.items ≠ [] := by
      rw [hitems]
      exact List.cons_ne_nil _ _
    dsimp only
    split
    · exact ⟨rfl, iff_of_true rfl (.inl hsome)⟩
    · exact ⟨rfl, iff_of_true rfl (.inl hsome)⟩

/-- A wait is one request, and its end decides. -/
theorem tries_awaitExit (timing : Timing) :
    (awaitExit timing id).run.Ensures Attempts.rule (fun result tried =>
      ∃ outcome, tried = [⟨.awaitExit id, min timing.limit requestLimit, outcome⟩] ∧
        (result = .ok () ↔ outcome.TellsExit ∨ outcome.IsMissing ∨ outcome.IsBlank)) [] := by
  unfold awaitExit
  rw [ensures_run_bind, ExceptT.run_lift, tries_send]
  intro outcome
  dsimp only
  split
  · next =>
    have hno :
        ¬ (Outcome.silent.TellsExit ∨ Outcome.silent.IsMissing ∨ Outcome.silent.IsBlank) := by
      intro h
      obtain ⟨status, body, hanswered⟩ := Outcome.answered_of_decisive h
      cases hanswered
    split
    · exact ⟨_, rfl, iff_of_false nofun hno⟩
    · exact ⟨_, rfl, iff_of_false nofun hno⟩
  · cases hbody : outcome.body with
    | ok body =>
      refine (tries_exitOf id _ _).mono Attempts.rule_monotone ?_
      rintro result _ ⟨rfl, hresult⟩
      exact ⟨outcome, rfl, hresult.trans (Outcome.decisive_of_body hbody)⟩
    | error fault =>
      have hdecisive := Outcome.decisive_of_fault hbody
      dsimp only
      split
      · next hstatus => exact ⟨outcome, rfl, iff_of_true rfl (hdecisive.1 hstatus)⟩
      · next hstatus => exact ⟨outcome, rfl, iff_of_false nofun (mt hdecisive.2 hstatus)⟩

end Wait

/-- A wait for an exit is over without a fault just if the engine answered with the record of an
exit, with the status for a container that is not there, or with a stream that ends without a
record.  It did so in time.

The answer is one body, and it is there as a whole after a delay: a wait that reaches the limit of
the request or of the wait is one without any answer, whatever a part of the body would have
told. -/
theorem exit_confirmed_iff (e : Scripted) (id : String) :
    let reply := Scripted.perform (.awaitExit id) e
    ∃ outcome, e.Tried [⟨.awaitExit id, min e.timing.limit requestLimit, outcome⟩] reply.state ∧
      (reply.answer = .ok () ↔ outcome.TellsExit ∨ outcome.IsMissing ∨ outcome.IsBlank) ∧
      (reply.answer = .ok () → (e.reaction 0).delay ≤ e.timing.limit) := by
  obtain ⟨tried, htried, outcome, rfl, hok⟩ :=
    @Scripted.tried_perform (.awaitExit id) e _ (tries_awaitExit id e.timing)
  refine ⟨outcome, htried, hok, fun hanswer => ?_⟩
  obtain ⟨status, body, hanswered⟩ := Outcome.answered_of_decisive (hok.1 hanswer)
  have hends := htried.outcomes 0 _ rfl
  exact Nat.le_trans (Scripted.delay_le_of_answered (hends.symm.trans hanswered))
    (Nat.min_le_left _ _)

namespace Sample

/-- An engine that answers a wait with nothing. -/
def mute : Scripted where
  reactions := [.answering 200 ""]

end Sample

/-- A wait is over although the engine told of no exit and did not miss the container. -/
theorem exit_without_record :
    let reply := Scripted.perform (.awaitExit "x") Sample.mute
    ∃ outcome, Sample.mute.Tried
        [⟨.awaitExit "x", min Sample.mute.timing.limit requestLimit, outcome⟩] reply.state ∧
      reply.answer = .ok () ∧ ¬ outcome.TellsExit ∧ ¬ outcome.IsMissing := by
  intro reply
  obtain ⟨tried, htried, outcome, rfl, hok⟩ :=
    @Scripted.tried_perform (.awaitExit "x") Sample.mute _ (tries_awaitExit "x" _)
  have hends :
      Sample.mute.ends 0 (min Sample.mute.timing.limit requestLimit) = .answered 200 [] := by
    decide +kernel
  obtain rfl : outcome = .answered 200 [] := (htried.outcomes 0 _ rfl).trans hends
  have hblank : (Outcome.answered 200 []).IsBlank := ⟨[], rfl, rfl, rfl⟩
  refine ⟨_, htried, hok.2 (.inr (.inr hblank)), ?_, ?_⟩
  · rintro ⟨body, hbody, hitems⟩
    obtain rfl := Except.ok.inj hbody
    exact hitems rfl
  · rintro ⟨fault, hbody, -⟩
    cases hbody

end Caretaker.Engine
