import Caretaker.Engine.Scripted
import Caretaker.Proofs.Ensures

/-!
# What a client of an engine sends

A transcript holds the requests that reached an engine, each with its end.  Requests may end in any
way, and one that found no connection stands in no transcript.  What a call sends, and what its
answer says of the transcript, can so be told without a look at the script of the engine.

Main statements:

- `Scripted.told_run`: a scripted engine was asked what a transcript says, and ended each request as
  its script has it.
- `ensures_awaitPrune`: a container counts as gone only when a look at it was refused with the
  status for something that is not there.
- `only_perform`: nothing but a start asks for a container to be created.
-/

namespace Caretaker.Engine

open Script

/-- A request that was sent, with the time that its end had and the end itself. -/
structure Sent where
  request : Request
  limit : Nat
  outcome : Outcome

/-- How a transcript goes on: a request finds no connection, or is sent and ends in any way. -/
def Transcript.rule : Rule signature (List Sent)
  | .send request limit, told, post =>
    post .dropped told ∧ ∀ outcome : Outcome, post outcome (told ++ [⟨request, limit, outcome⟩])
  | .now, told, post => ∀ time : Nat, post time told
  | .pause _, told, post => post () told
  | .log _, told, post => post () told

theorem Transcript.rule_monotone : Transcript.rule.Monotone := by
  intro need told post post' himp h
  cases need with
  | send request limit => exact ⟨himp _ _ h.1, fun outcome => himp _ _ (h.2 outcome)⟩
  | now => exact fun time => himp _ _ (h time)
  | pause milliseconds => exact himp _ _ h
  | log event => exact himp _ _ h

theorem Transcript.rule_conjunctive : Transcript.rule.Conjunctive := by
  intro need told post post' h h'
  cases need with
  | send request limit => exact ⟨⟨h.1, h'.1⟩, fun outcome => ⟨h.2 outcome, h'.2 outcome⟩⟩
  | now => exact fun time => ⟨h time, h' time⟩
  | pause milliseconds => exact ⟨h, h'⟩
  | log event => exact ⟨h, h'⟩

/-- Whatever a client does, there is a transcript of it. -/
theorem ensures_transcript {α : Type} (action : Action α) (told : List Sent) :
    action.Ensures Transcript.rule (fun _ _ => True) told := by
  induction action generalizing told with
  | done value => trivial
  | ask need next ih =>
    cases need with
    | send request limit => exact ⟨ih _ _, fun outcome => ih _ _⟩
    | now => exact fun time => ih _ _
    | pause milliseconds => exact ih _ _
    | log event => exact ih _ _

/-! ## Scripted engines -/

namespace Scripted

variable {e e' e'' : Scripted} {told told' : List Sent}

/-- How the `n`th of the coming requests ends for a client that waits `limit` milliseconds. -/
def outcome (e : Scripted) (n limit : Nat) : Outcome :=
  ((e.reactions[n]?.getD .unscripted).within limit).1

/-- An engine was asked what a transcript says, and ended each request as its script has it. -/
structure Told (e : Scripted) (told : List Sent) (e' : Scripted) : Prop where
  requests : e'.requests = (told.map (·.request)).reverse ++ e.requests
  reactions : e'.reactions = e.reactions.drop told.length
  outcomes : ∀ n sent, told[n]? = some sent → sent.outcome = e.outcome n sent.limit

theorem Told.refl (e : Scripted) : Told e [] e where
  requests := rfl
  reactions := rfl
  outcomes n sent h := by cases h

/-- The script goes on where it was left. -/
theorem Told.outcome_eq (h : Told e told e') (n limit : Nat) :
    e'.outcome n limit = e.outcome (told.length + n) limit := by
  unfold outcome
  rw [h.reactions, List.getElem?_drop]

theorem Told.trans (h : Told e told e') (h' : Told e' told' e'') : Told e (told ++ told') e'' where
  requests := by
    rw [h'.requests, h.requests, List.map_append, List.reverse_append, List.append_assoc]
  reactions := by
    rw [h'.reactions, h.reactions, List.drop_drop, List.length_append]
  outcomes n sent hsent := by
    by_cases hn : n < told.length
    · rw [List.getElem?_append_left hn] at hsent
      exact h.outcomes n sent hsent
    · have hle : told.length ≤ n := by omega
      rw [List.getElem?_append_right hle] at hsent
      rw [h'.outcomes _ sent hsent, h.outcome_eq]
      congr 1
      omega

/-- A request that has nothing to do with the script. -/
theorem Told.quiet (h : Told e told e') (hrequests : e''.requests = e'.requests)
    (hreactions : e''.reactions = e'.reactions) : Told e told e'' where
  requests := hrequests.trans h.requests
  reactions := hreactions.trans h.reactions
  outcomes := h.outcomes

/-- A scripted engine follows the rule of transcripts. -/
theorem Told.answer (h : Told e told e') {need : Need} {post : need.Answer → List Sent → Prop}
    (hpost : Transcript.rule need told post) :
    ∃ told', Told e told' (answer need e').2 ∧ post (answer need e').1 told' := by
  cases need with
  | send request limit =>
    obtain ⟨hdropped, hsent⟩ := hpost
    cases hsocket : e'.hasSocket with
    | false =>
      have hsend : e'.send request limit = (.dropped, e') := by simp [send, hsocket]
      refine ⟨told, ?_, ?_⟩
      · show Told e told (e'.send request limit).2
        rw [hsend]
        exact h
      · show post (e'.send request limit).1 told
        rw [hsend]
        exact hdropped
    | true =>
      -- The next of the reactions is that of the place in the transcript.
      have hend : (e'.send request limit).1 = e'.outcome 0 limit := by
        simp [send, hsocket, outcome, List.head?_eq_getElem?]
      have hstep : Told e' [⟨request, limit, (e'.send request limit).1⟩]
          (e'.send request limit).2 := by
        refine ⟨by simp [send, hsocket], by simp [send, hsocket], ?_⟩
        intro n sent hmem
        obtain ⟨rfl, rfl⟩ : n = 0 ∧ sent = ⟨request, limit, (e'.send request limit).1⟩ := by
          cases n with
          | zero => exact ⟨rfl, (Option.some.inj hmem).symm⟩
          | succ n => cases hmem
        exact hend
      exact ⟨_, h.trans hstep, hsent _⟩
  | now => exact ⟨told, h, hpost _⟩
  | pause milliseconds => exact ⟨told, h.quiet rfl rfl, hpost⟩
  | log event => exact ⟨told, h.quiet rfl rfl, hpost⟩

/-- What a client ensures by transcripts holds of what a scripted engine was asked. -/
theorem told_run {α : Type} {action : Action α} {post : α → List Sent → Prop}
    (h : action.Ensures Transcript.rule post []) (e : Scripted) :
    ∃ told, Told e told (action.run (S := signature) answer e).2 ∧
      post (action.run (S := signature) answer e).1 told :=
  Script.Ensures.run (fun _ _ _ _ htold hrule => htold.answer hrule) (.refl e) h

end Scripted

/-! ## Actions that create nothing -/

/-- Whether nothing is asked for that carries a record, as a request for a new container does. -/
def Need.IsPlain : Need → Prop
  | .send request _ => ∀ value, request.body ≠ .json value
  | _ => True

/-- Only plain requests are sent, and those are in the transcript. -/
theorem ensures_of_only {α : Type} {action : Action α}
    (h : action.Only (S := signature) Need.IsPlain) (told : List Sent) :
    action.Ensures Transcript.rule (fun _ told' =>
      ∃ more, told' = told ++ more ∧ ∀ sent ∈ more, ∀ value, sent.request.body ≠ .json value)
      told := by
  induction action generalizing told with
  | done value => exact ⟨[], (List.append_nil _).symm, fun sent hmem => by cases hmem⟩
  | ask need next ih =>
    obtain ⟨hneed, hnext⟩ := h
    cases need with
    | send request limit =>
      refine ⟨ih _ (hnext _) told, fun outcome => ?_⟩
      refine (ih outcome (hnext outcome) _).mono Transcript.rule_monotone ?_
      rintro value told' ⟨more, rfl, hmore⟩
      refine ⟨⟨request, limit, outcome⟩ :: more, by simp, ?_⟩
      intro sent hmem
      rcases List.mem_cons.1 hmem with rfl | hmem
      · exact hneed
      · exact hmore sent hmem
    | now => exact fun time => ih time (hnext time) told
    | pause milliseconds => exact ih _ (hnext _) told
    | log event => exact ih _ (hnext _) told

section Only

variable {α β : Type}

theorem only_lift {action : Action α} (h : action.Only (S := signature) Need.IsPlain) :
    (ExceptT.lift action : Fallible α).run.Only (S := signature) Need.IsPlain :=
  h.map _

theorem only_run_bind {action : Fallible α} {f : α → Fallible β}
    (h : action.run.Only (S := signature) Need.IsPlain)
    (hf : ∀ value, (f value).run.Only (S := signature) Need.IsPlain) :
    (action >>= f).run.Only (S := signature) Need.IsPlain := by
  rw [ExceptT.run_bind]
  refine h.bind fun result => ?_
  cases result with
  | error fault => trivial
  | ok value => exact hf value

theorem only_ofExchange {action : Action (Except EngineFault α)}
    (h : action.Only (S := signature) Need.IsPlain) :
    (Fallible.ofExchange action).run.Only (S := signature) Need.IsPlain :=
  h.bind fun _ => trivial

theorem only_orOn {action : Action (Except EngineFault α)} (status : Nat)
    (answer : Except Container.Fault α) (h : action.Only (S := signature) Need.IsPlain) :
    (Fallible.orOn status answer action).run.Only (S := signature) Need.IsPlain := by
  refine h.bind fun result => ?_
  cases result with
  | error fault => trivial
  | ok value => trivial

theorem only_now : now.Only (S := signature) Need.IsPlain := ⟨trivial, fun _ => trivial⟩

theorem only_pause (milliseconds : Nat) :
    (pause milliseconds).Only (S := signature) Need.IsPlain := ⟨trivial, fun _ => trivial⟩

theorem only_note (level : Level) (message : String) (fields : List (String × EventValue)) :
    (note level message fields).run.Only (S := signature) Need.IsPlain :=
  ⟨trivial, fun _ => trivial⟩

section Request

variable {request : Request} (hplain : ∀ value, request.body ≠ .json value)

include hplain

theorem only_exchange : (exchange request).Only (S := signature) Need.IsPlain :=
  ⟨hplain, fun _ => trivial⟩

theorem only_ask_reader (reader : Json.Spelled → Option α) :
    (ask request reader).Only (S := signature) Need.IsPlain := by
  refine (only_exchange hplain).bind fun result => ?_
  cases result with
  | error fault => trivial
  | ok body =>
    simp only
    split <;> trivial

theorem only_tell : (tell request).Only (S := signature) Need.IsPlain :=
  (only_exchange hplain).bind fun _ => trivial

end Request

theorem Request.body_on (method : Method) (path : String) (options : List (String × String)) :
    ∀ value, (Request.on method path options).body ≠ .json value := by
  intro value h
  cases h

theorem only_list (condition : String) :
    (list condition).run.Only (S := signature) Need.IsPlain :=
  only_ofExchange (only_ask_reader (Request.body_on _ _ _) _)

theorem only_inspect (id : String) : (inspect id).run.Only (S := signature) Need.IsPlain :=
  only_orOn _ _ (only_ask_reader (Request.body_on _ _ _) _)

theorem only_remove (id : String) : (remove id).run.Only (S := signature) Need.IsPlain :=
  only_orOn _ _ (only_tell (Request.body_on _ _ _))

theorem only_poll (timing : Timing) (id condition : String)
    (decide : Except Container.Fault ContainerInfo → Except Container.Fault Bool)
    (deadline looks : Nat) :
    (poll timing id condition decide deadline looks).run.Only (S := signature) Need.IsPlain := by
  induction looks with
  | zero => trivial
  | succ looks ih =>
    refine only_run_bind (only_lift (only_inspect id)) fun seen => ?_
    have hdecide : (ExceptT.mk (pure (decide seen)) : Fallible Bool).run.Only (S := signature)
        Need.IsPlain := trivial
    refine only_run_bind hdecide fun decided => ?_
    cases decided with
    | true => trivial
    | false =>
      refine only_run_bind (only_lift only_now) fun time => ?_
      split
      · trivial
      · exact only_run_bind (only_lift (only_pause timing.interval)) fun _ => ih

theorem only_waitUntil (timing : Timing) (id condition : String)
    (decide : Except Container.Fault ContainerInfo → Except Container.Fault Bool) :
    (waitUntil timing id condition decide).run.Only (S := signature) Need.IsPlain :=
  only_run_bind (only_lift only_now) fun _ => only_poll _ _ _ _ _ _

theorem only_exitOf (id : String) (exits : Json.Stream Answer.Exit) :
    (exitOf id exits).run.Only (S := signature) Need.IsPlain := by
  unfold exitOf
  split
  · split <;> trivial
  · simp only
    split
    · exact only_note _ _ _
    · trivial

theorem only_awaitExit (timing : Timing) (id : String) :
    (awaitExit timing id).run.Only (S := signature) Need.IsPlain := by
  have hsend : (send (.awaitExit id) (min timing.limit requestLimit)).Only (S := signature)
      Need.IsPlain := ⟨Request.body_on _ _ _, fun _ => trivial⟩
  refine only_run_bind (only_lift hsend) fun outcome => ?_
  split
  · split <;> trivial
  · split
    · exact only_exitOf id _
    · split <;> trivial

theorem only_prune : prune.run.Only (S := signature) Need.IsPlain :=
  only_run_bind (only_ofExchange (only_ask_reader (Request.body_on _ _ _) _))
    fun _ => only_note _ _ _

theorem only_hasImage (image : String) :
    (hasImage image).run.Only (S := signature) Need.IsPlain :=
  only_orOn _ _ ((only_ask_reader (Request.body_on _ _ _) _).bind fun _ => trivial)

theorem only_reportProgress (user : String) (told : List Answer.Progress) :
    (reportProgress user told).run.Only (S := signature) Need.IsPlain := by
  induction told with
  | nil => trivial
  | cons progress told ih =>
    obtain ⟨status, error⟩ := progress
    cases error with
    | some message => trivial
    | none =>
      cases status with
      | none => exact ih
      | some status => exact only_run_bind (only_note _ _ _) fun _ => ih

theorem only_ensureImage (user image : String) :
    (ensureImage user image).run.Only (S := signature) Need.IsPlain := by
  refine only_run_bind (only_hasImage image) fun isThere => ?_
  cases isThere with
  | true => exact only_run_bind (only_note _ _ _) fun _ => trivial
  | false =>
    refine only_run_bind (only_note _ _ _) fun _ => ?_
    refine only_run_bind (only_ofExchange (only_exchange (Request.body_on _ _ _))) fun body => ?_
    refine only_run_bind (only_reportProgress user _) fun _ => ?_
    split
    · trivial
    · refine only_run_bind (only_hasImage image) fun isThere => ?_
      cases isThere <;> trivial

theorem only_removeEach (containers : List ContainerInfo) :
    (removeEach containers).run.Only (S := signature) Need.IsPlain := by
  induction containers with
  | nil => trivial
  | cons container rest ih =>
    refine only_run_bind (only_lift (only_remove container.id)) fun removed => ?_
    cases removed with
    | ok value => exact ih
    | error fault => exact only_run_bind (only_note _ _ _) fun _ => ih

theorem only_nuke : nuke.run.Only (S := signature) Need.IsPlain :=
  only_run_bind (only_list managed) fun containers =>
    only_run_bind (only_note _ _ _) fun _ => only_removeEach containers

/-- Nothing but a start sends more than plain requests. -/
theorem only_perform (timing : Timing) {call : Container.Call} (h : call.operation ≠ .start) :
    (perform timing call).run.Only (S := signature) Need.IsPlain := by
  cases call with
  | start descriptor => exact absurd rfl h
  | list => exact only_list anyContainer
  | restart id => exact only_orOn _ _ (only_tell (Request.body_on _ _ _))
  | stop id => exact only_ofExchange (only_tell (Request.body_on _ _ _))
  | terminate id => exact only_orOn _ _ (only_tell (Request.body_on _ _ _))
  | awaitExit id => exact only_awaitExit timing id
  | awaitStart id => exact only_waitUntil timing id _ _
  | prune => exact only_prune
  | awaitPrune id => exact only_waitUntil timing id _ _
  | ensureImage user image => exact only_ensureImage user image
  | inspect id => exact only_inspect id
  | nuke => exact only_nuke

end Only

/-! ## Looking for a container that is gone -/

/-- Whether a look at a container was answered with the status for something that is not there. -/
def IsGone (id : String) (told : List Sent) : Prop :=
  ∃ body, ⟨.inspect id, requestLimit, .answered notThere body⟩ ∈ told

/-- What was seen once was seen. -/
theorem IsGone.append {id : String} {told : List Sent} (h : IsGone id told) (more : List Sent) :
    IsGone id (told ++ more) := by
  obtain ⟨body, hmem⟩ := h
  exact ⟨body, List.mem_append_left _ hmem⟩

/-- A fault with a status is a refusal with that status. -/
theorem Outcome.answered_of_status {outcome : Outcome} {fault : EngineFault} {status : Nat}
    (h : outcome.body = .error fault) (hstatus : fault.status? = some status) :
    ∃ body, outcome = .answered status body := by
  cases outcome with
  | dropped =>
    obtain rfl := Except.error.inj h
    cases hstatus
  | silent =>
    obtain rfl := Except.error.inj h
    cases hstatus
  | answered status' body =>
    simp only [Outcome.body] at h
    split at h
    · cases h
    · refine ⟨body, ?_⟩
      obtain rfl := Except.error.inj h
      simp only [refusalFault] at hstatus
      split at hstatus
      · cases hstatus
        rfl
      · split at hstatus <;> cases hstatus
        all_goals rfl

/-- A look tells that a container is gone only when it was refused with the status for that. -/
theorem ensures_inspect (id : String) (told : List Sent) :
    (inspect id).run.Ensures Transcript.rule (fun seen told' =>
      isGone seen = .ok true → IsGone id told') told := by
  have hexchange : (exchange (.inspect id)).Ensures Transcript.rule (fun result told' =>
      ∀ fault, result = .error fault → fault.status? = some notThere → IsGone id told') told := by
    refine ⟨?_, fun outcome => ?_⟩
    · intro fault hfault hstatus
      obtain rfl := Except.error.inj hfault
      cases hstatus
    · intro fault hfault hstatus
      obtain ⟨body, rfl⟩ := Outcome.answered_of_status hfault hstatus
      exact ⟨body, List.mem_append_right _ (List.mem_singleton.2 rfl)⟩
  unfold inspect Fallible.orOn ask
  simp only [ExceptT.run_mk, ensures_bind]
  refine hexchange.mono Transcript.rule_monotone ?_
  rintro (fault | body) told' hgone
  · simp only [pure_eq, ensures_done]
    by_cases hstatus : fault.status? = some notThere
    · exact fun _ => hgone fault rfl hstatus
    · rw [if_neg hstatus]
      intro h
      cases h
  · -- An answer that was read or could not be read is no refusal.
    simp only
    split <;>
    · intro h
      cases h

theorem ensures_lift {α : Type} {rule : Rule signature (List Sent)} {action : Action α}
    {post : Except Container.Fault α → List Sent → Prop} {told : List Sent} :
    (ExceptT.lift action : Fallible α).run.Ensures rule post told ↔
      action.Ensures rule (fun value => post (.ok value)) told := ensures_map

/-- A wait for a container to be gone ends well only when a look at it was refused. -/
theorem ensures_poll_isGone (timing : Timing) (id condition : String) (deadline looks : Nat)
    (told : List Sent) :
    (poll timing id condition isGone deadline looks).run.Ensures Transcript.rule
      (fun result told' => result = .ok () → IsGone id told') told := by
  induction looks generalizing told with
  | zero =>
    intro h
    cases h
  | succ looks ih =>
    simp only [poll, ensures_run_bind, ensures_lift]
    refine (ensures_inspect id told).mono Transcript.rule_monotone ?_
    intro seen told' hseen
    simp only [ExceptT.run_mk, pure_eq, ensures_done]
    split
    · next decided hdecided =>
      cases decided with
      | true => exact fun _ => hseen hdecided
      | false =>
        -- The container is still there: the time is up, or the next look decides.
        simp only [Bool.false_eq_true, if_false, ensures_run_bind, ensures_lift]
        intro time
        rw [ensures_done]
        by_cases hdeadline : deadline ≤ time
        · rw [if_pos hdeadline]
          intro h
          cases h
        · rw [if_neg hdeadline]
          simp only [ensures_run_bind, ensures_lift]
          exact ih told'
    · intro h
      cases h

theorem ensures_awaitPrune (timing : Timing) (id : String) (told : List Sent) :
    (perform timing (.awaitPrune id)).run.Ensures Transcript.rule
      (fun result told' => result = .ok () → IsGone id told') told := by
  show (waitUntil timing id "be pruned" isGone).run.Ensures _ _ _
  simp only [waitUntil, ensures_run_bind, ensures_lift]
  exact fun time => ensures_poll_isGone timing id _ _ _ told

end Caretaker.Engine
