import Caretaker.Proofs.Alone
import Caretaker.Proofs.Transcript

/-!
# A container and its successor

On an engine, a replace asks for the new container of a role only when the old one is gone: a look
at the old one was refused with the status for something that is not there.  No other status, no
broken connection, no end of a wait and no lapse of time is taken for that.

Main statements:

- `Ends.gone_before_start`: a replace comes to its start only behind a confirmed removal.
- `create_after_gone`: on an engine with any script, no request for the new container is sent before
  the old one was looked for and not found.
-/

namespace Caretaker.Crew

open Container (Backend)
open Engine (IsGone Scripted Sent notThere requestLimit)

/-! ## The calls of a replace -/

section Calls

variable {settings : Settings} {role : Role} {refs : ImageRefs} {slot slot' : Slot} {old : Handle}
  {calls before after : List Exchange} {result : Replaced} {descriptor : Descriptor}
  {answer : Except Container.Fault Handle}

theorem Removes.gone_before_start {removal filling : List Exchange}
    (h : Removes (some old) removal)
    (hcalls : removal ++ filling = before ++ ⟨.start descriptor, answer⟩ :: after) :
    ⟨.awaitPrune old.id, .ok ()⟩ ∈ before := by
  cases h with
  | removed old signalled =>
    -- None of the first four calls is a start, so all of them stand before it.
    rcases before with _ | ⟨_, _ | ⟨_, _ | ⟨_, _ | ⟨fourth, before⟩⟩⟩⟩
    · cases hcalls
    · cases hcalls
    · cases hcalls
    · cases hcalls
    · simp only [List.cons_append, List.cons.injEq] at hcalls
      obtain ⟨-, -, -, rfl, -⟩ := hcalls
      simp

/-- A replace comes to its start only behind the confirmed removal of the old container. -/
theorem Ends.gone_before_start (h : Ends settings role refs slot calls result slot')
    (hold : slot.container = some old)
    (hcalls : calls = before ++ ⟨.start descriptor, answer⟩ :: after) :
    ⟨.awaitPrune old.id, .ok ()⟩ ∈ before := by
  have hmem : ⟨.start descriptor, answer⟩ ∈ calls := by
    rw [hcalls]
    exact List.mem_append_right _ List.mem_cons_self
  cases h with
  | exitUnconfirmed _ signalled cause _ => simp at hmem
  | pruneFailed _ signalled cause _ => simp at hmem
  | removalUnconfirmed _ signalled cause _ => simp at hmem
  | imageMissing removal cause hremoval
  | startFailed removal cause hremoval
  | startUnconfirmed removal handle cause hremoval
  | replaced removal handle hremoval =>
    rw [hold] at hremoval
    exact hremoval.gone_before_start hcalls

end Calls

/-! ## What calls send to an engine -/

/-- Whether a request for a new container is sent only after a look that found another one gone. -/
def CreatesLate (id : String) (told : List Sent) : Prop :=
  ∀ (i : Nat) (sent : Sent) (descriptor : Descriptor), told[i]? = some sent →
    sent.request = .create descriptor → IsGone id (told.take i)

theorem CreatesLate.append {id : String} {told more : List Sent} (h : CreatesLate id told)
    (hmore : (∀ sent ∈ more, ∀ value, sent.request.body ≠ .json value) ∨ IsGone id told) :
    CreatesLate id (told ++ more) := by
  intro i sent descriptor hsent hcreate
  by_cases hi : i < told.length
  · rw [List.getElem?_append_left hi] at hsent
    rw [List.take_append_of_le_length (Nat.le_of_lt hi)]
    exact h i sent descriptor hsent hcreate
  · have hle : told.length ≤ i := by omega
    rw [List.getElem?_append_right hle] at hsent
    rcases hmore with hplain | hgone
    · -- A request for a container carries a record, and none of these does.
      have hbody : sent.request.body =
          .json (Engine.CreateRequest.ofDescriptor descriptor).toJson := by
        rw [hcreate]
        rfl
      exact absurd hbody (hplain sent (List.mem_of_getElem? hsent) _)
    · rw [List.take_append, List.take_of_length_le hle]
      exact hgone.append _

section Told

variable {e e' : Scripted}

/-- What one call sends, and what its answer says of that. -/
theorem told_perform (call : Container.Call) (e : Scripted) :
    ∃ told, e.Told told (Backend.perform call e).state ∧
      (call.operation ≠ .start → ∀ sent ∈ told, ∀ value, sent.request.body ≠ .json value) ∧
      ∀ id, (⟨call, (Backend.perform call e).answer⟩ : Exchange) = ⟨.awaitPrune id, .ok ()⟩ →
        IsGone id told := by
  have hplain : (Engine.perform e.timing call).run.Ensures Engine.Transcript.rule
      (fun _ told => call.operation ≠ .start →
        ∀ sent ∈ told, ∀ value, sent.request.body ≠ .json value) [] := by
    by_cases hstart : call.operation = .start
    · refine (Engine.ensures_transcript _ []).mono Engine.Transcript.rule_monotone ?_
      intro answer told _ hne
      exact absurd hstart hne
    · have honly := Engine.only_perform e.timing hstart
      refine (Engine.ensures_of_only honly []).mono Engine.Transcript.rule_monotone ?_
      rintro answer told ⟨more, rfl, hmore⟩ -
      exact hmore
  have hlook : (Engine.perform e.timing call).run.Ensures Engine.Transcript.rule
      (fun answer told =>
        ∀ id, (⟨call, answer⟩ : Exchange) = ⟨.awaitPrune id, .ok ()⟩ → IsGone id told) [] := by
    cases call with
    | awaitPrune id =>
      refine (Engine.ensures_awaitPrune e.timing id []).mono Engine.Transcript.rule_monotone ?_
      intro answer told hgone id' heq
      cases heq
      exact hgone rfl
    | _ =>
      refine (Engine.ensures_transcript _ []).mono Engine.Transcript.rule_monotone ?_
      intro answer told _ id heq
      cases heq
  have hboth := hplain.and Engine.Transcript.rule_monotone Engine.Transcript.rule_conjunctive hlook
  obtain ⟨told, htold, hplain, hgone⟩ := Engine.Scripted.told_run hboth { e with events := [] }
  exact ⟨told, ⟨htold.requests, htold.reactions, htold.outcomes⟩, hplain, hgone⟩

/-- Where starts stand behind the confirmed removal of a container, requests for new containers are
sent after a look that found it gone. -/
theorem told_calls {calls : List Exchange} {id : String}
    (h : Performed (fun _ _ => False) e calls e')
    (hstart : ∀ before descriptor answer after,
      calls = before ++ ⟨.start descriptor, answer⟩ :: after →
        ⟨.awaitPrune id, .ok ()⟩ ∈ before) :
    ∃ told, e.Told told e' ∧ CreatesLate id told ∧
      (⟨.awaitPrune id, .ok ()⟩ ∈ calls → IsGone id told) := by
  induction h with
  | start =>
    refine ⟨[], .refl e, ?_, ?_⟩
    · intro i sent descriptor hsent
      cases hsent
    · intro hmem
      cases hmem
  | moved _ hmove => exact hmove.elim
  | @called calls e₁ call hcalls ih =>
    have hbefore : ∀ before descriptor answer after,
        calls = before ++ ⟨.start descriptor, answer⟩ :: after →
          ⟨.awaitPrune id, .ok ()⟩ ∈ before := by
      intro before descriptor answer after hsplit
      have hsplit' := congrArg (· ++ [⟨call, (Backend.perform call e₁).answer⟩]) hsplit
      exact hstart before descriptor answer _ (hsplit'.trans (List.append_assoc _ _ _))
    obtain ⟨told, htold, hlate, hgone⟩ := ih hbefore
    obtain ⟨more, hmore, hplain, hlook⟩ := told_perform call e₁
    refine ⟨told ++ more, htold.trans hmore, hlate.append ?_, ?_⟩
    · by_cases hop : call.operation = .start
      · -- The call is a start, so the removal was confirmed before it.
        cases call with
        | start descriptor => exact .inr (hgone (hstart calls descriptor _ [] rfl))
        | _ => cases hop
      · exact .inl (hplain hop)
    · intro hmem
      rcases List.mem_append.1 hmem with hmem | hmem
      · exact (hgone hmem).append more
      · obtain ⟨body, hlast⟩ := hlook id (List.mem_singleton.1 hmem).symm
        exact ⟨body, List.mem_append_right _ hlast⟩

end Told

/-! ## Requests for new containers -/

/-- Whether each request for a new container is sent after a look for the container `id` that an
engine, begun as `e`, refused since it is not there. -/
def CreatesOnceGone (e : Scripted) (id : String) (sent : List Engine.Request) : Prop :=
  ∀ (i : Nat) (descriptor : Descriptor), sent[i]? = some (.create descriptor) →
    ∃ j < i, sent[j]? = some (.inspect id) ∧
      ∃ body, e.outcome j requestLimit = .answered notThere body

/-- Whether an engine, begun as `e`, tells the truth of the container `id`, that is there at some of
the requests and does not come back. -/
structure Truthful (e : Scripted) (id : String) (sent : List Engine.Request)
    (isThere : Nat → Prop) : Prop where
  refused : ∀ j body, sent[j]? = some (.inspect id) →
    e.outcome j requestLimit = .answered notThere body → ¬ isThere j
  stays : ∀ j i, j ≤ i → isThere i → isThere j

theorem CreatesOnceGone.not_isThere {e : Scripted} {id : String} {sent : List Engine.Request}
    {isThere : Nat → Prop} (h : CreatesOnceGone e id sent) (htruth : Truthful e id sent isThere)
    {i : Nat} {descriptor : Descriptor} (hi : sent[i]? = some (.create descriptor)) :
    ¬ isThere i := by
  obtain ⟨j, hlt, hlook, body, houtcome⟩ := h i descriptor hi
  intro hthere
  exact htruth.refused j body hlook houtcome (htruth.stays j i (Nat.le_of_lt hlt) hthere)

theorem CreatesLate.createsOnceGone {e e' : Scripted} {id : String} {told : List Sent}
    (h : CreatesLate id told) (htold : e.Told told e') :
    CreatesOnceGone e id (told.map (·.request)) := by
  intro i descriptor hi
  rw [List.getElem?_map] at hi
  obtain ⟨sent, hsent, hrequest⟩ := Option.map_eq_some_iff.1 hi
  obtain ⟨body, hmem⟩ := h i sent descriptor hsent hrequest
  obtain ⟨j, hj⟩ := List.mem_iff_getElem?.1 hmem
  rw [List.getElem?_take] at hj
  by_cases hlt : j < i
  · rw [if_pos hlt] at hj
    refine ⟨j, hlt, ?_, body, (htold.outcomes j _ hj).symm⟩
    rw [List.getElem?_map, hj]
    rfl
  · rw [if_neg hlt] at hj
    cases hj

/-- On an engine with any script, a replace of a role that has a container sends no request for a
new one before it looked for the old one and was told that it is not there.  So an engine that tells
the truth has the old container no more when a new one is asked for. -/
theorem create_after_gone (settings : Settings) (role : Role) (refs : ImageRefs)
    (w : World Scripted) {old : Handle} (hold : (w.roster.slot role).container = some old) :
    let w' := ((replaceLocked settings role refs).run w).2
    ∃ sent : List Engine.Request, w'.backend.requests = sent.reverse ++ w.backend.requests ∧
      CreatesOnceGone w.backend old.id sent ∧
      ∀ isThere, Truthful w.backend old.id sent isThere →
        ∀ (i : Nat) (descriptor : Descriptor), sent[i]? = some (.create descriptor) →
          ¬ isThere i := by
  intro w'
  have hrun : ∃ s : Account, s.Fits (fun _ _ => False) w.backend w' ∧
      ∃ slot calls, Ends settings role refs (w.roster.slot role) calls
        ((replaceLocked settings role refs).run w).1 slot ∧
        s = w.account.after role slot slot calls :=
    Transaction.ensures_run ensures_replaceLocked
  obtain ⟨s, hfits, slot, calls, hends, rfl⟩ := hrun
  obtain ⟨told, htold, hlate, -⟩ := told_calls hfits.calls
    fun before descriptor answer after hcalls => hends.gone_before_start hold hcalls
  have hgone := hlate.createsOnceGone htold
  exact ⟨told.map (·.request), htold.requests, hgone,
    fun isThere htruth i descriptor hi => hgone.not_isThere htruth hi⟩

namespace Sample

/-- An answer of an engine. -/
def reply (status : Nat) (body : String) : Engine.Reaction where
  outcome := .answered status (Utf8.encode body)

/-- The supervisor has a container on an engine that does what it is asked for.  The engine does not
find the old container at the second look. -/
def onEngine : World Scripted where
  backend :=
    { reactions :=
        [reply 204 "", reply 200 "", reply 200 "\x7b\x7d", reply 200 "\x7b\x7d", reply 404 "",
          reply 200 "\x7b\x7d", reply 200 "[]"] }
  roster :=
    Roster.put {} .supervisor
      { container := some { id := "old", name := "supervisor", descriptor := {} } }

end Sample

/-- The old container is looked for twice, and then the new one is asked for. -/
theorem create_after_gone_onEngine :
    let w := Sample.onEngine
    ∃ old, (w.roster.slot .supervisor).container = some old ∧
      let w' := ((replaceLocked developmentSettings .supervisor (Sample.refs "sup:v2")).run w).2
      w'.backend.requests.map (·.path) =
          ["/containers/create", "/containers/json", "/images/sup:v2/json", "/containers/old/json",
            "/containers/old/json", "/containers/prune", "/containers/old/wait",
            "/containers/old/kill"] ∧
        ∃ sent : List Engine.Request, w'.backend.requests = sent.reverse ++ w.backend.requests ∧
          CreatesOnceGone w.backend old.id sent ∧
          ∀ isThere, Truthful w.backend old.id sent isThere →
            ∀ (i : Nat) (descriptor : Descriptor), sent[i]? = some (.create descriptor) →
              ¬ isThere i :=
  ⟨_, rfl, by decide +kernel,
    create_after_gone developmentSettings .supervisor (Sample.refs "sup:v2") Sample.onEngine rfl⟩

end Caretaker.Crew
