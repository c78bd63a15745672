import Caretaker.Proofs.Transcript

/-!
# What a client of an engine tries

A client tries one request after the other, and each of them ends, even where there is nothing to
connect to.  Attempts are the requests that were tried, each with its end.  Requests may end in any
way; on a scripted engine each ends as the script has it.

Main definitions:

- `Outcome.read`: what the end of a request says to a reader of its answer.
- `Scripted.ends`, `Scripted.takes`: how the coming requests end on a scripted engine, and how long
  that takes.
- `Scripted.Tried`: what was tried between two states of a scripted engine.

Main statements:

- `Outcome.isMissing_iff`: which ends say that something is not there.
- `Scripted.tried_perform`: what a call ensures by attempts holds of a scripted engine.
-/

namespace Caretaker.Engine

open Container (Call Fault)
open Script
open Fallible (ofExchange orOn)

/-! ## The end of a request -/

/-- What the end of a request says to `reader`. -/
def Outcome.read {α : Type} (reader : Json.Spelled → Option α) (outcome : Outcome) :
    Except EngineFault α :=
  match outcome.body with
  | .error fault => .error fault
  | .ok body =>
    match ((Utf8.decode? body).bind Json.read?).bind reader with
    | some value => .ok value
    | none => .error .undecodable

theorem Outcome.answered_of_body {outcome : Outcome} {body : List UInt8}
    (h : outcome.body = .ok body) : ∃ status, outcome = .answered status body := by
  unfold Outcome.body at h
  split at h
  · next status body' =>
    split at h
    · obtain rfl := Except.ok.inj h
      exact ⟨status, rfl⟩
    · cases h
  · cases h
  · cases h

/-- Whether the end of a request says that what it asked for is not there. -/
def Outcome.IsMissing (outcome : Outcome) : Prop :=
  ∃ fault, outcome.body = .error fault ∧ fault.status? = some notThere

/-- Something is not there when the request was answered with the status for that, and with nothing
that cannot be read. -/
theorem Outcome.isMissing_iff {outcome : Outcome} :
    outcome.IsMissing ↔
      ∃ body, outcome = .answered notThere body ∧ refusalFault notThere body ≠ .undecodable := by
  constructor
  · rintro ⟨fault, hbody, hstatus⟩
    obtain ⟨body, rfl⟩ := answered_of_status hbody hstatus
    refine ⟨body, rfl, fun hfault => ?_⟩
    obtain rfl : refusalFault notThere body = fault := Except.error.inj hbody
    rw [hfault] at hstatus
    cases hstatus
  · rintro ⟨body, rfl, hread⟩
    refine ⟨refusalFault notThere body, rfl, ?_⟩
    unfold refusalFault at hread ⊢
    dsimp only at hread ⊢
    split
    · rfl
    · rename_i hnonempty
      rw [if_neg hnonempty] at hread
      split
      · rfl
      · rfl
      · next hrefusal =>
        rw [hrefusal] at hread
        exact absurd rfl hread

section Read

variable {α : Type} {reader : Json.Spelled → Option α} {outcome : Outcome}

/-- A reader is told of a status as it came. -/
theorem Outcome.isMissing_of_read {fault : EngineFault} (h : outcome.read reader = .error fault)
    (hstatus : fault.status? = some notThere) : outcome.IsMissing := by
  unfold read at h
  split at h
  · next fault' hbody =>
    obtain rfl := Except.error.inj h
    exact ⟨fault', hbody, hstatus⟩
  · split at h
    · cases h
    · obtain rfl := Except.error.inj h
      cases hstatus

theorem Outcome.IsMissing.read (h : outcome.IsMissing) (reader : Json.Spelled → Option α) :
    ∃ fault, outcome.read reader = .error fault ∧ fault.status? = some notThere := by
  obtain ⟨fault, hbody, hstatus⟩ := h
  exact ⟨fault, by rw [Outcome.read, hbody], hstatus⟩

end Read

/-! ## Requests as parts of a call -/

/-- What a result means to a call for which the status of something that is not there stands for
`answer`. -/
def orMissing {α : Type} (answer : Except Fault α) : Except EngineFault α → Except Fault α
  | .ok value => .ok value
  | .error fault => if fault.status? = some notThere then answer else .error (.engine fault)

section Missing

variable {α : Type}

theorem Outcome.IsMissing.orMissing {outcome : Outcome} (h : outcome.IsMissing)
    (answer : Except Fault α) (reader : Json.Spelled → Option α) :
    orMissing answer (outcome.read reader) = answer := by
  obtain ⟨fault, hread, hstatus⟩ := h.read reader
  rw [hread]
  exact if_pos hstatus

end Missing

section Requests

variable {α : Type} (request : Request) (reader : Json.Spelled → Option α)

theorem tell_eq_map : tell request = (·.body.map fun _ => ()) <$> send request requestLimit := rfl

theorem ask_eq_map : ask request reader = (·.read reader) <$> send request requestLimit := by
  rw [ask, exchange, LawfulMonad.bind_assoc, map_eq_pure_bind]
  refine bind_congr fun outcome => ?_
  rw [Outcome.read, LawfulMonad.pure_bind]
  cases outcome.body with
  | error fault => rfl
  | ok body =>
    dsimp only
    cases ((Utf8.decode? body).bind Json.read?).bind reader <;> rfl

theorem run_ofExchange (action : Action (Except EngineFault α)) :
    (ofExchange action).run = (·.mapError .engine) <$> action := rfl

theorem run_orOn (answer : Except Fault α) (action : Action (Except EngineFault α)) :
    (orOn notThere answer action).run = orMissing answer <$> action := by
  refine bind_congr fun result => ?_
  cases result <;> rfl

theorem run_reading :
    (ofExchange (ask request reader)).run =
      (fun outcome => (outcome.read reader).mapError .engine) <$> send request requestLimit := by
  rw [run_ofExchange, ask_eq_map, Functor.map_map]

theorem run_telling :
    (ofExchange (tell request)).run =
      (fun outcome => (outcome.body.mapError .engine).map fun _ => ()) <$>
        send request requestLimit := by
  rw [run_ofExchange, tell_eq_map, Functor.map_map]
  refine congrArg (· <$> _) (funext fun outcome => ?_)
  show (outcome.body.map fun _ => ()).mapError _ = (outcome.body.mapError _).map _
  cases outcome.body <;> rfl

end Requests

/-! ## Attempts -/

/-- How attempts go on: a request is tried and ends in any way. -/
def Attempts.rule : Rule signature (List Sent)
  | .send request limit, tried, post =>
    ∀ outcome : Outcome, post outcome (tried ++ [⟨request, limit, outcome⟩])
  | .now, tried, post => ∀ time : Nat, post time tried
  | .pause _, tried, post => post () tried
  | .log _, tried, post => post () tried

theorem Attempts.rule_monotone : Attempts.rule.Monotone := by
  intro need tried post post' himp h
  cases need with
  | send request limit => exact fun outcome => himp _ _ (h outcome)
  | now => exact fun time => himp _ _ (h time)
  | pause milliseconds => exact himp _ _ h
  | log event => exact himp _ _ h

section Rule

variable {α : Type} {tried : List Sent}

theorem tries_send {request : Request} {limit : Nat} {f : Outcome → α}
    {post : α → List Sent → Prop} :
    (f <$> send request limit).Ensures Attempts.rule post tried ↔
      ∀ outcome, post (f outcome) (tried ++ [⟨request, limit, outcome⟩]) := Iff.rfl

theorem tries_note {level : Level} {message : String} {fields : List (String × EventValue)}
    {post : Except Fault Unit → List Sent → Prop} :
    (note level message fields).run.Ensures Attempts.rule post tried ↔ post (.ok ()) tried :=
  Iff.rfl

end Rule

/-! ## Scripted engines -/

namespace Scripted

variable {e e' e'' : Scripted} {tried tried' : List Sent}

/-- How an engine meets the `n`th of the coming requests.  Without a socket it drops them all. -/
def reaction (e : Scripted) (n : Nat) : Reaction :=
  if e.hasSocket then e.reactions[n]?.getD .unscripted else { outcome := .dropped }

/-- How the `n`th of the coming requests ends for a client that waits `limit` milliseconds. -/
def ends (e : Scripted) (n limit : Nat) : Outcome := ((e.reaction n).within limit).1

/-- How long that takes, in milliseconds. -/
def takes (e : Scripted) (n limit : Nat) : Nat := ((e.reaction n).within limit).2

/-- An answer that came within a limit was not later than that. -/
theorem delay_le_of_answered {n limit status : Nat} {body : List UInt8}
    (h : e.ends n limit = .answered status body) : (e.reaction n).delay ≤ limit := by
  unfold ends Reaction.within at h
  split at h
  · cases h
  · next hin => omega

section Send

variable (e) (request : Request) (limit : Nat)

theorem send_outcome : (e.send request limit).1 = e.ends 0 limit := by
  cases hsocket : e.hasSocket <;>
    simp [send, ends, reaction, hsocket, Reaction.within, Reaction.received,
      List.head?_eq_getElem?]

theorem hasSocket_send : (e.send request limit).2.hasSocket = e.hasSocket := by
  unfold send
  split <;> rfl

theorem timing_send : (e.send request limit).2.timing = e.timing := by
  unfold send
  split <;> rfl

theorem requests_send :
    (e.send request limit).2.requests = (if e.hasSocket then [request] else []) ++ e.requests := by
  cases hsocket : e.hasSocket <;> simp [send, hsocket]

/-- The script goes on behind a request. -/
theorem reaction_send (n : Nat) : (e.send request limit).2.reaction n = e.reaction (n + 1) := by
  cases hsocket : e.hasSocket <;> simp [send, reaction, hsocket]

theorem clock_send : (e.send request limit).2.clock = e.clock + e.takes 0 limit := by
  cases hsocket : e.hasSocket <;>
    simp [send, takes, reaction, hsocket, Reaction.within, List.head?_eq_getElem?]

end Send

/-- What a client tried between two states of an engine.  Requests reach it if there is a socket to
connect to. -/
structure Tried (e : Scripted) (tried : List Sent) (e' : Scripted) : Prop where
  hasSocket : e'.hasSocket = e.hasSocket
  requests : e'.requests =
    (if e.hasSocket then (tried.map (·.request)).reverse else []) ++ e.requests
  reaction : ∀ n, e'.reaction n = e.reaction (tried.length + n)
  outcomes : ∀ n sent, tried[n]? = some sent → sent.outcome = e.ends n sent.limit

theorem Tried.refl (e : Scripted) : Tried e [] e where
  hasSocket := rfl
  requests := by simp
  reaction n := by simp
  outcomes n sent h := by cases h

theorem Tried.trans (h : Tried e tried e') (h' : Tried e' tried' e'') :
    Tried e (tried ++ tried') e'' where
  hasSocket := h'.hasSocket.trans h.hasSocket
  requests := by
    rw [h'.requests, h.requests, h.hasSocket]
    split <;> simp
  reaction n := by
    rw [h'.reaction, h.reaction, List.length_append, Nat.add_assoc]
  outcomes n sent hsent := by
    by_cases hn : n < tried.length
    · rw [List.getElem?_append_left hn] at hsent
      exact h.outcomes n sent hsent
    · have hle : tried.length ≤ n := by omega
      have hplace : tried.length + (n - tried.length) = n := by omega
      rw [List.getElem?_append_right hle] at hsent
      rw [h'.outcomes _ sent hsent, ends, ends, h.reaction, hplace]

/-- What goes on beside requests. -/
theorem Tried.quiet (h : Tried e tried e') (hsocket : e''.hasSocket = e'.hasSocket)
    (hrequests : e''.requests = e'.requests) (hreactions : e''.reactions = e'.reactions) :
    Tried e tried e'' where
  hasSocket := hsocket.trans h.hasSocket
  requests := hrequests.trans h.requests
  reaction n := by
    rw [← h.reaction n, Scripted.reaction, Scripted.reaction, hsocket, hreactions]
  outcomes := h.outcomes

theorem tried_send (e : Scripted) (request : Request) (limit : Nat) :
    Tried e [⟨request, limit, (e.send request limit).1⟩] (e.send request limit).2 where
  hasSocket := hasSocket_send e request limit
  requests := requests_send e request limit
  reaction n := (reaction_send e request limit n).trans (congrArg e.reaction (Nat.add_comm n 1))
  outcomes n sent hsent := by
    cases n with
    | zero =>
      obtain rfl := Option.some.inj hsent
      exact send_outcome e request limit
    | succ n => cases hsent

/-- A scripted engine follows the rule of attempts. -/
theorem Tried.answer (h : Tried e tried e') {need : Need} {post : need.Answer → List Sent → Prop}
    (hpost : Attempts.rule need tried post) :
    ∃ tried', Tried e tried' (answer need e').2 ∧ post (answer need e').1 tried' := by
  cases need with
  | send request limit => exact ⟨_, h.trans (tried_send e' request limit), hpost _⟩
  | now => exact ⟨tried, h, hpost _⟩
  | pause milliseconds => exact ⟨tried, h.quiet rfl rfl rfl, hpost⟩
  | log event => exact ⟨tried, h.quiet rfl rfl rfl, hpost⟩

/-- What a call ensures by attempts holds of what a scripted engine was asked. -/
theorem tried_perform {call : Call} {e : Scripted} {post : call.Answer → List Sent → Prop}
    (h : (Engine.perform e.timing call).run.Ensures Attempts.rule post []) :
    ∃ tried, e.Tried tried (perform call e).state ∧ post (perform call e).answer tried := by
  have hstart : Tried e [] { e with events := [] } := (Tried.refl e).quiet rfl rfl rfl
  obtain ⟨tried, htried, hpost⟩ :=
    Script.Ensures.run (fun _ _ _ _ htried hrule => htried.answer hrule) hstart h
  exact ⟨tried, htried.quiet rfl rfl rfl, hpost⟩

end Scripted

/-- The reaction of an engine that answers at once. -/
def Reaction.answering (status : Nat) (text : String) : Reaction where
  outcome := .answered status (Utf8.encode text)

end Caretaker.Engine
