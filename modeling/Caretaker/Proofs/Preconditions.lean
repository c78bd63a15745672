import Mathlib.Data.List.Forall2
import Caretaker.Proofs.Dialogue
import Caretaker.Service.Startup

/-!
# Preconditions of a start

The check at the start puts one precondition after the other to the test: the containers can be
listed, the scan endpoint answers, with tracing the trace endpoint answers, and the batch API takes
a test batch.  Whatever answers there are, the first precondition that fails is the last one that is
tested, and the error says which one it was and why.

Main definitions:

- `Rewritten`: the URL under which an endpoint is tested.
- `preconditions`: what is tested, in order.
- `Precondition.verdict`: what the answer to a test means.
- `Tests`: how tests follow the preconditions, and what comes of it.

Main statements:

- `startupCheck_tests`: the check tests the preconditions in order up to the first that fails, and
  succeeds exactly if all were tested and hold.
-/

namespace Caretaker

/-! ## Scripts that are answered by a state -/

namespace Script

variable {S : Signature} {α σ : Type}

/-- The dialogue of a script whose requests are answered one after the other by a state. -/
def dialogue (answer : (r : S.Request) → σ → S.Answer r × σ) : Script S α → σ → List (Exchange S)
  | .done _, _ => []
  | .ask r next, s =>
    let (a, s) := answer r s
    ⟨r, a⟩ :: (next a).dialogue answer s

/-- The dialogue is one of those that the script can have, up to its value. -/
theorem leads_dialogue (answer : (r : S.Request) → σ → S.Answer r × σ) (script : Script S α)
    (s : σ) : Leads script (script.dialogue answer s) (.done (script.run answer s).1) := by
  induction script generalizing s with
  | done value => exact .here
  | ask r next ih => exact .asks (ih _ _)

end Script

namespace Service

open Script Service.Action

/-! ## Tested URLs -/

/-- Whether a URL is another one with the name by which containers reach their host replaced, at
each of its occurrences, by the name that the host has for itself. -/
def Rewritten (url tested : String) : Prop :=
  Text.Replaced "host.docker.internal".toList "localhost".toList url.toList tested.toList

theorem rewritten_hostUrl (url : String) : Rewritten url (hostUrl url) := by
  have htext : (hostUrl url).toList =
      Text.replaceAll hostAlias.toList "localhost".toList url.toList := String.toList_ofList
  have hne : hostAlias.toList ≠ [] := by decide
  unfold Rewritten
  rw [htext]
  exact Text.replaced_replaceAll hne url.toList

/-! ## Preconditions -/

/-- Something that the service depends on. -/
inductive Precondition where
  | containers
  | scan
  | trace
  | batch
deriving DecidableEq, Repr

/-- What is tested, in order; the trace endpoint only if tracing is enabled. -/
def preconditions (settings : Settings) : List Precondition :=
  if settings.traceEnabled then [.containers, .scan, .trace, .batch]
  else [.containers, .scan, .batch]

namespace Precondition

/-- The request that puts a precondition to the test. -/
def request (settings : Settings) : Precondition → Request
  | containers => .crew (.call .list)
  | scan => .check (.rpc (hostUrl settings.scanUrl))
  | trace => .check (.rpc (hostUrl settings.traceUrl))
  | batch => .check (.batch settings.publishUrl)

/-- What the answer means: an error with the cause, or an event that tells of the success. -/
def verdict (settings : Settings) :
    (p : Precondition) → (p.request settings).Answer → Except StartupError Event
  | containers, .error cause => .error (.containers cause)
  | containers, .ok list => .ok
    { level := .debug, component := .startup, message := "Container runtime reachable"
      fields := [("containers", .number list.length)] }
  | scan, .error cause => .error (.scan cause)
  | scan, .ok block => .ok
    { level := .debug, component := .startup, message := "Scan JSON-RPC reachable"
      fields := [("block", .number block)] }
  | trace, .error cause => .error (.trace cause)
  | trace, .ok block => .ok
    { level := .debug, component := .startup, message := "Trace JSON-RPC reachable"
      fields := [("block", .number block)] }
  | batch, .error cause => .error (.batch cause)
  | batch, .ok () => .ok
    { level := .info, component := .startup, message := "Start-up check successful" }

/-- Whether an exchange is the test of a precondition, and the precondition holds. -/
def Holds (settings : Settings) (p : Precondition) (exchange : Exchange signature) : Prop :=
  ∃ answer event, exchange = ⟨p.request settings, answer⟩ ∧ p.verdict settings answer = .ok event

end Precondition

/-- How tests follow preconditions up to the first that fails, and what comes of it. -/
inductive Tests (settings : Settings) :
    List Precondition → List (Exchange signature) → Except StartupError Unit → Prop where
  | completed : Tests settings [] [] (.ok ())
  | holds {p : Precondition} {plan : List Precondition} {answer : (p.request settings).Answer}
      {event : Event} {tests : List (Exchange signature)} {result : Except StartupError Unit}
      (hverdict : p.verdict settings answer = .ok event)
      (htests : Tests settings plan tests result) :
      Tests settings (p :: plan) (⟨p.request settings, answer⟩ :: tests) result
  | fails {p : Precondition} {plan : List Precondition} {answer : (p.request settings).Answer}
      {e : StartupError} (hverdict : p.verdict settings answer = .error e) :
      Tests settings (p :: plan) [⟨p.request settings, answer⟩] (.error e)

/-- Whether a request tells the log something. -/
def Request.isLog : Request → Bool
  | .crew (.log _) => true
  | _ => false

/-- A dialogue without what it tells the log. -/
def unlogged (dialogue : List (Exchange signature)) : List (Exchange signature) :=
  dialogue.filter fun exchange => !exchange.request.isLog

variable {settings : Settings}

/-- A check succeeds exactly if all preconditions were tested and hold. -/
theorem Tests.ok_iff {plan : List Precondition} {tests : List (Exchange signature)}
    {result : Except StartupError Unit} (h : Tests settings plan tests result) :
    result = .ok () ↔ List.Forall₂ (Precondition.Holds settings) plan tests := by
  induction h with
  | completed => simp
  | @holds p plan answer event tests result hverdict htests ih =>
    have hp : p.Holds settings ⟨p.request settings, answer⟩ := ⟨answer, event, rfl, hverdict⟩
    rw [ih, List.forall₂_cons, and_iff_right hp]
  | @fails p plan answer e hverdict =>
    refine ⟨nofun, fun h => ?_⟩
    obtain ⟨answer', event, heq, hholds⟩ := (List.forall₂_cons.1 h).1
    cases heq
    rw [hverdict] at hholds
    cases hholds

/-! ## The check is its tests in order -/

/-- Tests one after the other, up to the first that fails. -/
def testAll (settings : Settings) : List Precondition → Action (Except StartupError Unit)
  | [] => return .ok ()
  | p :: plan => do
    match p.verdict settings (← ask (p.request settings)) with
    | .error e => return .error e
    | .ok event =>
      ask (.crew (.log event))
      testAll settings plan

theorem startupCheck_eq_testAll (settings : Settings) :
    startupCheck settings = testAll settings (preconditions settings) := by
  have hplan : preconditions settings = .containers :: .scan ::
      if settings.traceEnabled then [.trace, .batch] else [.batch] := by
    unfold preconditions
    split <;> rfl
  unfold startupCheck startupCheck.checkTrace
  rw [hplan]
  refine bind_congr fun listed => ?_
  cases listed with
  | error cause => rfl
  | ok list =>
    refine bind_congr fun _ => bind_congr fun scanned => ?_
    cases scanned with
    | error cause => rfl
    | ok block =>
      refine bind_congr fun _ => ?_
      split
      · rw [LawfulMonad.bind_assoc]
        refine bind_congr fun traced => ?_
        cases traced with
        | error cause => rfl
        | ok block =>
          dsimp only
          rw [LawfulMonad.bind_assoc]
          refine bind_congr fun _ => ?_
          show check (.batch settings.publishUrl) >>= _ = _
          refine bind_congr fun answer => ?_
          cases answer <;> rfl
      · show check (.batch settings.publishUrl) >>= _ = _
        refine bind_congr fun answer => ?_
        cases answer <;> rfl

theorem testAll_cons (p : Precondition) (plan : List Precondition) :
    testAll settings (p :: plan) = Script.ask (S := signature) (p.request settings) fun answer =>
      match p.verdict settings answer with
      | .error e => .done (.error e)
      | .ok event => Script.ask (S := signature) (.crew (.log event)) fun _ =>
        testAll settings plan := rfl

/-- Any dialogue up to the end is tests that follow the preconditions. -/
theorem tests_of_leads {plan : List Precondition} {dialogue : List (Exchange signature)}
    {result : Except StartupError Unit}
    (h : Leads (testAll settings plan) dialogue (.done result)) :
    Tests settings plan (unlogged dialogue) result := by
  induction plan generalizing dialogue with
  | nil =>
    obtain ⟨rfl, hresult⟩ := leads_done.1 h
    cases hresult
    exact .completed
  | cons p plan ih =>
    have hrequest : (p.request settings).isLog = false := by
      cases p <;> rfl
    rw [testAll_cons] at h
    cases h with
    | @asks _ _ answer dialogue _ h =>
      rw [unlogged, List.filter_cons_of_pos (by simp [hrequest])]
      cases hverdict : p.verdict settings answer with
      | error e =>
        simp only [hverdict] at h
        obtain ⟨rfl, hresult⟩ := leads_done.1 h
        cases hresult
        exact .fails hverdict
      | ok event =>
        simp only [hverdict] at h
        cases h with
        | asks h =>
          have htests := ih h
          exact .holds hverdict htests

theorem tests_startupCheck {dialogue : List (Exchange signature)}
    {result : Except StartupError Unit}
    (h : Leads (startupCheck settings) dialogue (.done result)) :
    Tests settings (preconditions settings) (unlogged dialogue) result := by
  rw [startupCheck_eq_testAll] at h
  exact tests_of_leads h

/-- The preconditions are tested in order up to the first that fails, whatever the answers are, and
the endpoints are tested under the rewritten URLs. -/
theorem startupCheck_tests {σ : Type} (settings : Settings)
    (answer : (r : signature.Request) → σ → signature.Answer r × σ) (s : σ) :
    let tests := unlogged ((startupCheck settings).dialogue answer s)
    let result := ((startupCheck settings).run answer s).1
    Tests settings (preconditions settings) tests result ∧
      (result = .ok () ↔
        List.Forall₂ (Precondition.Holds settings) (preconditions settings) tests) ∧
      ∃ scanUrl traceUrl, Rewritten settings.scanUrl scanUrl ∧
        Rewritten settings.traceUrl traceUrl ∧
        Precondition.scan.request settings = .check (.rpc scanUrl) ∧
        Precondition.trace.request settings = .check (.rpc traceUrl) := by
  intro tests result
  have htests : Tests settings (preconditions settings) tests result :=
    tests_startupCheck (leads_dialogue answer (startupCheck settings) s)
  exact ⟨htests, htests.ok_iff, _, _, rewritten_hostUrl _, rewritten_hostUrl _, rfl, rfl⟩

end Service
end Caretaker
