import Caretaker.Proofs.Usage

/-!
# Dialogues

A script that was answered for a while had a dialogue: the requests it made, each with its answer.
What a script in a row of scripts asked for is cut at the seams, and what a task did in a scene is
told by its dialogue, whatever else went on meanwhile.

Main statements:

- `Leads.of_bind`: the dialogue of scripts in a row is cut at the seam.
- `Scene.Came.step`: a task in a scene has a dialogue, which grows by one exchange when it is
  answered, and its calls are those of the dialogue.
-/

namespace Caretaker

namespace Script

variable {S : Signature} {α β ε : Type}

/-- A request with its answer. -/
structure Exchange (S : Signature) where
  request : S.Request
  answer : S.Answer request

/-- Whether a script comes to `rest` when it is answered as in a dialogue. -/
inductive Leads : Script S α → List (Exchange S) → Script S α → Prop where
  | here {script : Script S α} : Leads script [] script
  | asks {r : S.Request} {next : S.Answer r → Script S α} {answer : S.Answer r}
      {dialogue : List (Exchange S)} {rest : Script S α} :
      Leads (next answer) dialogue rest →
      Leads (.ask r next) (⟨r, answer⟩ :: dialogue) rest

/-- The value of a script that is at its end. -/
def outcome? : Script S α → Option α
  | .done value => some value
  | .ask _ _ => none

section Leads

variable {script rest : Script S α} {dialogue : List (Exchange S)}

/-- A script that is at its end asks for nothing. -/
theorem leads_done {value : α} :
    Leads (.done value : Script S α) dialogue rest ↔ dialogue = [] ∧ rest = .done value := by
  constructor
  · intro h
    cases h
    exact ⟨rfl, rfl⟩
  · rintro ⟨rfl, rfl⟩
    exact .here

/-- A dialogue grows at its end. -/
theorem Leads.concat {r : S.Request} {next : S.Answer r → Script S α}
    (h : Leads script dialogue (.ask r next)) (answer : S.Answer r) :
    Leads script (dialogue ++ [⟨r, answer⟩]) (next answer) := by
  generalize hrest : Script.ask r next = rest at h
  induction h with
  | here =>
    subst hrest
    exact .asks .here
  | asks _ ih => exact .asks (ih hrest)

/-- Scripts in a row: the first is still under way, or the second goes on from its value. -/
theorem Leads.of_bind {f : α → Script S β} {rest : Script S β}
    (h : Leads (script >>= f) dialogue rest) :
    (∃ r next, Leads script dialogue (.ask r next) ∧ rest = (.ask r next >>= f)) ∨
      ∃ first second value, dialogue = first ++ second ∧ Leads script first (.done value) ∧
        Leads (f value) second rest := by
  induction script generalizing dialogue with
  | done value => exact .inr ⟨[], dialogue, value, rfl, .here, h⟩
  | ask r next ih =>
    rw [ask_bind] at h
    cases h with
    | here => exact .inl ⟨r, next, .here, rfl⟩
    | @asks _ _ answer dialogue _ h =>
      rcases ih answer h with
        ⟨r', next', hleads, hrest⟩ | ⟨first, second, value, rfl, hfirst, hsecond⟩
      · exact .inl ⟨r', next', .asks hleads, hrest⟩
      · exact .inr ⟨⟨r, answer⟩ :: first, second, value, rfl, .asks hfirst, hsecond⟩

/-- A script that asks for some things only does so in its dialogues. -/
theorem Leads.only {allowed : S.Request → Prop} (h : Leads script dialogue rest)
    (honly : script.Only allowed) :
    (∀ exchange ∈ dialogue, allowed exchange.request) ∧ rest.Only allowed := by
  induction h with
  | here => exact ⟨nofun, honly⟩
  | asks _ ih =>
    obtain ⟨hdialogue, hrest⟩ := ih (honly.2 _)
    refine ⟨?_, hrest⟩
    intro exchange hmem
    rcases List.mem_cons.1 hmem with rfl | hmem
    · exact honly.1
    · exact hdialogue exchange hmem

/-- A script that is at its end has a value that it can end with. -/
theorem Leads.yields {post : α → Prop} {value : α} (h : Leads script dialogue (.done value))
    (hyields : script.Yields post) : post value := by
  generalize hrest : Script.done value = rest at h
  induction h with
  | here =>
    subst hrest
    exact hyields
  | asks _ ih => exact ih (hyields _) hrest

end Leads

theorem Only.mono {allowed allowed' : S.Request → Prop} {script : Script S α}
    (h : script.Only allowed) (himp : ∀ r, allowed r → allowed' r) : script.Only allowed' := by
  induction script with
  | done value => trivial
  | ask r next ih => exact ⟨himp r h.1, fun answer => ih answer (h.2 answer)⟩

/-- A script that can fail goes on to ask for some things only if all that comes next does. -/
theorem Only.run_bind {allowed : S.Request → Prop} {script : ExceptT ε (Script S) α}
    {f : α → ExceptT ε (Script S) β} (h : script.run.Only allowed)
    (hf : ∀ value, (f value).run.Only allowed) : (script >>= f).run.Only allowed := by
  rw [ExceptT.run_bind]
  refine h.bind fun result => ?_
  cases result with
  | ok value => exact hf value
  | error e => trivial

end Script

/-! ## Tasks in a scene -/

namespace Service

open Container (Backend)
open Script

/-- What a task did that came to `rest` by a dialogue, and where it stands: still there, or ended
with a result. -/
structure Scene.Came {ρ : Type} (who : Nat) (dialogue : List (Exchange signature))
    (rest : Action Result) (s : Scene ρ) : Prop where
  calls : s.callsOf who = dialogue.flatMap (·.request.calls who)
  stands :
    (s.tasks[who]? = some (some (.result <$> rest)) ∧ s.endedOf who = []) ∨
      ∃ result, rest = .done result ∧ s.tasks[who]? = some none ∧
        s.endedOf who = [(who, .result result)]

namespace Scene

variable {ρ : Type} [Backend ρ] {settings : Settings} {s : Scene ρ} {who : Nat}
  {dialogue : List (Exchange signature)} {rest : Action Result}

/-- What tasks ended with changes only for who goes on. -/
theorem endedOf_step_of_ne {move : Move ρ} (hmove : ∀ newsFirst, move ≠ .goesOn who newsFirst) :
    (s.step settings move).endedOf who = s.endedOf who := by
  cases move with
  | goesOn other newsFirst =>
    have hne : other ≠ who := by
      rintro rfl
      exact hmove newsFirst rfl
    show (s.goOn settings other newsFirst).endedOf who = s.endedOf who
    rcases htask : s.tasks[other]? with _ | _ | ending | ⟨r, next⟩
    · unfold goOn
      rw [htask]
    · rw [goOn_ended htask]
    · cases hresume : (World.host ρ settings).resume ending with
      | some script => rw [goOn_of_resume htask hresume, endedOf, endedOf]
      | none =>
        rw [goOn_of_end htask hresume, endedOf, List.filter_cons_of_neg (by simpa using hne),
          endedOf]
    · rcases goOn_ask htask newsFirst with ⟨-, heq⟩ | ⟨answer, -, heq⟩
      · rw [heq, endedOf, endedOf]
      · rw [heq]
        rfl
  | sends value =>
    simp only [step]
    split <;> rfl
  | _ => rfl

/-- A task that was just begun had no dialogue. -/
theorem Numbered.came (h : s.Numbered) (action : Action Result) :
    (s.step settings (.begins (.result <$> action))).Came s.tasks.length [] action where
  calls := h.next.1
  stands := .inl ⟨by simp [Scene.step], h.next.2⟩

/-- One move leaves a task where it is, in particular when its next request has to wait, or answers
that request. -/
theorem Came.step (h : s.Came who dialogue rest) (settings : Settings) (move : Move ρ) :
    ((s.step settings move).Came who dialogue rest ∧
        ∀ r next newsFirst, rest = Script.ask (S := signature) r next →
          move = .goesOn who newsFirst → (s.world.choose newsFirst who r).1 = none) ∨
      ∃ r next answer newsFirst, rest = Script.ask (S := signature) r next ∧
        move = .goesOn who newsFirst ∧ (s.world.choose newsFirst who r).1 = some answer ∧
        s.step settings move = s.answered who r answer (.result <$> next answer)
          (s.world.choose newsFirst who r).2 ∧
        (s.step settings move).Came who (dialogue ++ [⟨r, answer⟩]) (next answer) := by
  by_cases hmove : ∃ newsFirst, move = .goesOn who newsFirst
  · obtain ⟨newsFirst, rfl⟩ := hmove
    show ((s.goOn settings who newsFirst).Came who dialogue rest ∧ _) ∨ _
    rcases h.stands with ⟨htask, hended⟩ | ⟨result, rfl, htask, hended⟩
    · cases rest with
      | done result =>
        -- the task ends
        have hlt : who < s.tasks.length := (List.getElem?_eq_some_iff.1 htask).1
        rw [goOn_of_end htask rfl]
        refine .inl ⟨⟨h.calls, .inr ⟨result, rfl, List.getElem?_set_self hlt, ?_⟩⟩,
          fun _ _ _ hrest => by cases hrest⟩
        rw [endedOf, List.filter_cons_of_pos (by simp)]
        exact congrArg _ hended
      | ask r next =>
        rcases goOn_ask htask newsFirst with ⟨hwaits, heq⟩ | ⟨answer, hanswer, heq⟩
        · -- the task waits
          rw [heq]
          refine .inl ⟨⟨h.calls, .inl ⟨htask, hended⟩⟩, fun r' next' newsFirst' hrest hmove => ?_⟩
          cases hrest
          cases hmove
          exact hwaits
        · have hstep : s.step settings (.goesOn who newsFirst) =
              s.answered who r answer (.result <$> next answer)
                (s.world.choose newsFirst who r).2 := heq
          obtain ⟨htask', -, hcalls'⟩ : _ ∧ _ ∧
              (s.answered who r answer (.result <$> next answer)
                (s.world.choose newsFirst who r).2).callsOf who = s.callsOf who ++ r.calls who :=
            answered_self htask
          refine .inr ⟨r, next, answer, newsFirst, rfl, rfl, hanswer, hstep, ?_⟩
          rw [hstep]
          refine ⟨?_, .inl ⟨htask', hended⟩⟩
          rw [hcalls', h.calls, List.flatMap_append, List.flatMap_singleton]
    · rw [goOn_ended htask]
      exact .inl ⟨h, fun _ _ _ hrest => by cases hrest⟩
  · have hother : ∀ newsFirst, move ≠ .goesOn who newsFirst :=
      fun newsFirst heq => hmove ⟨newsFirst, heq⟩
    have hended : (s.step settings move).endedOf who = s.endedOf who := endedOf_step_of_ne hother
    refine .inl ⟨?_, fun _ _ newsFirst _ hself => absurd hself (hother newsFirst)⟩
    rcases h.stands with ⟨htask, hnone⟩ | ⟨result, hrest, htask, hover⟩
    · obtain ⟨htask', -, hcalls'⟩ := step_of_ne settings hother htask
      exact ⟨hcalls'.trans h.calls, .inl ⟨htask', hended.trans hnone⟩⟩
    · obtain ⟨htask', -, hcalls'⟩ := step_of_ne settings hother htask
      exact ⟨hcalls'.trans h.calls, .inr ⟨result, hrest, htask', hended.trans hover⟩⟩

end Scene
end Service
end Caretaker
