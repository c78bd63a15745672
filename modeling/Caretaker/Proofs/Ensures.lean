import Caretaker.Script

/-!
# What scripts ensure

A script is answered by a state that changes with each answer.  What can be said of an answer and of
the state after it is a rule; what a rule says of a whole script is its weakest precondition.  The
same script can so be read on a state of its own, before it meets the state that answers it.

Main statements:

- `ensures_bind`, `ensures_run_bind`: scripts in a row, the second form for scripts that can fail.
- `Ensures.run`: a state that follows the rule ends where the rule says.
-/

namespace Caretaker

/-- What has to hold of a state so that the answer to a request and the state after it satisfy a
postcondition. -/
abbrev Rule (S : Signature) (σ : Type) :=
  (r : S.Request) → σ → (S.Answer r → σ → Prop) → Prop

/-- Whether more can be proved by a rule where more follows. -/
def Rule.Monotone {S : Signature} {σ : Type} (rule : Rule S σ) : Prop :=
  ∀ (r : S.Request) (s : σ) (post post' : S.Answer r → σ → Prop),
    (∀ answer s', post answer s' → post' answer s') → rule r s post → rule r s post'

/-- Whether what a rule proves apart can be had at once. -/
def Rule.Conjunctive {S : Signature} {σ : Type} (rule : Rule S σ) : Prop :=
  ∀ (r : S.Request) (s : σ) (post post' : S.Answer r → σ → Prop),
    rule r s post → rule r s post' → rule r s fun answer s' => post answer s' ∧ post' answer s'

namespace Script

variable {S : Signature} {σ α β ε : Type}

/-- Whether a script, begun in a state, ends with a value and a state that satisfy `post`. -/
def Ensures (rule : Rule S σ) (post : α → σ → Prop) : Script S α → σ → Prop
  | .done value, s => post value s
  | .ask r next, s => rule r s fun answer s => (next answer).Ensures rule post s

/-! ## Scripts in a row -/

section Row

variable {rule : Rule S σ} {s : σ}

@[simp] theorem ensures_done {post : α → σ → Prop} {value : α} :
    (Script.done value : Script S α).Ensures rule post s ↔ post value s := Iff.rfl

@[simp] theorem ensures_ask {post : α → σ → Prop} {r : S.Request}
    {next : S.Answer r → Script S α} :
    (Script.ask r next).Ensures rule post s ↔
      rule r s fun answer s => (next answer).Ensures rule post s := Iff.rfl

theorem ensures_bind {script : Script S α} {f : α → Script S β} {post : β → σ → Prop} :
    (script >>= f).Ensures rule post s ↔
      script.Ensures rule (fun value => (f value).Ensures rule post) s := by
  -- The rule is any predicate transformer, so both sides have to be equal and not only equivalent.
  suffices h : (script >>= f).Ensures rule post =
      script.Ensures rule (fun value => (f value).Ensures rule post) by rw [h]
  induction script with
  | done value => rfl
  | ask r next ih =>
    funext s
    show rule r s _ = rule r s _
    congr 1
    funext answer
    exact ih answer

theorem ensures_map {script : Script S α} {f : α → β} {post : β → σ → Prop} :
    (f <$> script).Ensures rule post s ↔
      script.Ensures rule (fun value => post (f value)) s := by
  rw [map_eq_pure_bind]
  exact ensures_bind

/-- A script that can fail goes on only after a success. -/
theorem ensures_run_bind {script : ExceptT ε (Script S) α} {f : α → ExceptT ε (Script S) β}
    {post : Except ε β → σ → Prop} :
    (script >>= f).run.Ensures rule post s ↔
      script.run.Ensures rule (fun result s =>
        match result with
        | .ok value => (f value).run.Ensures rule post s
        | .error e => post (.error e) s) s := by
  rw [ExceptT.run_bind, ensures_bind]
  apply iff_of_eq
  congr 1
  funext result s
  cases result <;> rfl

@[simp] theorem ensures_run_pure {value : α} {post : Except ε α → σ → Prop} :
    (pure value : ExceptT ε (Script S) α).run.Ensures rule post s ↔ post (.ok value) s := Iff.rfl

@[simp] theorem ensures_run_lift {script : Script S α} {post : Except ε α → σ → Prop} :
    (liftM script : ExceptT ε (Script S) α).run.Ensures rule post s ↔
      script.Ensures rule (fun value => post (.ok value)) s := ensures_map

end Row

/-- What follows from what a script ensures is ensured too. -/
theorem Ensures.mono {rule : Rule S σ} (hrule : rule.Monotone) {script : Script S α}
    {post post' : α → σ → Prop} {s : σ} (h : script.Ensures rule post s)
    (himp : ∀ value s', post value s' → post' value s') : script.Ensures rule post' s := by
  induction script generalizing s with
  | done value => exact himp value s h
  | ask r next ih => exact hrule r s _ _ (fun answer s' h' => ih answer h') h

/-- What a script ensures apart it ensures at once. -/
theorem Ensures.and {rule : Rule S σ} (hrule : rule.Monotone) (hboth : rule.Conjunctive)
    {script : Script S α} {post post' : α → σ → Prop} {s : σ} (h : script.Ensures rule post s)
    (h' : script.Ensures rule post' s) :
    script.Ensures rule (fun value s' => post value s' ∧ post' value s') s := by
  induction script generalizing s with
  | done value => exact ⟨h, h'⟩
  | ask r next ih =>
    exact hrule r s _ _ (fun answer s' hnext => ih answer hnext.1 hnext.2) (hboth r s _ _ h h')

/-! ## States that follow a rule -/

/-- A state follows a rule when its answers are among those the rule speaks of.  Then what a script
ensures by the rule holds after its run. -/
theorem Ensures.run {τ : Type} {rule : Rule S σ} {answer : (r : S.Request) → τ → S.Answer r × τ}
    {sim : σ → τ → Prop}
    (hsim : ∀ r s t (post : S.Answer r → σ → Prop), sim s t → rule r s post →
      ∃ s', sim s' (answer r t).2 ∧ post (answer r t).1 s')
    {script : Script S α} {post : α → σ → Prop} {s : σ} {t : τ} (hst : sim s t)
    (h : script.Ensures rule post s) :
    ∃ s', sim s' (script.run answer t).2 ∧ post (script.run answer t).1 s' := by
  induction script generalizing s t with
  | done value => exact ⟨s, hst, h⟩
  | ask r next ih =>
    obtain ⟨s', hst', h'⟩ := hsim r s t _ hst h
    exact ih _ hst' h'

/-! ## Values that scripts can end with -/

/-- Whether every value that a script can end with satisfies `post`, whatever it is answered. -/
def Yields (post : α → Prop) : Script S α → Prop
  | .done value => post value
  | .ask _ next => ∀ answer, (next answer).Yields post

theorem Yields.run {τ : Type} {post : α → Prop} {script : Script S α} (h : script.Yields post)
    (answer : (r : S.Request) → τ → S.Answer r × τ) (t : τ) : post (script.run answer t).1 := by
  induction script generalizing t with
  | done value => exact h
  | ask r next ih => exact ih _ (h _) _

/-- What comes last decides on the value. -/
theorem yields_bind {post : β → Prop} (script : Script S α) {f : α → Script S β}
    (h : ∀ value, (f value).Yields post) : (script >>= f).Yields post := by
  induction script with
  | done value => exact h value
  | ask r next ih => exact fun answer => ih answer

/-- What follows may use what is known of the value before it. -/
theorem Yields.bind {between : α → Prop} {post : β → Prop} {script : Script S α}
    {f : α → Script S β} (h : script.Yields between)
    (hf : ∀ value, between value → (f value).Yields post) : (script >>= f).Yields post := by
  induction script with
  | done value => exact hf value h
  | ask r next ih => exact fun answer => ih answer (h answer)

theorem yields_map {post : β → Prop} (script : Script S α) {f : α → β}
    (h : ∀ value, post (f value)) : (f <$> script).Yields post := by
  rw [map_eq_pure_bind]
  exact yields_bind script h

theorem Yields.map {between : α → Prop} {post : β → Prop} {script : Script S α} {f : α → β}
    (h : script.Yields between) (hf : ∀ value, between value → post (f value)) :
    (f <$> script).Yields post := by
  rw [map_eq_pure_bind]
  exact h.bind hf

/-! ## Scripts that ask for some things only -/

/-- Whether a script asks for nothing else than what is `allowed`, whatever it is answered. -/
def Only (allowed : S.Request → Prop) : Script S α → Prop
  | .done _ => True
  | .ask r next => allowed r ∧ ∀ answer, (next answer).Only allowed

section Only

variable {allowed : S.Request → Prop}

@[simp] theorem only_done {value : α} : (Script.done value : Script S α).Only allowed := trivial

@[simp] theorem only_ask {r : S.Request} {next : S.Answer r → Script S α} :
    (Script.ask r next).Only allowed ↔ allowed r ∧ ∀ answer, (next answer).Only allowed := Iff.rfl

theorem Only.bind {script : Script S α} {f : α → Script S β} (h : script.Only allowed)
    (hf : ∀ value, (f value).Only allowed) : (script >>= f).Only allowed := by
  induction script with
  | done value => exact hf value
  | ask r next ih => exact ⟨h.1, fun answer => ih answer (h.2 answer)⟩

theorem Only.map {script : Script S α} (f : α → β) (h : script.Only allowed) :
    (f <$> script).Only allowed := by
  rw [map_eq_pure_bind]
  exact h.bind fun _ => trivial

end Only

end Script
end Caretaker
