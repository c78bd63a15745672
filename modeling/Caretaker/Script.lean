/-!
# Scripts

A script is a finite program that asks for things and goes on with the answers.  What can be asked,
and with what it is answered, is a `Signature`.  Nothing in a script says how it is answered: one
state may answer all requests of a script in a row, and another may let it wait while others go on.
-/

namespace Caretaker

/-- What a script can ask for, and the type of each answer. -/
structure Signature where
  Request : Type
  Answer : Request → Type

/-- A program with requests of a signature and a value of type `α` in the end. -/
inductive Script (S : Signature) (α : Type) where
  | done (value : α)
  | ask (request : S.Request) (next : S.Answer request → Script S α)

namespace Script

variable {S : Signature} {α β γ : Type}

/-- The script that asks for one thing. -/
def request (r : S.Request) : Script S (S.Answer r) := .ask r .done

/-- A script followed by another one that depends on its value. -/
def bind : Script S α → (α → Script S β) → Script S β
  | .done value, f => f value
  | .ask r next, f => .ask r fun answer => (next answer).bind f

instance : Monad (Script S) where
  pure := .done
  bind := bind

@[simp] theorem pure_eq (value : α) : (pure value : Script S α) = .done value := rfl

@[simp] theorem done_bind (value : α) (f : α → Script S β) : (.done value >>= f) = f value := rfl

@[simp] theorem ask_bind (r : S.Request) (next : S.Answer r → Script S α) (f : α → Script S β) :
    (Script.ask r next >>= f) = .ask r fun answer => next answer >>= f := rfl

@[simp] theorem request_bind (r : S.Request) (f : S.Answer r → Script S β) :
    (request r >>= f) = .ask r f := rfl

theorem bind_done (script : Script S α) : (script >>= .done) = script := by
  induction script with
  | done => rfl
  | ask r next ih => exact congrArg (Script.ask r) (funext ih)

theorem bind_assoc (script : Script S α) (f : α → Script S β) (g : β → Script S γ) :
    (script >>= f >>= g) = (script >>= fun value => f value >>= g) := by
  induction script with
  | done => rfl
  | ask r next ih => exact congrArg (Script.ask r) (funext ih)

instance : LawfulMonad (Script S) :=
  LawfulMonad.mk' _ bind_done (fun _ _ => rfl) bind_assoc

/-- The value of a script whose requests are answered one after the other by a state. -/
def run {σ : Type} (answer : (r : S.Request) → σ → S.Answer r × σ) : Script S α → σ → α × σ
  | .done value, s => (value, s)
  | .ask r next, s =>
    let (a, s) := answer r s
    (next a).run answer s

@[simp] theorem run_done {σ : Type} (answer : (r : S.Request) → σ → S.Answer r × σ) (value : α)
    (s : σ) : (Script.done value).run answer s = (value, s) := rfl

@[simp] theorem run_ask {σ : Type} (answer : (r : S.Request) → σ → S.Answer r × σ) (r : S.Request)
    (next : S.Answer r → Script S α) (s : σ) :
    (Script.ask r next).run answer s = (next (answer r s).1).run answer (answer r s).2 := rfl

theorem run_bind {σ : Type} (answer : (r : S.Request) → σ → S.Answer r × σ) (script : Script S α)
    (f : α → Script S β) (s : σ) :
    (script >>= f).run answer s =
      (f (script.run answer s).1).run answer (script.run answer s).2 := by
  induction script generalizing s with
  | done => rfl
  | ask r next ih => exact ih _ _

end Script
end Caretaker
