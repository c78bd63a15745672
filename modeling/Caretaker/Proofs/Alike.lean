import Mathlib.Data.List.Forall2
import Caretaker.Proofs.Ensures

/-!
# Scripts that are alike

Two scripts can ask for the same things in the same order and still not be equal, since what they
ask for, or are told, may differ in something that should make no difference.  A pairing says which
requests correspond and how their answers then do.

Main definitions:

- `Script.Alike`: two scripts go on alike for as long as they are answered alike.

Main statements:

- `Script.Alike.bind`, `Script.Alike.run_bind`: scripts in a row are alike if their parts are.
- `Script.Alike.bind_eq`, `Script.Alike.run_bind_eq`: the same where one value is handed on.
- `Script.Alike.run`: states that answer alike bring scripts that are alike to related values.
-/

namespace Caretaker

/-- Whether two results are the same failure, or values that are related. -/
inductive SameUpTo {ε α α' : Type} (post : α → α' → Prop) : Except ε α → Except ε α' → Prop where
  | ok {value : α} {value' : α'} (h : post value value') : SameUpTo post (.ok value) (.ok value')
  | error (e : ε) : SameUpTo post (.error e) (.error e)

theorem sameUpTo_refl {ε α : Type} {post : α → α → Prop} (h : ∀ value, post value value)
    (result : Except ε α) : SameUpTo post result result := by
  cases result with
  | ok value => exact .ok (h value)
  | error e => exact .error e

theorem sameUpTo_of_map {ε α β : Type} {f : α → β} {result result' : Except ε α}
    (h : result.map f = result'.map f) :
    SameUpTo (fun value value' => f value = f value') result result' := by
  cases result with
  | ok value =>
    cases result' with
    | ok value' => exact .ok (Except.ok.inj h)
    | error e => cases h
  | error e =>
    cases result' with
    | ok value' => cases h
    | error e' =>
      cases h
      exact .error e

theorem SameUpTo.cases {ε α α' : Type} {post : α → α' → Prop} {result : Except ε α}
    {result' : Except ε α'} (h : SameUpTo post result result') :
    (∃ value value', result = .ok value ∧ result' = .ok value' ∧ post value value') ∨
      ∃ e, result = .error e ∧ result' = .error e := by
  cases h with
  | ok h => exact .inl ⟨_, _, rfl, rfl, h⟩
  | error e => exact .inr ⟨e, rfl, rfl⟩

/-- Results that are the same up to equality are equal. -/
theorem SameUpTo.eq {ε α : Type} {result result' : Except ε α} (h : SameUpTo Eq result result') :
    result = result' := by
  cases h with
  | ok h => rw [h]
  | error e => rfl

namespace Script

variable {S : Signature} {α α' β β' ε : Type}

/-- Which requests correspond, and which of their answers then do. -/
abbrev Pairing (S : Signature) := (r r' : S.Request) → (S.Answer r → S.Answer r' → Prop) → Prop

/-- Whether two scripts ask for what corresponds, go on alike when the answers correspond, and end
with values that are related. -/
inductive Alike (pairs : Pairing S) (post : α → α' → Prop) : Script S α → Script S α' → Prop where
  | done {value : α} {value' : α'} (h : post value value') :
      Alike pairs post (.done value) (.done value')
  | ask {r r' : S.Request} {told : S.Answer r → S.Answer r' → Prop} {next : S.Answer r → Script S α}
      {next' : S.Answer r' → Script S α'} (h : pairs r r' told)
      (hnext : ∀ answer answer', told answer answer' →
        Alike pairs post (next answer) (next' answer')) :
      Alike pairs post (.ask r next) (.ask r' next')

section

variable {pairs : Pairing S} {script : Script S α} {script' : Script S α'}

/-- Where no request makes a difference, a script goes on like itself. -/
theorem alike_refl (h : ∀ r, pairs r r Eq) (script : Script S α) :
    Alike pairs Eq script script := by
  induction script with
  | done value => exact .done rfl
  | ask r next ih =>
    refine .ask (h r) fun answer answer' hanswer => ?_
    subst hanswer
    exact ih answer

theorem Alike.bind {between : α → α' → Prop} {post : β → β' → Prop} {f : α → Script S β}
    {f' : α' → Script S β'} (h : Alike pairs between script script')
    (hf : ∀ value value', between value value' → Alike pairs post (f value) (f' value')) :
    Alike pairs post (script >>= f) (script' >>= f') := by
  induction h with
  | done h => exact hf _ _ h
  | ask h _ ih => exact .ask h ih

/-- Scripts in a row that hand on the same value. -/
theorem Alike.bind_eq {script script' : Script S α} {post : β → β' → Prop} {f : α → Script S β}
    {f' : α → Script S β'} (h : Alike pairs Eq script script')
    (hf : ∀ value, Alike pairs post (f value) (f' value)) :
    Alike pairs post (script >>= f) (script' >>= f') := by
  refine h.bind fun value value' hvalue => ?_
  subst hvalue
  exact hf value

theorem Alike.map {between : α → α' → Prop} {post : β → β' → Prop} {f : α → β} {f' : α' → β'}
    (h : Alike pairs between script script')
    (hf : ∀ value value', between value value' → post (f value) (f' value')) :
    Alike pairs post (f <$> script) (f' <$> script') := by
  induction h with
  | done h => exact .done (hf _ _ h)
  | ask h _ ih => exact .ask h ih

/-- Scripts that can fail: where one stops with an error, so does the other one. -/
theorem Alike.run_bind {between : α → α' → Prop} {post : Except ε β → Except ε β' → Prop}
    {script : ExceptT ε (Script S) α} {script' : ExceptT ε (Script S) α'}
    {f : α → ExceptT ε (Script S) β} {f' : α' → ExceptT ε (Script S) β'}
    (h : Alike pairs (SameUpTo between) script.run script'.run)
    (hf : ∀ value value', between value value' → Alike pairs post (f value).run (f' value').run)
    (herror : ∀ e, post (.error e) (.error e)) :
    Alike pairs post (script >>= f).run (script' >>= f').run := by
  rw [ExceptT.run_bind, ExceptT.run_bind]
  refine h.bind fun result result' hresult => ?_
  cases hresult with
  | ok h => exact hf _ _ h
  | error e => exact .done (herror e)

/-- Scripts that can fail, and hand on the same value. -/
theorem Alike.run_bind_eq {post : Except ε β → Except ε β' → Prop}
    {script script' : ExceptT ε (Script S) α} {f : α → ExceptT ε (Script S) β}
    {f' : α → ExceptT ε (Script S) β'} (h : Alike pairs (SameUpTo Eq) script.run script'.run)
    (hf : ∀ value, Alike pairs post (f value).run (f' value).run)
    (herror : ∀ e, post (.error e) (.error e)) :
    Alike pairs post (script >>= f).run (script' >>= f').run := by
  refine h.run_bind (fun value value' hvalue => ?_) herror
  subst hvalue
  exact hf value

/-- States that answer alike bring both scripts to related values, and stay alike. -/
theorem Alike.run {σ : Type} {post : α → α' → Prop} (alike : σ → σ → Prop)
    {answer : (r : S.Request) → σ → S.Answer r × σ}
    (hanswer : ∀ {r r' told s s'}, pairs r r' told → alike s s' →
      told (answer r s).1 (answer r' s').1 ∧ alike (answer r s).2 (answer r' s').2)
    (h : Alike pairs post script script') {s s' : σ} (hs : alike s s') :
    post (script.run answer s).1 (script'.run answer s').1 ∧
      alike (script.run answer s).2 (script'.run answer s').2 := by
  induction h generalizing s s' with
  | done h => exact ⟨h, hs⟩
  | ask h _ ih =>
    -- both states move, and the scripts go on with answers that correspond
    obtain ⟨htold, hstays⟩ := hanswer h hs
    exact ih _ _ htold hstays

end

end Script

/-! ## Lists of what is alike -/

section Lists

variable {α β : Type} {rel : α → β → Prop} {as : List α} {bs : List β}

theorem forall₂_set (h : List.Forall₂ rel as bs) {a : α} {b : β} (hab : rel a b) (i : Nat) :
    List.Forall₂ rel (as.set i a) (bs.set i b) := by
  induction h generalizing i with
  | nil => exact .nil
  | cons hhead htail ih =>
    cases i with
    | zero => exact .cons hab htail
    | succ i => exact .cons hhead (ih i)

/-- What stands in one place of both lists is related. -/
theorem forall₂_getElem? (h : List.Forall₂ rel as bs) (i : Nat) : Option.Rel rel as[i]? bs[i]? := by
  induction h generalizing i with
  | nil => exact .none
  | cons hhead _ ih =>
    cases i with
    | zero => exact .some hhead
    | succ i => exact ih i

end Lists

end Caretaker
