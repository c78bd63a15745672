import Caretaker.Proofs.Alone

/-!
# What others see of an operation

Who looks on while an operation runs alone sees its calls with their answers, and the copy of the
roster each time a part of it is brought up to date.  A sight is one of these.  What an operation
ensures whatever its calls are answered can so be told of its sights, and of the copy that others
could read when each call was made.

Main definitions:

- `Transaction.sights`: what is seen of a run, in order.
- `Seen.rule`: how sights go on, whatever each call is answered.

Main statements:

- `Transaction.ensures_sights`: what is ensured of sights holds of a run.
- `Transaction.ensures_calls`: what accounts ensure holds of the calls of a run.
- `sights_of_only`: work that tends what is there shows no copy.
-/

namespace Caretaker.Crew

open Container (Backend)
open Script

/-! ## Sights of a run -/

/-- What others see at one moment of an operation. -/
inductive Sight where
  /-- A call was made while `copy` could be read. -/
  | called (exchange : Exchange) (copy : Roster)
  /-- The copy of the roster was brought up to date. -/
  | showed (copy : Roster)

namespace Sight

/-- The call that is seen, if it is one. -/
def exchange? : Sight → Option Exchange
  | called exchange _ => some exchange
  | showed _ => none

/-- The copy that is shown, if one is. -/
def copy? : Sight → Option Roster
  | called _ _ => none
  | showed copy => some copy

/-- The copy that others can read at that moment. -/
def copy : Sight → Roster
  | called _ copy => copy
  | showed copy => copy

end Sight

/-- The calls among sights. -/
def exchanges (sights : List Sight) : List Exchange := sights.filterMap Sight.exchange?

/-- The copies that are shown among sights. -/
def copies (sights : List Sight) : List Roster := sights.filterMap Sight.copy?

section Lists

variable (sights sights' : List Sight) (exchange : Exchange) (copy : Roster)

@[simp] theorem exchanges_append :
    exchanges (sights ++ sights') = exchanges sights ++ exchanges sights' :=
  List.filterMap_append

@[simp] theorem exchanges_called : exchanges [.called exchange copy] = [exchange] := rfl

@[simp] theorem exchanges_showed : exchanges [.showed copy] = [] := rfl

@[simp] theorem copies_append : copies (sights ++ sights') = copies sights ++ copies sights' :=
  List.filterMap_append

@[simp] theorem copies_called : copies [.called exchange copy] = [] := rfl

@[simp] theorem copies_showed : copies [.showed copy] = [copy] := rfl

variable {sights copy}

theorem mem_copies : copy ∈ copies sights ↔ .showed copy ∈ sights := by
  constructor
  · intro hmem
    obtain ⟨sight, hsight, hcopy⟩ := List.mem_filterMap.1 hmem
    cases sight with
    | called exchange copy' => cases hcopy
    | showed copy' =>
      obtain rfl := Option.some.inj hcopy
      exact hsight
  · intro hsight
    exact List.mem_filterMap.2 ⟨_, hsight, rfl⟩

end Lists

section Run

variable {ρ : Type} [Backend ρ]

/-- What is seen of the answer to a request. -/
def World.sights (w : World ρ) : Request → List Sight
  | .call c => [.called ⟨c, (w.perform c).1⟩ w.lastKnown]
  | .publish role => [.showed (w.lastKnown.put role (w.roster.slot role))]
  | _ => []

/-- What is seen of a transaction that runs alone, in order. -/
def Transaction.sights {α : Type} : Transaction α → World ρ → List Sight
  | Script.done _, _ => []
  | Script.ask r next, w => w.sights r ++ Transaction.sights (next (w.answer r).1) (w.answer r).2

variable {α β : Type} (w : World ρ)

@[simp] theorem sights_done (value : α) :
    Transaction.sights (Script.done (S := signature) value) w = [] := rfl

@[simp] theorem sights_ask (r : Request) (next : r.Answer → Transaction α) :
    Transaction.sights (Script.ask (S := signature) r next) w =
      w.sights r ++ (next (w.answer r).1).sights (w.answer r).2 := rfl

theorem Transaction.run_bind (t : Transaction α) (f : α → Transaction β) :
    Transaction.run (t >>= f) w = (f (t.run w).1).run (t.run w).2 := Script.run_bind _ t f w

/-- The sights of transactions in a row are in a row. -/
theorem sights_bind (t : Transaction α) (f : α → Transaction β) :
    Transaction.sights (t >>= f) w = t.sights w ++ (f (t.run w).1).sights (t.run w).2 := by
  induction t generalizing w with
  | done value => rfl
  | ask r next ih =>
    show w.sights r ++ Transaction.sights (next (w.answer r).1 >>= f) (w.answer r).2 = _
    rw [ih, sights_ask, List.append_assoc]
    rfl

/-- The lock cannot be seen. -/
theorem sights_thenUnlock (body : Transaction α) : (thenUnlock body).sights w = body.sights w := by
  unfold thenUnlock
  rw [sights_bind]
  exact List.append_nil _

theorem sights_locked (access : Access) (body : Transaction α) :
    (Transaction.locked access body).sights w = body.sights w := sights_thenUnlock w body

/-- Others see the work of an operation, when nobody else does anything. -/
theorem Operation.sights_transaction (settings : Settings) (op : Operation) :
    (op.transaction settings).sights w = (op.work settings).sights w := by
  cases haccess : op.access with
  | some access =>
    rw [transaction_of_access haccess]
    exact sights_thenUnlock w _
  | none =>
    cases op with
    | roleStatuses =>
      rw [transaction_roleStatuses]
      exact sights_thenUnlock w _
    | _ => cases haccess

end Run

/-! ## Sights by a rule -/

/-- What is known of the roster under the lock, and what was seen. -/
structure Seen where
  roster : Roster
  /-- The copy of the roster that can always be read. -/
  lastKnown : Roster
  /-- What was seen so far, in order. -/
  sights : List Sight := []

namespace Seen

/-- What is known after one more call. -/
def called (exchange : Exchange) (s : Seen) : Seen :=
  { s with sights := s.sights ++ [.called exchange s.lastKnown] }

/-- What is known after a slot was set. -/
def set (role : Role) (slot : Slot) (s : Seen) : Seen :=
  { s with roster := s.roster.put role slot }

/-- What is known after the copy of a slot was brought up to date. -/
def published (role : Role) (s : Seen) : Seen :=
  { s with
    lastKnown := s.lastKnown.put role (s.roster.slot role)
    sights := s.sights ++ [.showed (s.lastKnown.put role (s.roster.slot role))] }

/-- How sights go on: calls are answered in any way, and nobody asks for the lock. -/
def rule : Rule signature Seen
  | .call c, s, post => ∀ answer : c.Answer, post answer (s.called ⟨c, answer⟩)
  | .log _, s, post => post () s
  | .slot role, s, post => post (s.roster.slot role) s
  | .setSlot role slot, s, post => post () (s.set role slot)
  | .publish role, s, post => post () (s.published role)
  | .lastKnown, s, post => post s.lastKnown s
  | .lock _, _, _ | .tryLock, _, _ | .unlock, _, _ => False

theorem rule_monotone : rule.Monotone := by
  intro r s post post' himp h
  cases r with
  | lock => exact h
  | tryLock => exact h
  | unlock => exact h
  | call c => exact fun answer => himp _ _ (h answer)
  | _ => exact himp _ _ h

theorem rule_conjunctive : rule.Conjunctive := by
  intro r s post post' h h'
  cases r with
  | lock => exact h
  | tryLock => exact h
  | unlock => exact h
  | call c => exact fun answer => ⟨h answer, h' answer⟩
  | _ => exact ⟨h, h'⟩

/-- The account of what was seen. -/
def account (s : Seen) : Account where
  roster := s.roster
  lastKnown := s.lastKnown
  calls := exchanges s.sights

theorem account_called (exchange : Exchange) (s : Seen) :
    (s.called exchange).account = s.account.called exchange := by
  simp [account, called, Account.called]

theorem account_published (role : Role) (s : Seen) :
    (s.published role).account = s.account.published role := by
  simp [account, published, Account.published]

/-- What is ensured by accounts is ensured of the account of what is seen. -/
theorem ensures_of_account {α : Type} {t : Transaction α} {post : α → Account → Prop} {s : Seen}
    (h : t.Ensures Account.rule post s.account) :
    t.Ensures rule (fun value s' => post value s'.account) s := by
  induction t generalizing s with
  | done value => exact h
  | ask r next ih =>
    cases r with
    | call c =>
      intro answer
      apply ih
      rw [account_called]
      exact h answer
    | publish role =>
      apply ih
      rw [account_published]
      exact h
    | log event => exact ih _ h
    | slot role => exact ih _ h
    | setSlot role slot => exact ih _ h
    | lastKnown => exact ih _ h
    | lock => exact h.elim
    | tryLock => exact h.elim
    | unlock => exact h.elim

end Seen

section Rule

variable {s : Seen}

@[simp] theorem sees_call {c : Container.Call} {post : c.Answer → Seen → Prop} :
    (Transaction.call c).Ensures Seen.rule post s ↔
      ∀ answer : c.Answer, post answer (s.called ⟨c, answer⟩) := Iff.rfl

@[simp] theorem sees_log {level : Level} {message : String} {fields : List (String × EventValue)}
    {post : Unit → Seen → Prop} :
    (Transaction.log level message fields).Ensures Seen.rule post s ↔ post () s := Iff.rfl

@[simp] theorem sees_slot {role : Role} {post : Slot → Seen → Prop} :
    (Transaction.slot role).Ensures Seen.rule post s ↔ post (s.roster.slot role) s := Iff.rfl

@[simp] theorem sees_setSlot {role : Role} {slot : Slot} {post : Unit → Seen → Prop} :
    (Transaction.setSlot role slot).Ensures Seen.rule post s ↔ post () (s.set role slot) := Iff.rfl

@[simp] theorem sees_publish {role : Role} {post : Unit → Seen → Prop} :
    (Transaction.publish role).Ensures Seen.rule post s ↔ post () (s.published role) := Iff.rfl

end Rule

/-! ## From rules to runs -/

section Worlds

variable {ρ : Type} [Backend ρ] {α : Type} {t : Transaction α}

/-- What is known of a world in which `sights` were seen. -/
def World.seen (w : World ρ) (sights : List Sight) : Seen where
  roster := w.roster
  lastKnown := w.lastKnown
  sights := sights

/-- A world goes on as the rule says, and what is seen of its answer is added to the sights. -/
theorem World.seen_answer {w : World ρ} {before : List Sight} {r : Request}
    {post : r.Answer → Seen → Prop} (h : Seen.rule r (w.seen before) post) :
    post (w.answer r).1 ((w.answer r).2.seen (before ++ w.sights r)) := by
  cases r with
  | lock => exact h.elim
  | tryLock => exact h.elim
  | unlock => exact h.elim
  | call c => exact h (w.perform c).1
  | publish role => exact h
  | _ =>
    rw [show w.sights _ = [] from rfl, List.append_nil]
    exact h

/-- What is ensured of sights holds of what is seen of a run, after what was seen before it. -/
theorem Transaction.ensures_sights {post : α → Seen → Prop} {w : World ρ}
    (before : List Sight) (h : t.Ensures Seen.rule post (w.seen before)) :
    post (t.run w).1 ((t.run w).2.seen (before ++ t.sights w)) := by
  induction t generalizing w before with
  | done value =>
    rw [sights_done, List.append_nil]
    exact h
  | ask r next ih =>
    have hnext := ih _ _ (World.seen_answer h)
    rw [List.append_assoc] at hnext
    exact hnext

/-- What accounts ensure holds of the calls that are seen of a run. -/
theorem Transaction.ensures_calls {post : α → Account → Prop} {w : World ρ}
    (h : t.Ensures Account.rule post w.account) :
    post (t.run w).1 ((t.run w).2.seen (t.sights w)).account :=
  Transaction.ensures_sights [] (Seen.ensures_of_account h)

/-- Work that tends what is there leaves the copy as it is, and shows none. -/
theorem sights_of_only (hbody : t.Only (S := signature) Request.Tends) (w : World ρ) :
    t.sights w = (exchanges (t.sights w)).map fun exchange => .called exchange w.lastKnown := by
  induction t generalizing w with
  | done value => rfl
  | ask r next ih =>
    obtain ⟨hr, hnext⟩ := hbody
    have hrest := ih _ (hnext (w.answer r).1) (w.answer r).2
    rw [sights_ask, exchanges_append, List.map_append]
    cases r with
    | call c => exact congrArg _ hrest
    | log event => exact hrest
    | slot role => exact hrest
    | lastKnown => exact hrest
    | lock => exact hr.elim
    | tryLock => exact hr.elim
    | unlock => exact hr.elim
    | setSlot => exact hr.elim
    | publish => exact hr.elim

end Worlds

end Caretaker.Crew
