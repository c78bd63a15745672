import Caretaker.Proofs.Dialogue

/-!
# What a task hears in a run

A task in a scene has a dialogue, and hears it turn by turn: each exchange took place at a turn of
the task that comes after those of the exchanges before it, and the world gave that answer then.  A
task whose requests need not wait comes to its end in as many turns as its script is long.

Main definitions:

- `Script.Within`: how many requests a script makes at most.
- `Scene.Hears`: a dialogue that takes place in a run.

Main statements:

- `Script.exists_leads_done`: every dialogue can be carried on to its end.
- `Scene.Came.run`: a task comes to where its dialogue leads, and hears that dialogue.
- `Scene.Came.ends`: a task that need not wait ends.
-/

namespace Caretaker

namespace Script

variable {S : Signature} {α β : Type}

/-! ## The length of scripts -/

/-- Whether a script makes so many requests at most, whatever it is answered. -/
def Within : Nat → Script S α → Prop
  | _, .done _ => True
  | 0, .ask _ _ => False
  | n + 1, .ask _ next => ∀ answer, Within n (next answer)

theorem within_done (n : Nat) (value : α) : Within n (.done value : Script S α) := by
  cases n <;> trivial

theorem Within.mono {m n : Nat} {script : Script S α} (h : script.Within m) (hle : m ≤ n) :
    script.Within n := by
  induction script generalizing m n with
  | done value => exact within_done n value
  | ask r next ih =>
    cases m with
    | zero => exact h.elim
    | succ m =>
      obtain ⟨k, rfl⟩ : ∃ k, n = k + 1 := ⟨n - 1, by omega⟩
      intro answer
      exact ih answer (h answer) (by omega)

/-- The requests of scripts in a row are those of both. -/
theorem Within.bind {m n : Nat} {script : Script S α} {f : α → Script S β}
    (h : script.Within m) (hf : ∀ value, (f value).Within n) : (script >>= f).Within (m + n) := by
  induction script generalizing m with
  | done value => exact (hf value).mono (Nat.le_add_left n m)
  | ask r next ih =>
    cases m with
    | zero => exact h.elim
    | succ m =>
      rw [Nat.add_right_comm]
      intro answer
      exact ih answer (h answer)

theorem Within.map {n : Nat} {script : Script S α} (f : α → β) (h : script.Within n) :
    (f <$> script).Within n := by
  rw [map_eq_pure_bind]
  exact h.bind fun value => within_done 0 (f value)

/-! ## The way to the end -/

section Leads

variable {script rest : Script S α} {dialogue : List (Exchange S)}

/-- A script with a request has an answer to it before it ends. -/
theorem Leads.of_ask {r : S.Request} {next : S.Answer r → Script S α} {value : α}
    (h : Leads (.ask r next) dialogue (.done value)) :
    ∃ answer later, dialogue = ⟨r, answer⟩ :: later ∧ Leads (next answer) later (.done value) := by
  cases h with
  | asks h => exact ⟨_, _, rfl, h⟩

/-- Scripts in a row that ended both ended, one after the other. -/
theorem Leads.of_bind_done {f : α → Script S β} {value : β}
    (h : Leads (script >>= f) dialogue (.done value)) :
    ∃ first second between, dialogue = first ++ second ∧ Leads script first (.done between) ∧
      Leads (f between) second (.done value) := by
  rcases h.of_bind with ⟨r, next, -, hrest⟩ | ⟨first, second, between, hdialogue, h, h'⟩
  · cases hrest
  · exact ⟨first, second, between, hdialogue, h, h'⟩

/-- What is made of the value of a script makes no difference on the way. -/
theorem Leads.of_map {f : α → β} {rest : Script S β} (h : Leads (f <$> script) dialogue rest) :
    ∃ rest', Leads script dialogue rest' ∧ rest = f <$> rest' := by
  rw [map_eq_pure_bind] at h
  rcases h.of_bind with ⟨r, next, hleads, hrest⟩ | ⟨first, second, value, rfl, hfirst, hsecond⟩
  · rw [← map_eq_pure_bind] at hrest
    exact ⟨_, hleads, hrest⟩
  · obtain ⟨rfl, hrest⟩ := leads_done.1 hsecond
    rw [List.append_nil]
    exact ⟨_, hfirst, hrest⟩

/-- Where a dialogue led to, another one goes on. -/
theorem Leads.append {later : List (Exchange S)} {rest' : Script S α}
    (h : Leads script dialogue rest) (hlater : Leads rest later rest') :
    Leads script (dialogue ++ later) rest' := by
  induction h with
  | here => exact hlater
  | asks _ ih => exact .asks (ih hlater)

/-- A script comes to an end when each of its requests can be answered somehow. -/
theorem exists_leads_done {allowed : S.Request → Prop} (honly : script.Only allowed)
    (hanswers : ∀ r, allowed r → Nonempty (S.Answer r)) :
    ∃ more value, Leads script more (.done value) := by
  induction script with
  | done value => exact ⟨[], value, .here⟩
  | ask r next ih =>
    obtain ⟨answer⟩ := hanswers r honly.1
    obtain ⟨more, value, hleads⟩ := ih answer (honly.2 answer)
    exact ⟨⟨r, answer⟩ :: more, value, .asks hleads⟩

end Leads

end Script

/-! ## Runs -/

namespace Service

open Container (Backend)
open Script

variable {ρ : Type}

/-- How often a task is let go on. -/
def turnCount (who : Nat) (moves : List (Move ρ)) : Nat :=
  moves.countP fun
    | .goesOn other _ => other = who
    | _ => false

variable [Backend ρ]

/-- Whether a world gives a task the answer of an exchange. -/
def World.Gives (who : Nat) (exchange : Exchange signature) (w : World ρ) : Prop :=
  ∃ newsFirst, (w.choose newsFirst who exchange.request).1 = some exchange.answer

/-- Whether a task hears a dialogue in a run: its exchanges one after the other, each at a turn of
the task at which the world is as the exchange tells. -/
inductive Scene.Hears (settings : Settings) (who : Nat)
    (tells : Exchange signature → World ρ → Prop) :
    List (Move ρ) → List (Exchange signature) → Scene ρ → Prop where
  | nothing {s : Scene ρ} : Hears settings who tells [] [] s
  | later {move : Move ρ} {moves : List (Move ρ)} {dialogue : List (Exchange signature)}
      {s : Scene ρ} (h : Hears settings who tells moves dialogue (s.step settings move)) :
      Hears settings who tells (move :: moves) dialogue s
  | now {newsFirst : Bool} {moves : List (Move ρ)} {exchange : Exchange signature}
      {dialogue : List (Exchange signature)} {s : Scene ρ} (htells : tells exchange s.world)
      (h : Hears settings who tells moves dialogue (s.step settings (.goesOn who newsFirst))) :
      Hears settings who tells (.goesOn who newsFirst :: moves) (exchange :: dialogue) s

namespace Scene

variable {settings : Settings} {s : Scene ρ} {who : Nat} {dialogue : List (Exchange signature)}
  {rest : Action Result} {moves : List (Move ρ)}

theorem Numbered.run (h : s.Numbered) (moves : List (Move ρ)) :
    (s.run settings moves).Numbered := by
  induction moves generalizing s with
  | nil => exact h
  | cons move moves ih => exact ih (h.step move)

/-- What exchanges say may be told in other words. -/
theorem Hears.mono {tells tells' : Exchange signature → World ρ → Prop}
    (h : s.Hears settings who tells moves dialogue)
    (himp : ∀ exchange ∈ dialogue, ∀ w, tells exchange w → tells' exchange w) :
    s.Hears settings who tells' moves dialogue := by
  induction h with
  | nothing => exact .nothing
  | later _ ih => exact .later (ih himp)
  | now htells _ ih =>
    have hrest := ih fun exchange hmem => himp exchange (List.mem_cons_of_mem _ hmem)
    exact .now (himp _ List.mem_cons_self _ htells) hrest

/-- A task comes to where its dialogue leads, and hears what is new of the dialogue. -/
theorem Came.run (h : s.Came who dialogue rest) (settings : Settings)
    (moves : List (Move ρ)) :
    ∃ more rest', Leads rest more rest' ∧
      (s.run settings moves).Came who (dialogue ++ more) rest' ∧
      s.Hears settings who (World.Gives who) moves more := by
  induction moves generalizing s dialogue rest with
  | nil =>
    refine ⟨[], rest, .here, ?_, .nothing⟩
    rw [List.append_nil]
    exact h
  | cons move moves ih =>
    rcases h.step settings move with
      ⟨hcame, -⟩ | ⟨r, next, answer, newsFirst, rfl, rfl, hanswer, -, hcame⟩
    · obtain ⟨more, rest', hleads, hcame', hhears⟩ := ih hcame
      exact ⟨more, rest', hleads, hcame', .later hhears⟩
    · -- the answer of this turn comes first
      obtain ⟨more, rest', hleads, hcame', hhears⟩ := ih hcame
      refine ⟨⟨r, answer⟩ :: more, rest', .asks hleads, ?_, .now ⟨newsFirst, hanswer⟩ hhears⟩
      rw [List.append_assoc, List.singleton_append] at hcame'
      exact hcame'

/-! ## The end of a task -/

/-- A task that ended stays as it is. -/
theorem endedOf_run (htask : s.tasks[who]? = some none) (moves : List (Move ρ)) :
    (s.run settings moves).endedOf who = s.endedOf who := by
  induction moves generalizing s with
  | nil => rfl
  | cons move moves ih =>
    by_cases hmove : ∃ newsFirst, move = .goesOn who newsFirst
    · obtain ⟨newsFirst, rfl⟩ := hmove
      have hsame : s.step settings (.goesOn who newsFirst) = s := goOn_ended htask newsFirst
      show ((s.step settings (.goesOn who newsFirst)).run settings moves).endedOf who = _
      rw [hsame]
      exact ih htask
    · have hother : ∀ newsFirst, move ≠ .goesOn who newsFirst :=
        fun newsFirst heq => hmove ⟨newsFirst, heq⟩
      exact (ih (step_of_ne settings hother htask).1).trans (endedOf_step_of_ne hother)

/-- A task that is at its end ends at its next turn. -/
theorem Came.goOn_done {result : Result} (h : s.Came who dialogue (.done result))
    (settings : Settings) (newsFirst : Bool) :
    (s.goOn settings who newsFirst).tasks[who]? = some none ∧
      (s.goOn settings who newsFirst).endedOf who = [(who, .result result)] := by
  rcases h.stands with ⟨htask, hended⟩ | ⟨result', hrest, htask, hended⟩
  · have hlt : who < s.tasks.length := (List.getElem?_eq_some_iff.1 htask).1
    rw [goOn_of_end htask rfl]
    refine ⟨List.getElem?_set_self hlt, ?_⟩
    rw [endedOf, List.filter_cons_of_pos (by simp)]
    exact congrArg _ hended
  · cases hrest
    rw [goOn_ended htask]
    exact ⟨htask, hended⟩

/-- A task that need not wait ends, when it has one turn more than its script is long. -/
theorem Came.ends {allowed : Request → Prop} {n : Nat} (h : s.Came who dialogue rest)
    (honly : rest.Only (S := signature) allowed) (hwithin : rest.Within n)
    (hready : ∀ first newsFirst second, moves = first ++ .goesOn who newsFirst :: second →
      ∀ r, allowed r → ((s.run settings first).world.choose newsFirst who r).1 ≠ none)
    (hturns : n < turnCount who moves) :
    ∃ result, (s.run settings moves).endedOf who = [(who, .result result)] := by
  induction moves generalizing s dialogue rest n with
  | nil => cases hturns
  | cons move moves ih =>
    have hlater : ∀ first newsFirst second, moves = first ++ .goesOn who newsFirst :: second →
        ∀ r, allowed r →
          (((s.step settings move).run settings first).world.choose newsFirst who r).1 ≠ none := by
      rintro first newsFirst second rfl
      exact hready (move :: first) newsFirst second rfl
    by_cases hmove : ∃ newsFirst, move = .goesOn who newsFirst
    · obtain ⟨newsFirst, rfl⟩ := hmove
      have hcount : turnCount who (.goesOn who newsFirst :: moves) = turnCount who moves + 1 :=
        List.countP_cons_of_pos (by simp)
      cases rest with
      | done result =>
        obtain ⟨htask, hended⟩ := h.goOn_done settings newsFirst
        exact ⟨result, (endedOf_run htask moves).trans hended⟩
      | ask r next =>
        rcases h.step settings (.goesOn who newsFirst) with
          ⟨-, hwaits⟩ | ⟨r', next', answer, newsFirst', hrest, hmove, -, -, hcame⟩
        · exact absurd (hwaits r next newsFirst rfl rfl) (hready [] newsFirst moves rfl r honly.1)
        · cases hrest
          cases n with
          | zero => exact hwithin.elim
          | succ n =>
            have hturns' : n < turnCount who moves := by omega
            exact ih hcame (honly.2 answer) (hwithin answer) hlater hturns'
    · have hcount : turnCount who (move :: moves) = turnCount who moves := by
        refine List.countP_cons_of_neg ?_
        cases move with
        | goesOn other newsFirst =>
          intro heq
          have heq : other = who := by simpa using heq
          exact hmove ⟨newsFirst, by rw [heq]⟩
        | _ => simp
      rcases h.step settings move with
        ⟨hcame, -⟩ | ⟨_, _, _, newsFirst, _, rfl, _⟩
      · exact ih hcame honly hwithin hlater (hcount ▸ hturns)
      · exact absurd ⟨newsFirst, rfl⟩ hmove

end Scene
end Service
end Caretaker
