import Caretaker.Proofs.Scene
import Caretaker.Proofs.Settled

/-!
# The last keep-alive passes

A keep-alive loop waits for its next tick and for news of the shutdown signal at once.  Once the
shutdown was sent there are news whenever the loop looks.  It may still begin a pass then, but only
where a tick is overdue: the tick and the news are there at once, and either may be taken.  When it
looks while no tick is due it is over.

So passes that begin after the shutdown are those of ticks that fell due while the loop was held up,
one after the other; also after all containers were asked to stop, which such a pass undoes.

Main statements:

- `Scene.Stands.step`, `Scene.IsOver.step`: what one move makes of a keep-alive loop.
- `passes_after_shutdown`: which passes begin after the shutdown was sent.
- `pass_after_stop`: one that restarts a container after all containers were asked to stop.
-/

namespace Caretaker.Service

open Container (Backend Memory)
open Script
open Caretaker.Service.Action (ofCrew)

/-! ## Where a keep-alive loop stands -/

/-- Whether a request is another one than the wait of a keep-alive loop. -/
def Request.Works : Request → Prop
  | .tickOrShutdown _ _ => False
  | _ => True

/-- Whether a request only tells the log. -/
def Request.Tells : Request → Prop
  | .crew (.log _) => True
  | _ => False

/-- A keep-alive loop when it begins. -/
def startsLoop (settings : Settings) : Action Ending := .round <$> Activity.keepAlive.round settings

/-- A keep-alive loop that waits for the tick at `tick`, having seen `seen` sends. -/
def waitsFor (settings : Settings) (tick seen : Nat) : Action Ending :=
  .round <$> (Activity.keepAliveFrom tick seen).round settings

/-- What a keep-alive loop does that comes to the tick at `tick` next: it waits for it, or works
until it will wait for it. -/
inductive Loops (settings : Settings) (tick seen : Nat) : Action Ending → Prop where
  | waits : Loops settings tick seen (waitsFor settings tick seen)
  | works {script : Action Ending} (hworks : script.Only (S := signature) Request.Works)
      (hnext : script.Yields (· = .round (some (.keepAliveFrom tick seen)))) :
      Loops settings tick seen script

/-- What a keep-alive loop does that comes to no tick any more: it tells the log and ends. -/
structure Leaves (script : Action Ending) : Prop where
  tells : script.Only (S := signature) Request.Tells
  ends : script.Yields (· = .round none)

section Scripts

variable {settings : Settings} {tick seen : Nat}

/-- What is done on the crew is no wait. -/
theorem works_ofCrew {α : Type} (t : Crew.Transaction α) :
    (ofCrew t).Only (S := signature) Request.Works := by
  induction t with
  | done value => trivial
  | ask r next ih => exact ⟨trivial, ih⟩

/-- A keep-alive loop reads the clock first, and comes to a tick one interval later. -/
theorem startsLoop_eq (settings : Settings) :
    ∃ next : Nat → Action Ending,
      startsLoop settings = Script.ask (S := signature) .now next ∧
      ∀ now, Loops settings (now + interval settings) 0 (next now) :=
  ⟨_, rfl, fun _ => .works ⟨trivial, fun _ => trivial⟩ fun _ => rfl⟩

/-- A keep-alive pass, after which a loop comes to the next tick. -/
def passAt (settings : Settings) (tick seen : Nat) : Action Next := do
  let restarts ← ofCrew (Crew.keepAlive settings.autoUpdate)
  if 0 < restarts then
    Action.log .service .info "Keep-alive restarted containers" [("restarts", .number restarts)]
  return some (.keepAliveFrom (tick + interval settings) seen)

theorem loops_passAt (settings : Settings) (tick seen : Nat) :
    Loops settings (tick + interval settings) seen (.round <$> passAt settings tick seen) := by
  refine .works (.map _ (.bind (works_ofCrew _) fun restarts => ?_)) ?_
  · split
    · exact ⟨trivial, fun _ => trivial⟩
    · trivial
  · rw [map_eq_pure_bind]
    refine .bind (yields_bind (ofCrew _) fun restarts => ?_) fun next hnext => congrArg _ hnext
    split
    · exact fun _ => rfl
    · rfl

/-- What a keep-alive loop does when its wait is over: a pass at a tick, the end at a shutdown. -/
theorem waitsFor_eq (settings : Settings) (tick seen : Nat) :
    ∃ next : Wake → Action Ending,
      waitsFor settings tick seen =
        Script.ask (S := signature) (.tickOrShutdown tick seen) next ∧
      Loops settings (tick + interval settings) seen (next .tick) ∧
      (∀ sent, Leaves (next (.shutdown (.changed sent true)))) ∧
      (∀ sent, Loops settings tick sent (next (.shutdown (.changed sent false)))) ∧
      Leaves (next (.shutdown .closed)) := by
  have hends : Leaves (.round <$> (do
      Action.log .service .info "Keep-alive loop shutting down" []
      return none : Action Next)) := ⟨⟨trivial, fun _ => trivial⟩, fun _ => rfl⟩
  exact ⟨_, rfl, loops_passAt settings tick seen, fun _ => hends,
    fun _ => .works trivial rfl, hends⟩

/-- A loop that waits for a tick comes to that tick next. -/
theorem Loops.of_waitsFor {next seen' : Nat}
    (h : Loops settings tick seen (waitsFor settings next seen')) : tick = next ∧ seen = seen' := by
  obtain ⟨_, heq, -⟩ := waitsFor_eq settings next seen'
  generalize hscript : waitsFor settings next seen' = script at h
  cases h with
  | waits =>
    obtain ⟨_, heq', -⟩ := waitsFor_eq settings tick seen
    rw [heq, heq'] at hscript
    cases hscript
    exact ⟨rfl, rfl⟩
  | works hworks =>
    rw [← hscript, heq] at hworks
    exact hworks.1.elim

end Scripts

/-! ## Loops in a scene -/

namespace Scene

variable {ρ : Type} [Backend ρ] {settings : Settings} {s : Scene ρ} {who tick seen : Nat}

/-- Whether a task is a keep-alive loop that comes to the tick at `tick` next, having seen `seen`
sends. -/
def Stands (settings : Settings) (who tick seen : Nat) (s : Scene ρ) : Prop :=
  ∃ script, s.tasks[who]? = some (some script) ∧ Loops settings tick seen script

/-- Whether a task was a keep-alive loop and comes to no tick any more. -/
def IsOver (who : Nat) (s : Scene ρ) : Prop :=
  s.tasks[who]? = some none ∨ ∃ script, s.tasks[who]? = some (some script) ∧ Leaves script

/-- Whether the shutdown was sent since the first `seen` sends. -/
structure Told (seen : Nat) (s : Scene ρ) : Prop where
  unseen : seen < s.world.shutdown.sent
  value : s.world.shutdown.value = true

theorem changed_of_news {signal : ShutdownSignal} {sent : Nat} {value : Bool}
    (h : signal.news? seen = some (.changed sent value)) :
    sent = signal.sent ∧ value = signal.value := by
  unfold ShutdownSignal.news? at h
  split at h
  · cases h
    exact ⟨rfl, rfl⟩
  · split at h <;> cases h

omit [Backend ρ] in
theorem Told.news (h : s.Told seen) :
    s.world.shutdown.news? seen = some (.changed s.world.shutdown.sent true) := by
  unfold ShutdownSignal.news?
  rw [if_pos (Nat.ne_of_lt h.unseen), h.value]

/-- A loop that is over makes no call and begins no pass. -/
theorem IsOver.goOn (h : s.IsOver who) (newsFirst : Bool) :
    (s.goOn settings who newsFirst).IsOver who ∧
      (s.goOn settings who newsFirst).passesOf who = s.passesOf who ∧
      (s.goOn settings who newsFirst).callsOf who = s.callsOf who := by
  rcases h with htask | ⟨script, htask, hleaves⟩
  · rw [goOn_ended htask]
    exact ⟨.inl htask, rfl, rfl⟩
  · cases script with
    | done ending =>
      have hending : ending = .round none := hleaves.ends
      subst hending
      have hlt : who < s.tasks.length := (List.getElem?_eq_some_iff.1 htask).1
      rw [goOn_of_end htask rfl]
      exact ⟨.inl (List.getElem?_set_self hlt), rfl, rfl⟩
    | ask r next =>
      obtain ⟨⟨htells, hnext⟩, hends⟩ := hleaves
      rcases goOn_ask htask newsFirst with ⟨-, heq⟩ | ⟨answer, -, heq⟩
      · rw [heq]
        exact ⟨.inr ⟨_, htask, ⟨htells, hnext⟩, hends⟩, rfl, rfl⟩
      · obtain ⟨htask', hpasses, hcalls⟩ := answered_self (r := r) htask
        -- What is told to the log is neither a pass nor a call.
        have hnone : r.calls who = [] ∧
            beginning who (s.world.choose newsFirst who r).2.clock r answer = [] := by
          cases r with
          | crew request =>
            cases request with
            | log => exact ⟨rfl, rfl⟩
            | _ => exact htells.elim
          | _ => exact htells.elim
        rw [heq, hpasses, hcalls, hnone.1, hnone.2, List.append_nil, List.append_nil]
        exact ⟨.inr ⟨_, htask', hnext answer, hends answer⟩, rfl, rfl⟩

theorem IsOver.step (h : s.IsOver who) (settings : Settings) (move : Move ρ) :
    (s.step settings move).IsOver who ∧
      (s.step settings move).passesOf who = s.passesOf who ∧
      (s.step settings move).callsOf who = s.callsOf who := by
  by_cases hmove : ∃ newsFirst, move = .goesOn who newsFirst
  · obtain ⟨newsFirst, rfl⟩ := hmove
    exact h.goOn newsFirst
  · have hother : ∀ newsFirst, move ≠ .goesOn who newsFirst :=
      fun newsFirst heq => hmove ⟨newsFirst, heq⟩
    rcases h with htask | ⟨script, htask, hleaves⟩
    · obtain ⟨htask', hsame⟩ := step_of_ne settings hother htask
      exact ⟨.inl htask', hsame⟩
    · obtain ⟨htask', hsame⟩ := step_of_ne settings hother htask
      exact ⟨.inr ⟨script, htask', hleaves⟩, hsame⟩

theorem IsOver.run (h : s.IsOver who) (settings : Settings) (moves : List (Move ρ)) :
    (s.run settings moves).passesOf who = s.passesOf who ∧
      (s.run settings moves).callsOf who = s.callsOf who := by
  induction moves generalizing s with
  | nil => exact ⟨rfl, rfl⟩
  | cons move moves ih =>
    obtain ⟨hover, hpasses, hcalls⟩ := h.step settings move
    obtain ⟨hpasses', hcalls'⟩ := ih hover
    exact ⟨hpasses'.trans hpasses, hcalls'.trans hcalls⟩

/-- What can become of a loop in one move: it begins the pass that was due, or comes to its tick as
before, or is over.  It stays with what it has seen if the shutdown was sent since. -/
def Goes (settings : Settings) (who tick seen : Nat) (s s' : Scene ρ) : Prop :=
  (∃ p : Pass, p.tick = tick ∧ p.tick ≤ p.began ∧ p.began = s.world.clock ∧
    s'.passesOf who = s.passesOf who ++ [p] ∧
    s'.Stands settings who (tick + interval settings) seen) ∨
  s'.passesOf who = s.passesOf who ∧
    (s'.IsOver who ∨ ∃ seen', seen' ≤ max seen s.world.shutdown.sent ∧
      (s.Told seen → seen' = seen) ∧ s'.Stands settings who tick seen')

/-- A loop that looks for its tick and for news. -/
theorem goes_of_waitsFor
    (htask : s.tasks[who]? = some (some (waitsFor settings tick seen))) (newsFirst : Bool) :
    Goes settings who tick seen s (s.goOn settings who newsFirst) := by
  obtain ⟨next, hscript, htick, htrue, hfalse, hclosed⟩ := waitsFor_eq settings tick seen
  rw [hscript] at htask
  rcases goOn_ask htask newsFirst with ⟨-, heq⟩ | ⟨wake, hwake, heq⟩
  · -- Neither the tick nor news are there.
    rw [heq, Goes]
    refine .inr ⟨rfl, .inr ⟨seen, Nat.le_max_left _ _, fun _ => rfl, _, htask, ?_⟩⟩
    rw [← hscript]
    exact .waits
  · obtain ⟨htask', hpasses, -⟩ := answered_self (r := .tickOrShutdown tick seen) htask
    rw [heq, Goes, hpasses]
    rcases World.choose_tickOrShutdown newsFirst who tick seen s.world with
      ⟨hdue, hchoose⟩ | hchoose
    · rw [hchoose] at hwake htask' ⊢
      cases hwake
      exact .inl ⟨⟨who, tick, s.world.clock⟩, rfl, hdue, rfl, rfl, _, htask', htick⟩
    · rw [hchoose] at hwake htask' ⊢
      obtain ⟨news, hnews, rfl⟩ := Option.map_eq_some_iff.1 hwake
      refine .inr ⟨List.append_nil _, ?_⟩
      cases news with
      | closed => exact .inl (.inr ⟨_, htask', hclosed⟩)
      | changed sent value =>
        cases value with
        | true => exact .inl (.inr ⟨_, htask', htrue sent⟩)
        | false =>
          -- News of another value than that of a shutdown.
          obtain ⟨rfl, hvalue⟩ := changed_of_news hnews
          refine .inr ⟨_, Nat.le_max_right _ _, fun htold => ?_, _, htask', hfalse _⟩
          rw [htold.value] at hvalue
          cases hvalue

/-- A loop that works goes on with its work, and waits for its tick in the end. -/
theorem goes_of_works {script : Action Ending}
    (htask : s.tasks[who]? = some (some script))
    (hworks : script.Only (S := signature) Request.Works)
    (hnext : script.Yields (· = .round (some (.keepAliveFrom tick seen)))) (newsFirst : Bool) :
    Goes settings who tick seen s (s.goOn settings who newsFirst) := by
  suffices hstands : (s.goOn settings who newsFirst).passesOf who = s.passesOf who ∧
      (s.goOn settings who newsFirst).Stands settings who tick seen from
    .inr ⟨hstands.1, .inr ⟨seen, Nat.le_max_left _ _, fun _ => rfl, hstands.2⟩⟩
  cases script with
  | done ending =>
    have hending : ending = .round (some (.keepAliveFrom tick seen)) := hnext
    subst hending
    have hlt : who < s.tasks.length := (List.getElem?_eq_some_iff.1 htask).1
    rw [goOn_of_resume htask rfl]
    exact ⟨rfl, _, List.getElem?_set_self hlt, .waits⟩
  | ask r next =>
    obtain ⟨hr, hrest⟩ := hworks
    rcases goOn_ask htask newsFirst with ⟨-, heq⟩ | ⟨answer, -, heq⟩
    · rw [heq]
      exact ⟨rfl, _, htask, .works ⟨hr, hrest⟩ hnext⟩
    · obtain ⟨htask', hpasses, -⟩ := answered_self (r := r) htask
      have hnone : beginning who (s.world.choose newsFirst who r).2.clock r answer = [] := by
        cases r with
        | tickOrShutdown => exact hr.elim
        | _ => rfl
      rw [heq, hpasses, hnone, List.append_nil]
      exact ⟨rfl, _, htask', .works (hrest answer) (hnext answer)⟩

theorem Stands.step (h : s.Stands settings who tick seen) (move : Move ρ) :
    Goes settings who tick seen s (s.step settings move) := by
  obtain ⟨script, htask, hloops⟩ := h
  by_cases hmove : ∃ newsFirst, move = .goesOn who newsFirst
  · obtain ⟨newsFirst, rfl⟩ := hmove
    cases hloops with
    | waits => exact goes_of_waitsFor htask newsFirst
    | works hworks hnext => exact goes_of_works htask hworks hnext newsFirst
  · obtain ⟨htask', hpasses, -⟩ := step_of_ne settings
      (fun newsFirst heq => hmove ⟨newsFirst, heq⟩) htask
    exact .inr ⟨hpasses, .inr ⟨seen, Nat.le_max_left _ _, fun _ => rfl, script, htask', hloops⟩⟩

/-- A loop that begins comes to its first tick one interval after it read the clock. -/
theorem starts_step (htask : s.tasks[who]? = some (some (startsLoop settings))) (move : Move ρ) :
    (s.step settings move).passesOf who = s.passesOf who ∧
      ((s.step settings move).tasks[who]? = some (some (startsLoop settings)) ∨
        (s.step settings move).Stands settings who (s.world.clock + interval settings) 0) := by
  by_cases hmove : ∃ newsFirst, move = .goesOn who newsFirst
  · obtain ⟨newsFirst, rfl⟩ := hmove
    obtain ⟨next, hscript, hnext⟩ := startsLoop_eq settings
    rw [hscript] at htask
    rcases goOn_ask htask newsFirst with ⟨hnone, -⟩ | ⟨now, hnow, heq⟩
    · cases hnone
    · cases hnow
      obtain ⟨htask', hpasses, -⟩ := answered_self (r := .now) htask
      show (s.goOn settings who newsFirst).passesOf who = _ ∧
        (_ ∨ (s.goOn settings who newsFirst).Stands _ _ _ _)
      rw [heq, hpasses]
      exact ⟨List.append_nil _, .inr ⟨_, htask', hnext _⟩⟩
  · obtain ⟨htask', hpasses, -⟩ := step_of_ne settings
      (fun newsFirst heq => hmove ⟨newsFirst, heq⟩) htask
    exact ⟨hpasses, .inl htask'⟩

/-! ## Runs -/

/-- Where a task that began as a keep-alive loop is, where it has seen `bound` sends at most. -/
def Placed (settings : Settings) (who bound : Nat) (s : Scene ρ) : Prop :=
  s.tasks[who]? = some (some (startsLoop settings)) ∨
    (∃ tick seen, seen ≤ bound ∧ s.Stands settings who tick seen) ∨ s.IsOver who

omit [Backend ρ] in
theorem Told.mono {seen' : Nat} (h : s.Told seen) (hle : seen' ≤ seen) : s.Told seen' :=
  ⟨Nat.lt_of_le_of_lt hle h.unseen, h.value⟩

theorem Told.step (h : s.Told seen) {move : Move ρ} (hmove : move ≠ .sends false) :
    (s.step settings move).Told seen :=
  ⟨Nat.lt_of_lt_of_le h.unseen (sent_step settings s move), value_step hmove h.value⟩

omit [Backend ρ] in
theorem Placed.mono {bound bound' : Nat} (h : s.Placed settings who bound)
    (hle : bound ≤ bound') : s.Placed settings who bound' := by
  rcases h with hstarts | ⟨tick, seen, hseen, hstands⟩ | hover
  · exact .inl hstarts
  · exact .inr (.inl ⟨tick, seen, Nat.le_trans hseen hle, hstands⟩)
  · exact .inr (.inr hover)

/-- A loop has seen no send that was not, and once the shutdown was sent it sees nothing else. -/
theorem Placed.step {bound : Nat} (h : s.Placed settings who bound) (move : Move ρ) :
    (s.step settings move).Placed settings who (max bound s.world.shutdown.sent) ∧
      (s.Told bound → (s.step settings move).Placed settings who bound) := by
  rcases h with hstarts | ⟨tick, seen, hseen, hstands⟩ | hover
  · rcases (starts_step hstarts move).2 with hstarts' | hstands
    · exact ⟨.inl hstarts', fun _ => .inl hstarts'⟩
    · exact ⟨.inr (.inl ⟨_, 0, Nat.zero_le _, hstands⟩),
        fun _ => .inr (.inl ⟨_, 0, Nat.zero_le _, hstands⟩)⟩
  · rcases hstands.step move with ⟨-, -, -, -, -, hnext⟩ | ⟨-, hover | ⟨seen', hle, hkeeps, hnext⟩⟩
    · exact ⟨.inr (.inl ⟨_, seen, Nat.le_trans hseen (Nat.le_max_left _ _), hnext⟩),
        fun _ => .inr (.inl ⟨_, seen, hseen, hnext⟩)⟩
    · exact ⟨.inr (.inr hover), fun _ => .inr (.inr hover)⟩
    · refine ⟨.inr (.inl ⟨_, seen', by omega, hnext⟩), fun htold => ?_⟩
      refine .inr (.inl ⟨_, seen', ?_, hnext⟩)
      rw [hkeeps (htold.mono hseen)]
      exact hseen
  · have hover' := (hover.step settings move).1
    exact ⟨.inr (.inr hover'), fun _ => .inr (.inr hover')⟩

theorem Placed.run (h : s.Placed settings who s.world.shutdown.sent) (moves : List (Move ρ)) :
    (s.run settings moves).Placed settings who (s.run settings moves).world.shutdown.sent := by
  induction moves generalizing s with
  | nil => exact h
  | cons move moves ih =>
    refine ih ((h.step move).1.mono ?_)
    exact Nat.max_le.2 ⟨sent_step settings s move, sent_step settings s move⟩

theorem Placed.run_told {bound : Nat} (h : s.Placed settings who bound) (htold : s.Told bound)
    {moves : List (Move ρ)} (hkept : .sends false ∉ moves) :
    (s.run settings moves).Placed settings who bound ∧ (s.run settings moves).Told bound := by
  induction moves generalizing s with
  | nil => exact ⟨h, htold⟩
  | cons move moves ih =>
    obtain ⟨hmove, hmoves⟩ := not_or.1 fun hmem => hkept (List.mem_cons.2 hmem)
    exact ih ((h.step move).2 htold) (htold.step (Ne.symm hmove)) hmoves

/-- Passes of ticks that fell due, one after the other from the tick at `tick` on, and were begun up
to the time `clock`. -/
def Overdue (settings : Settings) (tick clock : Nat) (new : List Pass) : Prop :=
  ∀ k p, new[k]? = some p →
    p.tick = tick + k * interval settings ∧ p.tick ≤ p.began ∧ p.began ≤ clock

theorem overdue_nil (settings : Settings) (tick clock : Nat) : Overdue settings tick clock [] := by
  intro k p hp
  cases hp

theorem Overdue.cons {clock : Nat} {p : Pass} {new : List Pass}
    (h : Overdue settings (tick + interval settings) clock new) (htick : p.tick = tick)
    (hdue : p.tick ≤ p.began) (hbegan : p.began ≤ clock) :
    Overdue settings tick clock (p :: new) := by
  intro k q hq
  cases k with
  | zero =>
    cases hq
    rw [Nat.zero_mul, Nat.add_zero]
    exact ⟨htick, hdue, hbegan⟩
  | succ k =>
    obtain ⟨hnext, hlater⟩ := h k q hq
    refine ⟨?_, hlater⟩
    rw [hnext, Nat.add_mul, Nat.one_mul, Nat.add_assoc, Nat.add_comm (interval settings)]

/-- Once the shutdown was sent a loop begins passes of overdue ticks only. -/
theorem Stands.run (h : s.Stands settings who tick seen) (htold : s.Told seen)
    {moves : List (Move ρ)} (hkept : .sends false ∉ moves) :
    ∃ new, (s.run settings moves).passesOf who = s.passesOf who ++ new ∧
      Overdue settings tick (s.run settings moves).world.clock new := by
  -- By induction on the moves, from each tick to the next.
  induction moves generalizing s tick with
  | nil => exact ⟨[], (List.append_nil _).symm, overdue_nil _ _ _⟩
  | cons move moves ih =>
    obtain ⟨hmove, hmoves⟩ := not_or.1 fun hmem => hkept (List.mem_cons.2 hmem)
    have htold' : (s.step settings move).Told seen := htold.step (Ne.symm hmove)
    show ∃ new, ((s.step settings move).run settings moves).passesOf who = _ ∧
      Overdue _ _ ((s.step settings move).run settings moves).world.clock _
    rcases h.step move with
      ⟨p, htick, hdue, hbegan, hpasses, hnext⟩ | ⟨hpasses, hover | ⟨seen', -, hkeeps, hnext⟩⟩
    · -- A pass begins, and the loop comes to the tick after this one.
      obtain ⟨new, hnew, hoverdue⟩ := ih hnext htold' hmoves
      refine ⟨p :: new, ?_, hoverdue.cons htick hdue ?_⟩
      · rw [hnew, hpasses, List.append_assoc]
        rfl
      · rw [hbegan]
        exact Nat.le_trans (clock_step settings s move) (clock_run settings _ moves)
    · obtain ⟨hsame, -⟩ := hover.run settings moves
      exact ⟨[], by rw [hsame, hpasses, List.append_nil], overdue_nil _ _ _⟩
    · -- The loop comes to this tick still.
      rw [hkeeps htold] at hnext
      rw [← hpasses]
      exact ih hnext htold' hmoves

/-- So does one that begins only now. -/
theorem starts_run (htask : s.tasks[who]? = some (some (startsLoop settings))) (htold : s.Told 0)
    {moves : List (Move ρ)} (hkept : .sends false ∉ moves) :
    ∃ tick new, (s.run settings moves).passesOf who = s.passesOf who ++ new ∧
      Overdue settings tick (s.run settings moves).world.clock new := by
  induction moves generalizing s with
  | nil => exact ⟨0, [], (List.append_nil _).symm, overdue_nil _ _ _⟩
  | cons move moves ih =>
    obtain ⟨hmove, hmoves⟩ := not_or.1 fun hmem => hkept (List.mem_cons.2 hmem)
    have htold' : (s.step settings move).Told 0 := htold.step (Ne.symm hmove)
    obtain ⟨hpasses, hstarts | hstands⟩ := starts_step htask move
    · rw [← hpasses]
      exact ih hstarts htold' hmoves
    · rw [← hpasses]
      exact ⟨_, hstands.run htold' hmoves⟩

/-- A loop that looks while no tick is due, after the shutdown was sent, is over. -/
theorem isOver_of_look (htask : s.tasks[who]? = some (some (waitsFor settings tick seen)))
    (htold : s.Told seen) (hearly : s.world.clock < tick) (newsFirst : Bool) :
    (s.goOn settings who newsFirst).IsOver who ∧
      (s.goOn settings who newsFirst).passesOf who = s.passesOf who ∧
      (s.goOn settings who newsFirst).callsOf who = s.callsOf who := by
  obtain ⟨next, hscript, -, htrue, -⟩ := waitsFor_eq settings tick seen
  rw [hscript] at htask
  have hchoose : s.world.choose newsFirst who (.tickOrShutdown tick seen) =
      (some (.shutdown (.changed s.world.shutdown.sent true)), s.world) := by
    rw [World.choose_of_lt newsFirst who seen hearly, htold.news]
    rfl
  obtain ⟨htask', hpasses, hcalls⟩ := answered_self (r := .tickOrShutdown tick seen) htask
  rw [goOn_of_answer htask hchoose, hpasses, hcalls]
  exact ⟨.inr ⟨_, htask', htrue _⟩, List.append_nil _, List.append_nil _⟩

omit [Backend ρ] in
/-- Where a loop stands that waits for a tick. -/
theorem Placed.of_waits {bound : Nat} (h : s.Placed settings who bound)
    (htask : s.tasks[who]? = some (some (waitsFor settings tick seen))) :
    seen ≤ bound ∧ s.Stands settings who tick seen := by
  obtain ⟨_, hscript, -⟩ := waitsFor_eq settings tick seen
  rcases h with hstarts | ⟨tick', seen', hle, script, hstands, hloops⟩ |
    hnone | ⟨script, hover, hleaves⟩
  · obtain ⟨_, hstart, -⟩ := startsLoop_eq settings
    rw [htask, hscript, hstart] at hstarts
    cases hstarts
  · rw [htask] at hstands
    cases hstands
    obtain ⟨rfl, rfl⟩ := hloops.of_waitsFor
    exact ⟨hle, _, htask, hloops⟩
  · rw [htask] at hnone
    cases hnone
  · rw [htask] at hover
    cases hover
    rw [hscript] at hleaves
    exact hleaves.tells.1.elim

/-! ### After the shutdown -/

/-- Where a loop is when the shutdown was sent. -/
theorem placed_of_sends (hplaced : s.Placed settings who s.world.shutdown.sent)
    (hopen : s.world.shutdown.isOpen = true) :
    (s.step settings (.sends true)).Placed settings who s.world.shutdown.sent ∧
      (s.step settings (.sends true)).Told s.world.shutdown.sent := by
  have hsent : (s.step settings (.sends true)).world.shutdown = s.world.shutdown.send true := by
    simp only [Scene.step, hopen, if_pos]
  refine ⟨(hplaced.step (.sends true)).1.mono ?_, ?_, ?_⟩
  · exact Nat.max_le.2 ⟨Nat.le_refl _, Nat.le_refl _⟩
  · rw [hsent]
    exact Nat.lt_succ_self _
  · rw [hsent]
    rfl

/-- The passes that a loop begins after the shutdown was sent. -/
theorem Placed.passes {bound : Nat} (h : s.Placed settings who bound) (htold : s.Told bound)
    {moves : List (Move ρ)} (hkept : .sends false ∉ moves) :
    ∃ tick new, (s.run settings moves).passesOf who = s.passesOf who ++ new ∧
      Overdue settings tick (s.run settings moves).world.clock new ∧
      ∀ next seen, s.tasks[who]? = some (some (waitsFor settings next seen)) → tick = next := by
  -- The first tick is known of a loop that waits for it.
  by_cases hwaits : ∃ next seen, s.tasks[who]? = some (some (waitsFor settings next seen))
  · obtain ⟨next, seen, hwaits⟩ := hwaits
    obtain ⟨hle, hstands⟩ := h.of_waits hwaits
    obtain ⟨new, hnew, hoverdue⟩ := hstands.run (htold.mono hle) hkept
    refine ⟨next, new, hnew, hoverdue, fun next' seen' hwaits' => ?_⟩
    have hscript : waitsFor settings next seen = waitsFor settings next' seen' :=
      Option.some.inj (Option.some.inj (hwaits.symm.trans hwaits'))
    have hloops : Loops settings next seen (waitsFor settings next' seen') := hscript ▸ .waits
    exact hloops.of_waitsFor.1
  · suffices hruns : ∃ tick new, (s.run settings moves).passesOf who = s.passesOf who ++ new ∧
        Overdue settings tick (s.run settings moves).world.clock new by
      obtain ⟨tick, new, hnew, hoverdue⟩ := hruns
      exact ⟨tick, new, hnew, hoverdue,
        fun next seen hwaits' => absurd ⟨next, seen, hwaits'⟩ hwaits⟩
    rcases h with hstarts | ⟨tick, seen, hle, hstands⟩ | hover
    · exact starts_run hstarts (htold.mono (Nat.zero_le _)) hkept
    · exact ⟨tick, hstands.run (htold.mono hle) hkept⟩
    · obtain ⟨hsame, -⟩ := hover.run settings moves
      exact ⟨0, [], by rw [hsame, List.append_nil], overdue_nil _ _ _⟩

/-- Nothing more comes of a loop that looked while no tick was due, after the shutdown was sent. -/
theorem Placed.look {bound : Nat} (h : s.Placed settings who bound) (htold : s.Told bound)
    (hwaits : s.tasks[who]? = some (some (waitsFor settings tick seen)))
    (hearly : s.world.clock < tick) (newsFirst : Bool) (rest : List (Move ρ)) :
    (s.run settings (.goesOn who newsFirst :: rest)).passesOf who = s.passesOf who ∧
      (s.run settings (.goesOn who newsFirst :: rest)).callsOf who = s.callsOf who := by
  obtain ⟨hle, -⟩ := h.of_waits hwaits
  obtain ⟨hover, hpasses, hcalls⟩ := isOver_of_look hwaits (htold.mono hle) hearly newsFirst
  obtain ⟨hpasses', hcalls'⟩ := hover.run settings rest
  exact ⟨hpasses'.trans hpasses, hcalls'.trans hcalls⟩

end Scene

section Shutdown

variable {ρ : Type} [Backend ρ] {settings : Settings} {s : Scene ρ} {who : Nat}

/-- The passes of a keep-alive loop after the shutdown was sent.  Whatever happened `before`, and
whatever goes on `after` it while the shutdown is not called off:

- the passes that still begin are those of overdue ticks, one after the other, from the tick on for
  which the loop waits at the shutdown, if it waits;
- when the loop looks for its tick and for news while no tick is due, it is over: from then on it
  begins no pass and makes no call. -/
theorem passes_after_shutdown {before after : List (Move ρ)}
    (hloop : s.tasks[who]? = some (some (startsLoop settings)))
    (hopen : (s.run settings before).world.shutdown.isOpen = true)
    (hkept : .sends false ∉ after) :
    let told := (s.run settings before).step settings (.sends true)
    let s' := told.run settings after
    (∃ tick new, s'.passesOf who = told.passesOf who ++ new ∧
      Scene.Overdue settings tick s'.world.clock new ∧
      ∀ next seen, told.tasks[who]? = some (some (waitsFor settings next seen)) →
        tick = next) ∧
    ∀ mid rest newsFirst tick seen, after = mid ++ .goesOn who newsFirst :: rest →
      (told.run settings mid).tasks[who]? = some (some (waitsFor settings tick seen)) →
      (told.run settings mid).world.clock < tick →
      s'.passesOf who = (told.run settings mid).passesOf who ∧
        s'.callsOf who = (told.run settings mid).callsOf who := by
  intro told s'
  have hbefore : (s.run settings before).Placed settings who
      (s.run settings before).world.shutdown.sent := Scene.Placed.run (.inl hloop) before
  obtain ⟨hplaced, htold⟩ := Scene.placed_of_sends hbefore hopen
  refine ⟨hplaced.passes htold hkept, ?_⟩
  rintro mid rest newsFirst tick seen rfl hwaits hearly
  have hmid : .sends false ∉ mid := fun hmem => hkept (List.mem_append_left _ hmem)
  obtain ⟨hplaced', htold'⟩ := hplaced.run_told htold hmid
  have hrun : s' = (told.run settings mid).run settings (.goesOn who newsFirst :: rest) :=
    Scene.run_append settings mid (.goesOn who newsFirst :: rest) told
  rw [hrun]
  exact hplaced'.look htold' hwaits hearly newsFirst rest

/-! ### A service at its end -/

namespace Sample

/-- A supervisor that was launched, and a keep-alive loop that begins. -/
def beginning : Scene Memory where
  world := {
    crew := Crew.Sample.launched.world
    images := .plain (Crew.Sample.refs "sup:v0")
    probe := .failingAt [] none }
  tasks := [some (startsLoop Crew.developmentSettings)]

/-- The loop goes on by some requests, of which no one takes news before a tick. -/
def goesOn (requests : Nat) : List (Move Memory) := List.replicate requests (.goesOn 0 false)

/-- All containers are asked to stop, by another task. -/
def stops : List (Move Memory) :=
  .begins ((fun () => .result .finished) <$> stop) :: List.replicate 10 (.goesOn 1 false)

/-- The loop came to wait for its first tick, which fell due before the loop was on again; then the
shutdown was sent, and all containers were asked to stop. -/
def stopped : Scene Memory :=
  beginning.run Crew.developmentSettings (goesOn 3 ++ [.elapses 10000, .sends true] ++ stops)

/-- The loop goes on after that. -/
def revived : Scene Memory := stopped.run Crew.developmentSettings (goesOn 10)

/-- The states of all containers. -/
def states (s : Scene Memory) : List ContainerState :=
  s.world.crew.backend.containers.entries.map (·.2.info.state)

end Sample

/-- A loop that looks before its tick is due begins no pass any more, however much time passes. -/
theorem passes_after_shutdown_early :
    let told := (Sample.beginning.run Crew.developmentSettings (Sample.goesOn 3)).step
      Crew.developmentSettings (.sends true)
    let later := told.run Crew.developmentSettings [.goesOn 0 false, .elapses 20000]
    told.tasks[0]? = some (some (waitsFor Crew.developmentSettings 10000 0)) ∧
      later.passesOf 0 = told.passesOf 0 ∧ later.callsOf 0 = told.callsOf 0 := by
  intro told later
  have hloop : Sample.beginning.tasks[0]? =
      some (some (startsLoop Crew.developmentSettings)) := rfl
  have hopen : (Sample.beginning.run Crew.developmentSettings
      (Sample.goesOn 3)).world.shutdown.isOpen = true := rfl
  have hkept : (.sends false : Move Memory) ∉ [.goesOn 0 false, .elapses 20000] := by
    simp
  have hwaits : told.tasks[0]? = some (some (waitsFor Crew.developmentSettings 10000 0)) := rfl
  obtain ⟨-, hlook⟩ := passes_after_shutdown hloop hopen hkept
  exact ⟨hwaits, hlook [] [.elapses 20000] false 10000 0 rfl hwaits (by decide)⟩

/-- A loop whose tick is overdue may begin a pass after the shutdown was sent and all containers
were asked to stop, and that pass restarts what was stopped. -/
theorem pass_after_stop :
    (Sample.stopped.world.shutdown.value = true ∧
      Sample.stopped.ended = [(1, .result .finished)] ∧
      Sample.states Sample.stopped = [.exited] ∧ Sample.stopped.passes = []) ∧
    Sample.revived.passes = [⟨0, 10000, 10000⟩] ∧
      Sample.revived.callsOf 0 =
        [(0, .inspect "ctr_000000000000"), (0, .restart "ctr_000000000000")] ∧
      Sample.states Sample.revived = [.running] :=
  ⟨⟨rfl, rfl, rfl, rfl⟩, rfl, rfl, rfl⟩

end Shutdown

end Caretaker.Service
