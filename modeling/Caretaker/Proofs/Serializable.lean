import Caretaker.Proofs.Line

/-!
# Operations are serializable

However operations mix, each ends as it would if they ran one after the other, in the order in which
they asked for the lock.  When all came to their ends, the crew is as it would be then.  And no call
of anybody else comes between the calls of a writer.

Nobody waits for ever: when calls are no longer held back and everybody has its turn again and
again, all operations come to their ends.  Somebody holds the lock as long as anybody waits for it,
and a holder is nearer to its end with every turn of its own.

Main statements:

- `Turns.ends`: everybody comes to its end by fair turns.
- `results_serial`: the results, the final state and the calls of every chronicle.
-/

namespace Caretaker.Crew

open Container (Memory)
open Script Holder

/-! ## Turns -/

namespace Chronicle

/-- A chronicle after the first `n` turns of operations that go on. -/
def along (settings : Settings) (turns : Nat → Nat) (s : Chronicle) : Nat → Chronicle
  | 0 => s
  | n + 1 => (s.along settings turns n).step settings (.goesOn (turns n))

/-- Whether everybody under way has its turn again and again. -/
def Fair (turns : Nat → Nat) (s : Chronicle) : Prop :=
  ∀ who, s.underway who ≠ none → ∀ n, ∃ m, n ≤ m ∧ turns m = who

section Turns

variable {settings : Settings} {s : Chronicle} {who other : Nat}

/-- What a turn does, by what became of its request. -/
theorem goesOn_cases (settings : Settings) (s : Chronicle) (who : Nat) :
    s.step settings (.goesOn who) = s ∨
      ∃ r : Request, (s.step settings (.goesOn who)).world = (s.world.attempt who r).2 ∧
        ∀ other, other ≠ who →
          (s.step settings (.goesOn who)).underway other = s.underway other := by
  rcases hwho : s.underway who with _ | ⟨op, result | ⟨r, next⟩⟩
  · exact .inl (by simp only [step, hwho])
  · exact .inl (by simp only [step, hwho])
  · have hstep : s.step settings (.goesOn who) = (s.noteAsked who op r).attempt who op r next := by
      simp only [step, hwho]
    have hworld : (s.noteAsked who op r).world = s.world := by
      unfold noteAsked
      split <;> rfl
    have hunderway : (s.noteAsked who op r).underway = s.underway := by
      unfold noteAsked
      split <;> rfl
    refine .inr ⟨r, ?_⟩
    rw [hstep, ← hworld, ← hunderway]
    generalize s.noteAsked who op r = noted
    unfold attempt
    rcases noted.world.attempt who r with ⟨_ | answer, w⟩
    · exact ⟨rfl, fun _ _ => rfl⟩
    · exact ⟨Session.world_goOn _, fun other hne => Session.underway_goOn_of_ne hne _⟩

theorem underway_goesOn_of_ne (hne : other ≠ who) :
    (s.step settings (.goesOn who)).underway other = s.underway other := by
  rcases goesOn_cases settings s who with heq | ⟨-, -, hothers⟩
  · rw [heq]
  · exact hothers other hne

/-- Who is not under way does not come to be by a turn. -/
theorem underway_goesOn_of_none (hnone : s.underway other = none) :
    (s.step settings (.goesOn who)).underway other = none := by
  by_cases hne : other = who
  · subst hne
    simp only [step, hnone]
  · rw [underway_goesOn_of_ne hne]
    exact hnone

theorem gated_goesOn : (s.step settings (.goesOn who)).world.gated = s.world.gated := by
  rcases goesOn_cases settings s who with heq | ⟨r, hworld, -⟩
  · rw [heq]
  · rw [hworld]
    cases r with
    | call c =>
      simp only [World.attempt]
      split <;> rfl
    | _ => rfl

/-- Nobody loses the lock by a turn of somebody else. -/
theorem holds_goesOn_of_ne {e : Nat × Access} (hholds : e ∈ s.world.lock.holders)
    (hne : e.1 ≠ who) : e ∈ (s.step settings (.goesOn who)).world.lock.holders := by
  rcases goesOn_cases settings s who with heq | ⟨r, hworld, -⟩
  · rwa [heq]
  · rw [hworld]
    cases r with
    | lock => exact FairLock.holders_subset_acquire hholds
    | tryLock => exact FairLock.holders_subset_tryShared hholds
    | unlock => exact FairLock.holders_release_of_ne hholds hne
    | call c =>
      simp only [World.attempt]
      split <;> exact hholds
    | _ => exact hholds

end Turns

end Chronicle

/-! ## Everybody comes to an end -/

/-- Fair turns from a chronicle in which no call is held back. -/
structure Turns (settings : Settings) (w₀ : World Memory) (turns : Nat → Nat) (s : Chronicle) :
    Prop where
  gated : s.world.gated = []
  fair : s.Fair turns
  line : ∃ granted waiting holders, Line settings w₀ s granted waiting holders

section Turns

variable {settings : Settings} {w₀ : World Memory} {turns : Nat → Nat} {s : Chronicle}
  {granted waiting : List (Nat × Operation)} {holders : List Holder} {who n : Nat} {op : Operation}

theorem Turns.along_gated (h : Turns settings w₀ turns s) (n : Nat) :
    (s.along settings turns n).world.gated = [] := by
  induction n with
  | zero => exact h.gated
  | succ n ih => exact Chronicle.gated_goesOn.trans ih

theorem Turns.along_line (h : Turns settings w₀ turns s) (n : Nat) :
    ∃ granted waiting holders,
      Line settings w₀ (s.along settings turns n) granted waiting holders := by
  induction n with
  | zero => exact h.line
  | succ n ih =>
    obtain ⟨granted, waiting, holders, hline⟩ := ih
    exact hline.step _

/-- Who came to its end stays there. -/
theorem along_of_none {m : Nat} (hnone : (s.along settings turns n).underway who = none)
    (hle : n ≤ m) : (s.along settings turns m).underway who = none := by
  induction hle with
  | refl => exact hnone
  | step _ ih => exact Chronicle.underway_goesOn_of_none ih

/-- Until its next turn nothing changes for an operation, except that it may be handed the lock. -/
theorem Turns.next (h : Turns settings w₀ turns s)
    (hwho : (s.along settings turns n).underway who ≠ none) :
    ∃ m, n ≤ m ∧ turns m = who ∧
      (s.along settings turns m).underway who = (s.along settings turns n).underway who ∧
      ∀ access, (who, access) ∈ (s.along settings turns n).world.lock.holders →
        (who, access) ∈ (s.along settings turns m).world.lock.holders := by
  have hunderway : s.underway who ≠ none := fun hnone =>
    hwho (along_of_none (n := 0) hnone (Nat.zero_le n))
  obtain ⟨m, hle, hturn⟩ := h.fair who hunderway n
  obtain ⟨d, rfl⟩ := Nat.exists_eq_add_of_le hle
  clear hle
  -- By induction on the number of turns until the one that is known.
  induction d generalizing n with
  | zero => exact ⟨n, Nat.le_refl n, hturn, rfl, fun _ => id⟩
  | succ d ih =>
    by_cases hnow : turns n = who
    · exact ⟨n, Nat.le_refl n, hnow, rfl, fun _ => id⟩
    · have hstill : (s.along settings turns (n + 1)).underway who =
          (s.along settings turns n).underway who :=
        Chronicle.underway_goesOn_of_ne fun heq => hnow heq.symm
      rw [← hstill] at hwho
      obtain ⟨m, hle, hturn, hsame, hholds⟩ := ih hwho (by rwa [Nat.add_right_comm])
      refine ⟨m, Nat.le_of_succ_le hle, hturn, hsame.trans hstill, fun access hmem => ?_⟩
      exact hholds access (Chronicle.holds_goesOn_of_ne hmem fun heq => hnow heq.symm)

/-- Who holds the lock was let in just now, or is at its work. -/
theorem Line.cases_of_holds (h : Line settings w₀ s granted waiting holders) {access : Access}
    (hmem : (who, access) ∈ s.world.lock.holders) :
    ∃ op, (enters settings (who, op) ∈ holders ∧
        s.underway who = some ⟨op, op.transaction settings⟩) ∨
      ∃ body, ⟨who, op, body⟩ ∈ holders ∧ s.underway who = some ⟨op, thenUnlock body⟩ := by
  obtain ⟨holder, hholder, hsame⟩ : ∃ holder ∈ holders, holder.who = who := by
    rw [h.lock] at hmem
    obtain ⟨holder, hholder, heq⟩ := List.mem_map.1 hmem
    exact ⟨holder, hholder, congrArg Prod.fst heq⟩
  have hgranted : who ∈ granted.map (·.1) := hsame ▸ List.mem_map_of_mem (h.held holder hholder)
  have hstage := h.stage who
  generalize s.underway who = pending at hstage ⊢
  cases hstage with
  | absent hnew =>
    rw [List.map_append] at hnew
    exact absurd (List.mem_append_left _ hgranted) hnew
  | begun op hop hnew =>
    rw [List.map_append] at hnew
    exact absurd (List.mem_append_left _ hgranted) hnew
  | queued op hwaits => exact absurd hgranted (h.notMem_granted hwaits)
  | admitted op henters => exact ⟨op, .inl ⟨henters, rfl⟩⟩
  | inside op body hinside => exact ⟨op, .inr ⟨body, hinside, rfl⟩⟩
  | gone op result hmem hout => exact absurd hsame (hout holder hholder)

/-- A turn of a holder that has work left. -/
theorem Line.turn_ask (h : Line settings w₀ s granted waiting holders)
    (hgated : s.world.gated = []) {r : Request} {next : r.Answer → Transaction Result}
    (hmem : ⟨who, op, Script.ask (S := signature) r next⟩ ∈ holders)
    (hwho : s.underway who = some ⟨op, thenUnlock (Script.ask (S := signature) r next)⟩) :
    (s.step settings (.goesOn who)).underway who =
        some ⟨op, thenUnlock (next (s.world.answer r).1)⟩ ∧
      (s.step settings (.goesOn who)).world.lock = s.world.lock := by
  have hstep : s.step settings (.goesOn who) =
      (s.noteAsked who op r).attempt who op r fun answer => thenUnlock (next answer) := by
    simp only [Chronicle.step, hwho, thenUnlock_ask]
  have hattempt : s.world.attempt who r = (some (s.world.answer r).1, (s.world.answer r).2) :=
    World.attempt_of_answer hgated (h.agrees.isLocking hmem)
  rw [hstep, Chronicle.noteAsked_of_mem (h.mem_asked hmem),
    Chronicle.attempt_of_answer hattempt rfl]
  exact ⟨Function.update_self _ _ _, World.answer_lock _ _⟩

/-- Who holds the lock goes on by a turn, or comes to its end. -/
theorem Line.turn_of_holds (h : Line settings w₀ s granted waiting holders)
    (hgated : s.world.gated = []) {r : Request} {next : r.Answer → Transaction Result}
    {access : Access} (hwho : s.underway who = some ⟨op, Script.ask (S := signature) r next⟩)
    (hholds : (who, access) ∈ s.world.lock.holders) :
    (s.step settings (.goesOn who)).underway who = none ∨
      ∃ answer, (s.step settings (.goesOn who)).underway who = some ⟨op, next answer⟩ ∧
        (who, access) ∈ (s.step settings (.goesOn who)).world.lock.holders := by
  obtain ⟨op', ⟨henters, hpending⟩ | ⟨body, hinside, hpending⟩⟩ := h.cases_of_holds hholds
  · -- It learns that it was handed the lock.
    have hop : op'.access.isSome := h.access _ (List.mem_append_left _ (h.held _ henters))
    obtain ⟨access', haccess⟩ := Option.isSome_iff_exists.1 hop
    rw [step_of_transaction hop hpending, h.entered henters]
    rw [hwho, Operation.transaction_of_access haccess] at hpending
    cases hpending
    exact .inr ⟨(), Function.update_self _ _ _, hholds⟩
  · cases body with
    | done result =>
      have hstep : s.step settings (.goesOn who) =
          (s.noteAsked who op' .unlock).attempt who op' .unlock fun _ => .done result := by
        simp only [Chronicle.step, hpending, thenUnlock_done]
      rw [hstep, Chronicle.noteAsked_of_mem (h.mem_asked hinside), Chronicle.attempt_unlock]
      exact .inl (Function.update_self _ _ _)
    | ask r' next' =>
      obtain ⟨hunderway, hlock⟩ := h.turn_ask hgated hinside hpending
      rw [hwho] at hpending
      cases hpending
      exact .inr ⟨_, hunderway, hlock ▸ hholds⟩

/-- Whoever holds the lock has something left to do. -/
theorem Line.not_done_of_holds (h : Line settings w₀ s granted waiting holders) {result : Result}
    {access : Access} (hholds : (who, access) ∈ s.world.lock.holders) :
    s.underway who ≠ some ⟨op, .done result⟩ := by
  intro hwho
  obtain ⟨op', ⟨henters, hpending⟩ | ⟨body, -, hpending⟩⟩ := h.cases_of_holds hholds
  · have hop : op'.access.isSome := h.access _ (List.mem_append_left _ (h.held _ henters))
    obtain ⟨access', haccess⟩ := Option.isSome_iff_exists.1 hop
    rw [hwho, Operation.transaction_of_access haccess] at hpending
    cases hpending
  · rw [hwho] at hpending
    cases body <;> cases hpending

/-- Who holds the lock comes to its end. -/
theorem Turns.ends_of_holds (h : Turns settings w₀ turns s) {rest : Transaction Result}
    {access : Access} (hwho : (s.along settings turns n).underway who = some ⟨op, rest⟩)
    (hholds : (who, access) ∈ (s.along settings turns n).world.lock.holders) :
    ∃ m, n ≤ m ∧ (s.along settings turns m).underway who = none := by
  -- By induction on what it still does, from each of its turns to the next.
  induction rest generalizing n access with
  | done result =>
    obtain ⟨granted, waiting, holders, hline⟩ := h.along_line n
    exact absurd hwho (hline.not_done_of_holds hholds)
  | ask r next ih =>
    have hsome : (s.along settings turns n).underway who ≠ none := by
      rw [hwho]
      exact nofun
    obtain ⟨m, hle, hturn, hsame, hstays⟩ := h.next hsome
    obtain ⟨granted, waiting, holders, hline⟩ := h.along_line m
    have hsucc : s.along settings turns (m + 1) =
        (s.along settings turns m).step settings (.goesOn who) := by
      rw [Chronicle.along, hturn]
    have hmoved := hline.turn_of_holds (h.along_gated m) (hsame.trans hwho) (hstays access hholds)
    rw [← hsucc] at hmoved
    rcases hmoved with hnone | ⟨answer, hnext, hkeeps⟩
    · exact ⟨m + 1, Nat.le_succ_of_le hle, hnone⟩
    · obtain ⟨l, hle', hnone⟩ := ih answer hnext hkeeps
      exact ⟨l, Nat.le_trans (Nat.le_succ_of_le hle) hle', hnone⟩

/-- Whether somebody who is under way at a time comes to its end later. -/
def SomeEnd (settings : Settings) (turns : Nat → Nat) (s : Chronicle) (n : Nat) : Prop :=
  ∃ who m, n ≤ m ∧ (s.along settings turns n).underway who ≠ none ∧
    (s.along settings turns m).underway who = none

theorem SomeEnd.of_le {m : Nat} (h : SomeEnd settings turns s m) (hle : n ≤ m) :
    SomeEnd settings turns s n := by
  obtain ⟨who, l, hle', hsome, hnone⟩ := h
  exact ⟨who, l, Nat.le_trans hle hle', fun hgone => hsome (along_of_none hgone hle), hnone⟩

/-- While somebody holds the lock, somebody comes to its end. -/
theorem Turns.someEnd_of_held (h : Turns settings w₀ turns s)
    (hheld : (s.along settings turns n).world.lock.holders ≠ []) :
    SomeEnd settings turns s n := by
  obtain ⟨⟨who, access⟩, hholds⟩ := List.exists_mem_of_ne_nil _ hheld
  obtain ⟨granted, waiting, holders, hline⟩ := h.along_line n
  obtain ⟨op, rest, hwho⟩ : ∃ op rest,
      (s.along settings turns n).underway who = some ⟨op, rest⟩ := by
    obtain ⟨op, ⟨-, hwho⟩ | ⟨body, -, hwho⟩⟩ := hline.cases_of_holds hholds
    · exact ⟨op, _, hwho⟩
    · exact ⟨op, _, hwho⟩
  obtain ⟨m, hle, hnone⟩ := h.ends_of_holds hwho hholds
  exact ⟨who, m, hle, by rw [hwho]; exact nofun, hnone⟩

/-- Who is under way while nobody holds the lock has it after a turn. -/
theorem Line.held_of_turn (h : Line settings w₀ s granted waiting [])
    (hwho : s.underway who ≠ none) :
    (s.step settings (.goesOn who)).world.lock.holders ≠ [] := by
  obtain rfl : waiting = [] := h.attended rfl
  have hstage := h.stage who
  generalize hpending : s.underway who = pending at hstage hwho
  cases hstage with
  | absent => exact absurd rfl hwho
  | begun op hop hnew =>
    have hasked : who ∉ s.asked.map (·.1) := by rwa [h.asked]
    have hacquire : s.world.lock.acquire who op.mode = (true, { holders := [(who, op.mode)] }) := by
      rw [h.lock]
      cases op.mode <;> rfl
    let noted : Chronicle := { s with asked := s.asked ++ [(who, op)] }
    have hattempt : noted.world.attempt who (.lock op.mode) =
        (some (), { s.world with lock := { holders := [(who, op.mode)] } }) := by
      rw [Session.attempt_lock, hacquire]
      rfl
    rw [step_of_transaction hop hpending, Chronicle.noteAsked_of_new hasked,
      Chronicle.attempt_of_answer hattempt rfl]
    exact List.cons_ne_nil _ _
  | queued op hmem => cases hmem
  | admitted op hmem => cases hmem
  | inside op body hmem => cases hmem
  | gone => exact absurd rfl hwho

/-- As long as somebody is under way, somebody comes to its end. -/
theorem Turns.someEnd (h : Turns settings w₀ turns s)
    (hwho : (s.along settings turns n).underway who ≠ none) : SomeEnd settings turns s n := by
  obtain ⟨m, hle, hturn, hsame, -⟩ := h.next hwho
  obtain ⟨granted, waiting, holders, hline⟩ := h.along_line m
  cases holders with
  | nil =>
    -- The lock is free, and whoever has its turn now is let in.
    rw [← hsame] at hwho
    have hheld : (s.along settings turns (m + 1)).world.lock.holders ≠ [] := by
      rw [Chronicle.along, hturn]
      exact hline.held_of_turn hwho
    exact (h.someEnd_of_held hheld).of_le (Nat.le_succ_of_le hle)
  | cons holder holders =>
    have hheld : (s.along settings turns m).world.lock.holders ≠ [] := by
      rw [hline.lock]
      exact List.cons_ne_nil _ _
    exact (h.someEnd_of_held hheld).of_le hle

/-- Everybody comes to its end by fair turns. -/
theorem Turns.ends (h : Turns settings w₀ turns s) (known : List Nat)
    (hknown : ∀ who, (s.along settings turns n).underway who ≠ none → who ∈ known) :
    ∃ m, ∀ who, (s.along settings turns m).underway who = none := by
  -- By induction on the number of those who may be under way.
  induction hlength : known.length using Nat.strongRecOn generalizing n known with
  | ind length ih =>
    by_cases hsome : ∃ who, (s.along settings turns n).underway who ≠ none
    · obtain ⟨who, hwho⟩ := hsome
      obtain ⟨gone, m, hle, hbefore, hafter⟩ := h.someEnd hwho
      -- Who came to its end is not begun again, and is known no more.
      have hfewer : (known.filter (· ≠ gone)).length < length := by
        rw [← hlength]
        refine List.length_filter_lt_length_iff_exists.2 ⟨gone, hknown gone hbefore, ?_⟩
        simp
      refine ih _ hfewer (n := m) (known.filter (· ≠ gone)) (fun other hother => ?_) rfl
      refine List.mem_filter.2 ⟨hknown other fun hnone => ?_, decide_eq_true fun heq => ?_⟩
      · exact hother (along_of_none hnone hle)
      · exact hother (heq ▸ hafter)
    · exact ⟨n, fun who => Classical.byContradiction fun hwho => hsome ⟨who, hwho⟩⟩

end Turns

/-! ## Chronicles -/

section Runs

variable {settings : Settings} {w : World Memory} {s : Chronicle}
  {granted waiting : List (Nat × Operation)} {holders : List Holder}

/-- Whether all that are under way have numbers of a list. -/
def Chronicle.Among (known : List Nat) (s : Chronicle) : Prop :=
  ∀ who, s.underway who ≠ none → who ∈ known

/-- One move brings one more under way at most. -/
theorem Chronicle.Among.step {known : List Nat} (h : s.Among known) (settings : Settings)
    (move : Move) : ∃ known', (s.step settings move).Among known' := by
  cases move with
  | begins who op =>
    simp only [Chronicle.step]
    split
    · refine ⟨who :: known, fun other hother => ?_⟩
      by_cases heq : other = who
      · exact List.mem_cons.2 (.inl heq)
      · refine List.mem_cons_of_mem _ (h other fun hnone => hother ?_)
        exact (Function.update_of_ne heq _ _).trans hnone
    · exact ⟨known, h⟩
  | goesOn who =>
    exact ⟨known, fun other hother => h other fun hnone =>
      hother (Chronicle.underway_goesOn_of_none hnone)⟩
  | gates gated => exact ⟨known, h⟩

/-- Whether an operation of a number asked for the lock, or is under way at least. -/
def Chronicle.Knows (who : Nat) (s : Chronicle) : Prop :=
  who ∈ s.asked.map (·.1) ∨ s.underway who ≠ none

theorem Chronicle.knows_begins (settings : Settings) (s : Chronicle) (who : Nat) {op : Operation}
    (hop : op.access.isSome) : (s.step settings (.begins who op)).Knows who := by
  simp only [Chronicle.step]
  split
  · refine .inr fun hnone => ?_
    have hsome := (Function.update_self who (some _) s.underway).symm.trans hnone
    cases hsome
  · next hknown =>
    by_cases hasked : s.asked.any (·.1 = who) = true
    · obtain ⟨e, hmem, heq⟩ := List.any_eq_true.1 hasked
      exact .inl (List.mem_map.2 ⟨e, hmem, of_decide_eq_true heq⟩)
    · refine .inr fun hnone => hknown ?_
      rw [hop, hnone, Bool.eq_false_iff.2 hasked]
      rfl

theorem Chronicle.asked_goesOn {who : Nat} :
    s.asked ⊆ (s.step settings (.goesOn who)).asked := by
  simp only [Chronicle.step]
  split
  · rw [Chronicle.asked_attempt]
    exact Chronicle.asked_noteAsked
  · exact List.Subset.refl _

/-- Who is under way and did not ask for the lock will ask for it next. -/
theorem Line.begun_of_notMem (h : Line settings w s granted waiting holders) {who : Nat}
    (hsome : s.underway who ≠ none) (hnew : who ∉ s.asked.map (·.1)) :
    ∃ op : Operation, op.access.isSome ∧
      s.underway who = some ⟨op, op.transaction settings⟩ := by
  have hheld : ∀ holder ∈ holders, holder.who ≠ who := by
    intro holder hmem heq
    exact hnew (heq ▸ h.mem_asked hmem)
  have hstage := h.stage who
  generalize s.underway who = pending at hstage hsome ⊢
  cases hstage with
  | absent => exact absurd rfl hsome
  | begun op hop => exact ⟨op, hop, rfl⟩
  | queued op hmem =>
    rw [h.asked] at hnew
    exact absurd (List.mem_map_of_mem (List.mem_append_right granted hmem)) hnew
  | admitted op hmem => exact absurd rfl (hheld _ hmem)
  | inside op body hmem => exact absurd rfl (hheld _ hmem)
  | gone => exact absurd rfl hsome

/-- No operation is lost by a move. -/
theorem Line.knows_step (h : Line settings w s granted waiting holders) {who : Nat}
    (hknows : s.Knows who) (move : Move) : (s.step settings move).Knows who := by
  cases move with
  | begins other op =>
    by_cases heq : other = who
    · subst heq
      by_cases hop : op.access.isSome = true
      · exact Chronicle.knows_begins settings s other hop
      · have hstep : s.step settings (.begins other op) = s := by
          simp [Chronicle.step, hop]
        rw [hstep]
        exact hknows
    · simp only [Chronicle.step]
      split
      · refine hknows.imp id fun hsome hnone => hsome ?_
        exact (Function.update_of_ne (fun hsame => heq hsame.symm) _ _).symm.trans hnone
      · exact hknows
  | goesOn other =>
    rcases hknows with hasked | hsome
    · exact .inl (List.map_subset _ Chronicle.asked_goesOn hasked)
    · by_cases heq : who = other
      · -- It asked for the lock before, or asks now.
        subst heq
        by_cases hasked : who ∈ s.asked.map (·.1)
        · exact .inl (List.map_subset _ Chronicle.asked_goesOn hasked)
        · obtain ⟨op, hop, hwho⟩ := h.begun_of_notMem hsome hasked
          rw [step_of_transaction hop hwho, Chronicle.noteAsked_of_new hasked]
          refine .inl ?_
          rw [Chronicle.asked_attempt]
          exact List.mem_map.2 ⟨(who, op), List.mem_append_right _ List.mem_cons_self, rfl⟩
      · refine .inr ?_
        rwa [Chronicle.underway_goesOn_of_ne heq]
  | gates gated => exact hknows

/-- Moves keep the line, and finitely many are under way. -/
theorem Line.run (h : Line settings w s granted waiting holders) {known : List Nat}
    (hknown : s.Among known) (moves : List Move) :
    ∃ granted' waiting' holders' known',
      Line settings w (s.run settings moves) granted' waiting' holders' ∧
        (s.run settings moves).Among known' := by
  induction moves generalizing s granted waiting holders known with
  | nil => exact ⟨granted, waiting, holders, known, h, hknown⟩
  | cons move moves ih =>
    obtain ⟨_, _, _, hline⟩ := h.step move
    obtain ⟨_, hknown'⟩ := hknown.step settings move
    exact ih hline hknown'

/-- No operation is lost. -/
theorem Line.knows_run (h : Line settings w s granted waiting holders) {moves : List Move}
    {who : Nat}
    (hknows : s.Knows who ∨ ∃ op : Operation, op.access.isSome ∧ .begins who op ∈ moves) :
    (s.run settings moves).Knows who := by
  induction moves generalizing s granted waiting holders with
  | nil =>
    rcases hknows with hknows | ⟨op, -, hmem⟩
    · exact hknows
    · cases hmem
  | cons move moves ih =>
    obtain ⟨_, _, _, hline⟩ := h.step move
    refine ih hline ?_
    rcases hknows with hknows | ⟨op, hop, hmem⟩
    · exact .inl (h.knows_step hknows move)
    · rcases List.mem_cons.1 hmem with rfl | hmem
      · exact .inl (Chronicle.knows_begins settings s who hop)
      · exact .inr ⟨op, hop, hmem⟩

/-- When nothing is under way, everybody who asked for the lock is gone. -/
theorem Line.gone (h : Line settings w s granted waiting holders)
    (hnone : ∀ who, s.underway who = none) :
    waiting = [] ∧ holders = [] ∧ ∀ e ∈ granted, ∃ result, (e.1, result) ∈ s.ended := by
  have hgone : ∀ who ∈ (granted ++ waiting).map (·.1), who ∈ granted.map (·.1) ∧
      (∀ holder ∈ holders, holder.who ≠ who) ∧ ∃ result, (who, result) ∈ s.ended := by
    intro who hmem
    have hstage := h.stage who
    rw [hnone who] at hstage
    cases hstage with
    | absent hnew => exact absurd hmem hnew
    | gone op result hgranted hout hended =>
      exact ⟨List.mem_map_of_mem hgranted, hout, result, hended⟩
  refine ⟨?_, ?_, fun e hmem => ?_⟩
  · refine List.eq_nil_iff_forall_not_mem.2 fun e hmem => ?_
    have hasked : e.1 ∈ (granted ++ waiting).map (·.1) :=
      List.mem_map_of_mem (List.mem_append_right granted hmem)
    exact h.notMem_granted hmem (hgone e.1 hasked).1
  · refine List.eq_nil_iff_forall_not_mem.2 fun holder hmem => ?_
    have hasked : holder.who ∈ (granted ++ waiting).map (·.1) :=
      List.mem_map_of_mem (List.mem_append_left waiting (h.held holder hmem))
    exact (hgone holder.who hasked).2.1 holder hmem rfl
  · exact (hgone e.1 (List.mem_map_of_mem (List.mem_append_left waiting hmem))).2.2

/-- Operations are serializable.  In every chronicle:

- everybody asks for the lock once, and all that ended did so with the results of running one after
  the other, in the order in which they asked;
- when nothing is under way, all that were begun have asked and ended, and the roster, its copy and
  the containers are those of running one after the other;
- the calls that memory remembers are those of these operations, and the calls of an operation that
  holds the lock alone form one block among them;
- when calls are no longer held back and everybody has its turn again and again, a time comes at
  which nothing is under way. -/
theorem results_serial (settings : Settings) (w : World Memory) (moves : List Move) :
    let s := (Chronicle.start w).run settings moves
    let serial := serially settings s.asked w
    ((s.asked.map (·.1)).Nodup ∧ ∀ e ∈ s.ended, e ∈ serial.1) ∧
    ((∀ who, s.underway who = none) →
      (∀ who (op : Operation), op.access.isSome → .begins who op ∈ moves →
          who ∈ s.asked.map (·.1)) ∧
        (∀ e ∈ s.asked, ∃ result, (e.1, result) ∈ s.ended) ∧
        s.world.roster = serial.2.roster ∧ s.world.lastKnown = serial.2.lastKnown ∧
        s.world.backend.clearCalls = serial.2.backend.clearCalls) ∧
    (s.world.backend.calls = w.backend.calls ++ s.calls.map recorded ∧
      ∀ e ∈ s.asked, e.2.access = some .exclusive → Block e.1 s.calls) ∧
    ∀ turns : Nat → Nat, (s.step settings (.gates [])).Fair turns →
      ∃ n, ∀ who, ((s.step settings (.gates [])).along settings turns n).underway who = none := by
  intro s serial
  have hnobody : (Chronicle.start w).Among [] := fun _ hsome => absurd rfl hsome
  obtain ⟨granted, waiting, holders, known, hline, hknown⟩ :
      ∃ granted waiting holders known, Line settings w s granted waiting holders ∧
        s.Among known :=
    (line_start settings w).run hnobody moves
  refine ⟨⟨?_, fun e hmem => ?_⟩, fun hnone => ?_, ⟨hline.history, fun e hmem haccess => ?_⟩,
    fun turns hfair => ?_⟩
  · rw [hline.asked]
    exact hline.once
  · show e ∈ (serially settings s.asked w).1
    rw [hline.asked]
    exact results_append granted waiting w (hline.results e hmem)
  · obtain ⟨rfl, rfl, hended⟩ := hline.gone hnone
    have hasked : s.asked = granted := hline.asked.trans (List.append_nil _)
    have hworld : s.world.gist = serial.2.gist := by
      show _ = (serially settings s.asked w).2.gist
      rw [hasked]
      exact hline.agrees.world
    refine ⟨fun who op hop hbegun => ?_, fun e hmem => hended e (hasked ▸ hmem),
      World.gist_eq_iff.1 hworld⟩
    rcases (line_start settings w).knows_run (.inr ⟨op, hop, hbegun⟩) with hmem | hsome
    · exact hmem
    · exact absurd (hnone who) hsome
  · rw [hline.asked] at hmem
    rcases List.mem_append.1 hmem with hmem | hmem
    · exact hline.blocks.block e hmem haccess
    · -- Who waits made no call yet.
      refine (lastBlock_of_none fun call hcall heq => ?_).block
      exact hline.notMem_granted hmem (heq ▸ hline.blocks.known call hcall)
  · have hturns : Turns settings w turns (s.step settings (.gates [])) :=
      ⟨rfl, hfair, granted, waiting, holders, hline.gates []⟩
    exact hturns.ends (n := 0) known hknown

end Runs

end Caretaker.Crew
