import Caretaker.Proofs.Kept

/-!
# Dockets

Operations on a crew come and go, on containers of any kind.  A docket is a session that numbers
operations as they begin and keeps what each of them ended with.  Every operation can be on it, also
the one that never waits for the lock.

Main definitions:

- `Docket.step`, `Docket.run`: what happens to a docket.
- `Docket.Booked`: a docket in which every operation is still under way or ended once.

Main statements:

- `Docket.toSession_step`: what happens to a docket is a step of its session.
- `Docket.Booked.run`: whatever happens, a docket is in order.
-/

namespace Caretaker.Crew

open Container (Backend)
open Script

/-- Sessions keep what is always true. -/
theorem kept_true {ρ : Type} [Backend ρ] (settings : Settings) (outside : ρ → ρ → Prop) :
    Kept settings outside fun _ _ _ => True where
  moves _ _ := trivial
  tends _ _ _ := trivial
  updates _ _ _ := trivial

/-- What can happen to a crew. -/
inductive Happening (ρ : Type) where
  /-- Somebody begins an operation. -/
  | begins (op : Operation)
  /-- An operation makes its next request. -/
  | goesOn (who : Nat)
  /-- Other calls are held back than before. -/
  | gates (gated : List Container.Operation)
  /-- Containers change on their own. -/
  | moves (backend : ρ)

/-- A session that keeps book. -/
structure Docket (ρ : Type) extends Session ρ where
  /-- The operations that were begun, by number. -/
  begun : List Operation := []
  /-- What operations ended with, by number, the first one first. -/
  results : List (Nat × Result) := []

namespace Docket

variable {ρ : Type}

/-- A crew on some containers, at whose start nothing happened yet. -/
def start (b : ρ) : Docket ρ := { world := { backend := b } }

/-- What an operation ended with; nothing while it is under way. -/
def resultsOf (who : Nat) (d : Docket ρ) : List (Nat × Result) := d.results.filter (·.1 = who)

/-- Notes what an operation ended with, if it did. -/
def note (who : Nat) (rest : Transaction Result) (results : List (Nat × Result)) :
    List (Nat × Result) :=
  match rest with
  | Script.done result => results ++ [(who, result)]
  | Script.ask _ _ => results

section Steps

variable [Backend ρ]

/-- Makes a request. -/
def attempt (who : Nat) (op : Operation) (r : Request) (next : r.Answer → Transaction Result)
    (d : Docket ρ) : Docket ρ :=
  match d.world.attempt who r with
  | (none, w) => { d with world := w }
  | (some answer, w) =>
    { toSession := d.toSession.goOn who op (next answer) w
      begun := d.begun
      results := note who (next answer) d.results }

/-- What happens to a docket. -/
def step (settings : Settings) (d : Docket ρ) : Happening ρ → Docket ρ
  | .begins op =>
    { d with
      underway := Function.update d.underway d.begun.length (some ⟨op, op.transaction settings⟩)
      begun := d.begun ++ [op] }
  | .goesOn who =>
    match d.underway who with
    | some ⟨op, Script.ask r next⟩ => d.attempt who op r next
    | _ => d
  | .gates gated => { d with world := { d.world with gated } }
  | .moves backend => { d with world := { d.world with backend } }

/-- What happens to a docket, one after the other. -/
def run (settings : Settings) (happenings : List (Happening ρ)) (d : Docket ρ) : Docket ρ :=
  happenings.foldl (step settings) d

/-! ## Requests -/

variable {settings : Settings} {d : Docket ρ} {who other : Nat} {op : Operation} {r : Request}
  {next : r.Answer → Transaction Result} {w : World ρ}

/-- Who has to wait stays where it is. -/
theorem goesOn_of_waits (hwho : d.underway who = some ⟨op, Script.ask (S := signature) r next⟩)
    (hattempt : d.world.attempt who r = (none, w)) :
    d.step settings (.goesOn who) = { d with world := w } := by
  simp only [step, hwho, attempt, hattempt]

/-- Who is answered goes on, or ends. -/
theorem goesOn_of_answer {answer : r.Answer}
    (hwho : d.underway who = some ⟨op, Script.ask (S := signature) r next⟩)
    (hattempt : d.world.attempt who r = (some answer, w)) :
    d.step settings (.goesOn who) =
      { toSession := d.toSession.goOn who op (next answer) w
        begun := d.begun
        results := note who (next answer) d.results } := by
  simp only [step, hwho, attempt, hattempt]

/-- What a turn does: nothing, or an answer or a wait for a request. -/
theorem goesOn_cases (settings : Settings) (d : Docket ρ) (who : Nat) :
    d.step settings (.goesOn who) = d ∨
      ∃ op r next, d.underway who = some ⟨op, Script.ask (S := signature) r next⟩ ∧
        ((∃ w, d.world.attempt who r = (none, w) ∧
            d.step settings (.goesOn who) = { d with world := w }) ∨
          ∃ answer w, d.world.attempt who r = (some answer, w) ∧
            d.step settings (.goesOn who) =
              { toSession := d.toSession.goOn who op (next answer) w
                begun := d.begun
                results := note who (next answer) d.results }) := by
  rcases hwho : d.underway who with _ | ⟨op, result | ⟨r, next⟩⟩
  · exact .inl (by simp only [step, hwho])
  · exact .inl (by simp only [step, hwho])
  · refine .inr ⟨op, r, next, rfl, ?_⟩
    rcases hattempt : d.world.attempt who r with ⟨_ | answer, w⟩
    · exact .inl ⟨w, rfl, goesOn_of_waits hwho hattempt⟩
    · exact .inr ⟨answer, w, rfl, goesOn_of_answer hwho hattempt⟩

/-- A turn begins nothing. -/
theorem begun_goesOn (settings : Settings) (d : Docket ρ) (who : Nat) :
    (d.step settings (.goesOn who)).begun = d.begun := by
  rcases goesOn_cases settings d who with
    heq | ⟨op, r, next, -, ⟨w, -, heq⟩ | ⟨answer, w, -, heq⟩⟩
  · rw [heq]
  · rw [heq]
  · rw [heq]

/-- What a turn makes of the world, one request makes of it. -/
theorem world_goesOn (settings : Settings) (d : Docket ρ) (who : Nat) :
    (d.step settings (.goesOn who)).world = d.world ∨
      ∃ r, (d.step settings (.goesOn who)).world = (d.world.attempt who r).2 := by
  rcases goesOn_cases settings d who with
    heq | ⟨op, r, next, -, ⟨w, hattempt, heq⟩ | ⟨answer, w, hattempt, heq⟩⟩
  · rw [heq]
    exact .inl rfl
  · rw [heq]
    exact .inr ⟨r, by rw [hattempt]⟩
  · rw [heq]
    refine .inr ⟨r, ?_⟩
    rw [hattempt]
    exact Session.world_goOn _

/-- What happens to a docket is a step of its session, as long as new numbers are free. -/
theorem toSession_step (hfree : d.underway d.begun.length = none) (happening : Happening ρ) :
    (d.step settings happening).toSession = d.toSession ∨
      Session.Step settings (fun _ _ => True) d.toSession
        (d.step settings happening).toSession := by
  cases happening with
  | begins op => exact .inr (.begins _ op hfree)
  | goesOn who =>
    rcases goesOn_cases settings d who with
      heq | ⟨op, r, next, hwho, ⟨w, hattempt, heq⟩ | ⟨answer, w, hattempt, heq⟩⟩
    · rw [heq]
      exact .inl rfl
    · rw [heq]
      exact .inr (.waits who op r next w hwho hattempt)
    · rw [heq]
      exact .inr (.answers who op r next answer w hwho hattempt)
  | gates gated => exact .inr (.gates gated)
  | moves backend => exact .inr (.moves backend trivial)

/-! ## Book-keeping -/

omit [Backend ρ] in
theorem filter_note (rest : Transaction Result) (results : List (Nat × Result)) :
    (note who rest results).filter (·.1 = other) =
      if other = who then note who rest (results.filter (·.1 = other))
      else results.filter (·.1 = other) := by
  cases rest with
  | ask r next => simp [note]
  | done result =>
    by_cases heq : other = who
    · simp [note, heq]
    · simp [note, heq, Ne.symm heq]

/-- A turn leaves everybody else as they are. -/
theorem goesOn_of_ne (settings : Settings) (d : Docket ρ) (hne : other ≠ who) :
    (d.step settings (.goesOn who)).underway other = d.underway other ∧
      (d.step settings (.goesOn who)).resultsOf other = d.resultsOf other := by
  rcases goesOn_cases settings d who with
    heq | ⟨op, r, next, -, ⟨w, -, heq⟩ | ⟨answer, w, -, heq⟩⟩
  · rw [heq]
    exact ⟨rfl, rfl⟩
  · rw [heq]
    exact ⟨rfl, rfl⟩
  · rw [heq]
    refine ⟨Session.underway_goOn_of_ne hne _, ?_⟩
    rw [resultsOf, filter_note, if_neg hne, resultsOf]

/-- A docket in order: it can be reached, its numbers are those of operations that were begun, and
each of those is under way or ended with one result. -/
structure Booked (settings : Settings) (b : ρ) (d : Docket ρ) : Prop where
  reachable : Session.Reachable settings (fun _ _ => True) b d.toSession
  numbered : ∀ who, d.begun.length ≤ who → d.underway who = none ∧ d.resultsOf who = []
  once : ∀ who < d.begun.length,
    d.underway who ≠ none ∧ d.resultsOf who = [] ∨
      d.underway who = none ∧ ∃ result, d.resultsOf who = [(who, result)]

variable {b : ρ}

theorem booked_start (settings : Settings) (b : ρ) : (start b).Booked settings b where
  reachable := .start
  numbered _ _ := ⟨rfl, rfl⟩
  once _ hlt := absurd hlt (Nat.not_lt_zero _)

/-- Who ends is under way no more and has its one result. -/
theorem Booked.goesOn (h : d.Booked settings b) (who : Nat) :
    (∀ other, d.begun.length ≤ other →
      (d.step settings (.goesOn who)).underway other = none ∧
        (d.step settings (.goesOn who)).resultsOf other = []) ∧
    ∀ other < d.begun.length,
      (d.step settings (.goesOn who)).underway other ≠ none ∧
          (d.step settings (.goesOn who)).resultsOf other = [] ∨
        (d.step settings (.goesOn who)).underway other = none ∧
          ∃ result, (d.step settings (.goesOn who)).resultsOf other = [(other, result)] := by
  rcases goesOn_cases settings d who with
    heq | ⟨op, r, next, hwho, ⟨w, -, heq⟩ | ⟨answer, w, -, heq⟩⟩
  · rw [heq]
    exact ⟨h.numbered, h.once⟩
  · rw [heq]
    exact ⟨h.numbered, h.once⟩
  · have hbegun : who < d.begun.length := by
      by_contra hnew
      rw [(h.numbered who (Nat.le_of_not_lt hnew)).1] at hwho
      cases hwho
    have hnone : d.resultsOf who = [] := by
      rcases h.once who hbegun with ⟨-, hnone⟩ | ⟨hover, -⟩
      · exact hnone
      · rw [hover] at hwho
        cases hwho
    constructor
    · intro other hle
      have hne : other ≠ who := by omega
      obtain ⟨hunderway, hresults⟩ := goesOn_of_ne settings d hne
      rw [hunderway, hresults]
      exact h.numbered other hle
    · intro other hlt
      by_cases hne : other = who
      · subst hne
        rw [heq, resultsOf, filter_note, if_pos rfl]
        show _ ∧ note other (next answer) (d.resultsOf other) = [] ∨
          _ ∧ ∃ result, note other (next answer) (d.resultsOf other) = [(other, result)]
        rw [hnone]
        cases next answer with
        | done result => exact .inr ⟨Function.update_self _ _ _, result, rfl⟩
        | ask r next =>
          refine .inl ⟨?_, rfl⟩
          show Function.update d.underway other (some _) other ≠ none
          rw [Function.update_self]
          exact Option.some_ne_none _
      · obtain ⟨hunderway, hresults⟩ := goesOn_of_ne settings d hne
        rw [hunderway, hresults]
        exact h.once other hlt

theorem Booked.step (h : d.Booked settings b) (happening : Happening ρ) :
    (d.step settings happening).Booked settings b := by
  have hfree : d.underway d.begun.length = none := (h.numbered _ (Nat.le_refl _)).1
  have hreachable :
      Session.Reachable settings (fun _ _ => True) b (d.step settings happening).toSession := by
    rcases toSession_step hfree happening with heq | hstep
    · rw [heq]
      exact h.reachable
    · exact h.reachable.step hstep
  cases happening with
  | begins op =>
    have hlength : (d.step settings (.begins op)).begun.length = d.begun.length + 1 :=
      List.length_append
    refine ⟨hreachable, fun who hle => ?_, fun who hlt => ?_⟩
    · have hne : who ≠ d.begun.length := by omega
      obtain ⟨hunderway, hresults⟩ := h.numbered who (by omega)
      exact ⟨(Function.update_of_ne hne _ _).trans hunderway, hresults⟩
    · by_cases hne : who = d.begun.length
      · subst hne
        refine .inl ⟨?_, (h.numbered _ (Nat.le_refl _)).2⟩
        show Function.update d.underway d.begun.length (some _) d.begun.length ≠ none
        rw [Function.update_self]
        exact Option.some_ne_none _
      · have hsame : (d.step settings (.begins op)).underway who = d.underway who :=
          Function.update_of_ne hne _ _
        rw [hsame]
        exact h.once who (by omega)
  | goesOn who =>
    obtain ⟨hnumbered, honce⟩ := h.goesOn who
    refine ⟨hreachable, ?_, ?_⟩
    · rw [begun_goesOn]
      exact hnumbered
    · rw [begun_goesOn]
      exact honce
  | gates gated => exact ⟨hreachable, h.numbered, h.once⟩
  | moves backend => exact ⟨hreachable, h.numbered, h.once⟩

/-- Whatever happens, a docket is in order. -/
theorem Booked.run (h : d.Booked settings b) (happenings : List (Happening ρ)) :
    (d.run settings happenings).Booked settings b := by
  induction happenings generalizing d with
  | nil => exact h
  | cons happening happenings ih => exact ih (h.step happening)

end Steps

end Docket
end Caretaker.Crew
