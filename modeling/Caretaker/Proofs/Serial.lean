import Caretaker.Proofs.Alone
import Caretaker.Proofs.Chronicle
import Caretaker.Proofs.FairLock

/-!
# Holders of the lock agree with operations in a row

Whoever holds the lock will come to an end.  If all holders went on to their ends now, the crew
would be as it is after all operations that were let in so far, one after the other, and each holder
would end as its operation ends there.  That is kept by every request of a holder, by a holder that
leaves, and by an operation that is let in.

A writer has the crew for itself.  Readers mix, and for them it is kept because what they do
commutes.

Main statements:

- `Agrees.answer`, `Agrees.leave`, `Agrees.grant`: what is kept.
- `Agrees.handOver`: the same for all who are let in when the lock is handed over.
-/

namespace Caretaker.Crew

open Container (Memory)
open Script

/-! ## Operations in a row -/

section Serially

variable {settings : Settings} {w : World Memory}

/-- One operation more, after all others. -/
theorem serially_concat (ops : List (Nat × Operation)) (who : Nat) (op : Operation)
    (w : World Memory) :
    serially settings (ops ++ [(who, op)]) w =
      ((serially settings ops w).1 ++
          [(who, ((op.work settings).run (serially settings ops w).2).1)],
        ((op.work settings).run (serially settings ops w).2).2) := by
  induction ops generalizing w with
  | nil =>
    show ([(who, ((op.transaction settings).run w).1)], ((op.transaction settings).run w).2) = _
    rw [Operation.run_transaction]
    rfl
  | cons first ops ih =>
    obtain ⟨other, op'⟩ := first
    simp only [List.cons_append, serially, ih]

/-- What operations end with does not depend on those after them. -/
theorem results_append (ops ops' : List (Nat × Operation)) (w : World Memory) :
    (serially settings ops w).1 ⊆ (serially settings (ops ++ ops') w).1 := by
  induction ops generalizing w with
  | nil => exact fun _ hmem => absurd hmem List.not_mem_nil
  | cons first ops ih => exact List.cons_subset_cons _ (ih _)

end Serially

/-! ## Holders -/

/-- How an operation holds the lock. -/
def Operation.mode (op : Operation) : Access := op.access.getD .shared

/-- The place of an operation in the lock. -/
def entryOf (e : Nat × Operation) : Nat × Access := (e.1, e.2.mode)

/-- A holder of the lock, with the work that it still does. -/
structure Holder where
  who : Nat
  operation : Operation
  body : Transaction Result

namespace Holder

/-- The place of a holder in the lock. -/
def entry (h : Holder) : Nat × Access := (h.who, h.operation.mode)

/-- An operation that is let in. -/
def enters (settings : Settings) (e : Nat × Operation) : Holder :=
  ⟨e.1, e.2, e.2.work settings⟩

/-- The world after all holders went on to their ends, the last one first. -/
def finish : List Holder → World Memory → World Memory
  | [], w => w
  | h :: holders, w => (h.body.run (finish holders w)).2

/-- Whether all holders are readers. -/
def Shared (holders : List Holder) : Prop :=
  ∀ h ∈ holders, h.operation.access = some .shared ∧
    h.body.Only (S := signature) Request.Reads

/-- Whether the one holder is a writer, whose work fits an account. -/
def Alone (holders : List Holder) (w : World Memory) : Prop :=
  ∃ h account b, holders = [h] ∧ h.operation.access = some .exclusive ∧
    account.Fits (fun _ _ => False) b w ∧ h.body.Ensures Account.rule (fun _ _ => True) account

variable {holders : List Holder} {w w' : World Memory}

theorem finish_append (first second : List Holder) (w : World Memory) :
    finish (first ++ second) w = finish first (finish second w) := by
  induction first with
  | nil => rfl
  | cons h first ih =>
    show (h.body.run (finish (first ++ second) w)).2 = _
    rw [ih]
    rfl

theorem finish_congr (h : w.gist = w'.gist) (holders : List Holder) :
    (finish holders w).gist = (finish holders w').gist := by
  induction holders with
  | nil => exact h
  | cons holder holders ih => exact (World.run_congr ih holder.body).2

/-- What a reader is answered does not depend on how far other readers are. -/
theorem Shared.finish_answer (h : Shared holders) {r : Request} (hr : r.Reads)
    (w : World Memory) :
    ((finish holders w).answer r).1 = (w.answer r).1 ∧
      ((finish holders w).answer r).2.gist = (finish holders (w.answer r).2).gist := by
  induction holders with
  | nil => exact ⟨rfl, rfl⟩
  | cons holder holders ih =>
    obtain ⟨-, hbody⟩ := h holder List.mem_cons_self
    obtain ⟨hanswer, hgist⟩ := ih fun other hmem => h other (List.mem_cons_of_mem _ hmem)
    obtain ⟨hanswer', -, hgist'⟩ := World.run_answer hbody hr (finish holders w)
    exact ⟨hanswer'.trans hanswer, hgist'.trans (World.run_congr hgist holder.body).2⟩

/-- What a reader ends with does not depend on how far another reader is. -/
theorem run_run {body other : Transaction Result}
    (hbody : body.Only (S := signature) Request.Reads)
    (hother : other.Only (S := signature) Request.Reads) (w : World Memory) :
    (body.run (other.run w).2).1 = (body.run w).1 := by
  induction other generalizing w with
  | done value => rfl
  | ask r next ih =>
    obtain ⟨-, hvalue, -⟩ := World.run_answer hbody hother.1 w
    rw [World.run_ask]
    exact (ih _ (hother.2 _) _).trans hvalue

theorem Shared.run_finish (h : Shared holders) {body : Transaction Result}
    (hbody : body.Only (S := signature) Request.Reads) (w : World Memory) :
    (body.run (finish holders w)).1 = (body.run w).1 := by
  induction holders with
  | nil => rfl
  | cons holder holders ih =>
    obtain ⟨-, hother⟩ := h holder List.mem_cons_self
    have hrest := ih fun other hmem => h other (List.mem_cons_of_mem _ hmem)
    exact (run_run hbody hother (finish holders w)).trans hrest

end Holder

/-! ## Agreement -/

open Holder

/-- Holders that agree with operations in a row, begun in the world `w₀`: `granted` are those that
were let in so far, and `holders` those among them that still hold the lock. -/
structure Agrees (settings : Settings) (w₀ w : World Memory) (granted : List (Nat × Operation))
    (holders : List Holder) : Prop where
  shape : Shared holders ∨ Alone holders w
  world : (finish holders w).gist = (serially settings granted w₀).2.gist
  values : ∀ h ∈ holders, (h.who, (h.body.run w).1) ∈ (serially settings granted w₀).1

section Agrees

variable {settings : Settings} {w₀ w w' : World Memory} {granted : List (Nat × Operation)}
  {holders before after : List Holder} {h : Holder}

/-- Agreement is about nothing but the roster, its copy and the containers. -/
theorem Agrees.frame (hagrees : Agrees settings w₀ w granted holders)
    (hroster : w'.roster = w.roster) (hcopy : w'.lastKnown = w.lastKnown)
    (hbackend : w'.backend = w.backend) : Agrees settings w₀ w' granted holders := by
  have hgist : w'.gist = w.gist := by
    rw [World.gist, World.gist, hroster, hcopy, hbackend]
  refine { shape := ?shape, world := ?world, values := fun h hmem => ?values }
  case shape =>
    rcases hagrees.shape with hshared | ⟨h, account, b, hholders, haccess, hfits, hbody⟩
    · exact .inl hshared
    · refine .inr ⟨h, account, b, hholders, haccess, ⟨?_, ?_, ?_⟩, hbody⟩
      · exact hroster.trans hfits.roster
      · exact hcopy.trans hfits.lastKnown
      · rw [hbackend]
        exact hfits.calls
  case world =>
    exact (finish_congr hgist holders).trans hagrees.world
  case values =>
    rw [(World.run_congr hgist h.body).1]
    exact hagrees.values h hmem

/-- A writer has nobody before or after it. -/
theorem Holder.Alone.eq_nil (halone : Alone (before ++ h :: after) w) :
    before = [] ∧ after = [] := by
  obtain ⟨h', -, -, hholders, -⟩ := halone
  cases before with
  | nil => exact ⟨rfl, (List.cons.inj hholders).2⟩
  | cons first before => simp at hholders

/-- A request of a writer keeps the agreement. -/
theorem Agrees.answer_alone {who : Nat} {op : Operation} {r : Request}
    {next : r.Answer → Transaction Result}
    (hagrees : Agrees settings w₀ w granted [⟨who, op, Script.ask (S := signature) r next⟩])
    (halone : Alone [⟨who, op, Script.ask (S := signature) r next⟩] w) :
    Agrees settings w₀ (w.answer r).2 granted [⟨who, op, next (w.answer r).1⟩] := by
  obtain ⟨h, account, b, hholders, haccess, hfits, hbody⟩ := halone
  obtain rfl := (List.cons.inj hholders).1
  obtain ⟨account', hfits', hnext⟩ := hfits.answer hbody
  refine ⟨.inr ⟨_, account', b, rfl, haccess, hfits', hnext⟩, hagrees.world, ?_⟩
  intro h hmem
  obtain rfl := List.mem_singleton.1 hmem
  exact hagrees.values _ List.mem_cons_self

/-- A request of a reader keeps the agreement: it may as well come after all that the other readers
still do. -/
theorem Agrees.answer_shared {who : Nat} {op : Operation} {r : Request}
    {next : r.Answer → Transaction Result}
    (hagrees : Agrees settings w₀ w granted
      (before ++ ⟨who, op, Script.ask (S := signature) r next⟩ :: after))
    (hshared : Shared (before ++ ⟨who, op, Script.ask (S := signature) r next⟩ :: after)) :
    Agrees settings w₀ (w.answer r).2 granted
      (before ++ ⟨who, op, next (w.answer r).1⟩ :: after) := by
  let asking : Holder := ⟨who, op, Script.ask (S := signature) r next⟩
  obtain ⟨haccess, hr, hnext⟩ := hshared asking (by simp [asking])
  have hbefore : ∀ h ∈ before, h ∈ before ++ asking :: after :=
    fun h hmem => List.mem_append_left _ hmem
  have hafter : ∀ h ∈ after, h ∈ before ++ asking :: after :=
    fun h hmem => List.mem_append_right _ (List.mem_cons_of_mem _ hmem)
  refine { shape := .inl fun h hmem => ?shape, world := ?world, values := fun h hmem => ?values }
  case shape =>
    rcases List.mem_append.1 hmem with hmem | hmem
    · exact hshared h (hbefore h hmem)
    · rcases List.mem_cons.1 hmem with rfl | hmem
      · exact ⟨haccess, hnext _⟩
      · exact hshared h (hafter h hmem)
  case world =>
    -- Those after it finish first; what it asks for is answered alike before and after that.
    have hrest : Shared after := fun h hmem => hshared h (hafter h hmem)
    obtain ⟨hanswer, hgist⟩ := hrest.finish_answer hr w
    have hworld := hagrees.world
    rw [finish_append] at hworld ⊢
    refine Eq.trans (finish_congr ?_ before) hworld
    show ((next (w.answer r).1).run (finish after (w.answer r).2)).2.gist =
      ((next ((finish after w).answer r).1).run ((finish after w).answer r).2).2.gist
    rw [hanswer]
    exact (World.run_congr hgist.symm _).2
  case values =>
    have hothers : ∀ other ∈ before ++ asking :: after,
        (other.body.run (w.answer r).2).1 = (other.body.run w).1 := by
      intro other hmem
      exact (World.run_answer (hshared other hmem).2 hr w).2.1
    rcases List.mem_append.1 hmem with hmem | hmem
    · rw [hothers h (hbefore h hmem)]
      exact hagrees.values h (hbefore h hmem)
    · rcases List.mem_cons.1 hmem with rfl | hmem
      · exact hagrees.values asking (by simp [asking])
      · rw [hothers h (hafter h hmem)]
        exact hagrees.values h (hafter h hmem)

/-- A request of a holder keeps the agreement, with what the holder goes on with. -/
theorem Agrees.answer {who : Nat} {op : Operation} {r : Request}
    {next : r.Answer → Transaction Result}
    (hagrees : Agrees settings w₀ w granted
      (before ++ ⟨who, op, Script.ask (S := signature) r next⟩ :: after)) :
    Agrees settings w₀ (w.answer r).2 granted
      (before ++ ⟨who, op, next (w.answer r).1⟩ :: after) := by
  rcases hagrees.shape with hshared | halone
  · exact hagrees.answer_shared hshared
  · obtain ⟨rfl, rfl⟩ := halone.eq_nil
    exact hagrees.answer_alone halone

/-- A holder that came to its end leaves, and the agreement is kept. -/
theorem Agrees.leave {who : Nat} {op : Operation} {value : Result}
    (hagrees : Agrees settings w₀ w granted (before ++ ⟨who, op, .done value⟩ :: after)) :
    Agrees settings w₀ w granted (before ++ after) ∧
      (who, value) ∈ (serially settings granted w₀).1 := by
  let leaving : Holder := ⟨who, op, .done value⟩
  have hothers : ∀ h ∈ before ++ after, h ∈ before ++ leaving :: after := by
    intro h hmem
    rcases List.mem_append.1 hmem with hmem | hmem
    · exact List.mem_append_left _ hmem
    · exact List.mem_append_right _ (List.mem_cons_of_mem _ hmem)
  refine ⟨⟨?_, ?_, fun h hmem => hagrees.values h (hothers h hmem)⟩, ?_⟩
  · rcases hagrees.shape with hshared | halone
    · exact .inl fun h hmem => hshared h (hothers h hmem)
    · obtain ⟨rfl, rfl⟩ := halone.eq_nil
      exact .inl fun h hmem => absurd hmem List.not_mem_nil
  · have hworld := hagrees.world
    rw [finish_append] at hworld ⊢
    exact hworld
  · exact hagrees.values leaving (by simp [leaving])

/-- Who is let in beside holders is a reader, as they are. -/
theorem Holder.shared_of_admits {op : Operation} (hshape : Shared holders ∨ Alone holders w)
    (hop : op.access = some .shared)
    (hadmits : FairLock.admits { holders := holders.map Holder.entry } op.mode = true) :
    Shared holders := by
  rcases hshape with hshared | ⟨h, -, -, rfl, haccess, -⟩
  · exact hshared
  · simp [FairLock.admits, Operation.mode, Holder.entry, hop, haccess] at hadmits

/-- An operation that is let in keeps the agreement. -/
theorem Agrees.grant (hagrees : Agrees settings w₀ w granted holders) (who : Nat)
    {op : Operation} (hop : op.access.isSome)
    (hadmits : FairLock.admits { holders := holders.map Holder.entry } op.mode = true) :
    Agrees settings w₀ w (granted ++ [(who, op)]) (enters settings (who, op) :: holders) := by
  obtain ⟨access, haccess⟩ := Option.isSome_iff_exists.1 hop
  -- Its work would come after that of the holders, and ends there as it would end now.
  obtain ⟨hshape, hvalue⟩ : (Shared (enters settings (who, op) :: holders) ∨
      Alone (enters settings (who, op) :: holders) w) ∧
      ((op.work settings).run (finish holders w)).1 = ((op.work settings).run w).1 := by
    cases access with
    | shared =>
      have hshared := shared_of_admits hagrees.shape haccess hadmits
      have hwork := Operation.reads_work settings haccess
      refine ⟨.inl fun h hmem => ?_, hshared.run_finish hwork w⟩
      rcases List.mem_cons.1 hmem with rfl | hmem
      · exact ⟨haccess, hwork⟩
      · exact hshared h hmem
    | exclusive =>
      have hnobody : holders = [] := by
        simpa [FairLock.admits, Operation.mode, haccess] using hadmits
      subst hnobody
      exact ⟨.inr ⟨_, w.account, w.backend, rfl, haccess, World.fits_account,
        op.ensures_unlocking settings _⟩, rfl⟩
  obtain ⟨hresult, hworld⟩ := World.run_congr hagrees.world (op.work settings)
  refine { shape := hshape, world := ?world, values := fun h hmem => ?values }
  case world =>
    rw [serially_concat]
    exact hworld
  case values =>
    rw [serially_concat]
    rcases List.mem_cons.1 hmem with rfl | hmem
    · refine List.mem_append_right _ (List.mem_singleton.2 ?_)
      show (who, ((op.work settings).run w).1) = _
      rw [← hvalue, hresult]
    · exact List.mem_append_left _ (hagrees.values h hmem)

/-- When the lock is handed over, the first of those who wait are let in, in their order, and the
agreement is kept. -/
theorem Agrees.handOver (hagrees : Agrees settings w₀ w granted holders)
    (waiting : List (Nat × Operation)) (hwaiting : ∀ e ∈ waiting, e.2.access.isSome) :
    ∃ news rest, waiting = news ++ rest ∧
      FairLock.handOver (holders.map Holder.entry) (waiting.map entryOf) =
        { holders := ((news.map (enters settings)).reverse ++ holders).map Holder.entry
          queue := rest.map entryOf } ∧
      Agrees settings w₀ w (granted ++ news)
        ((news.map (enters settings)).reverse ++ holders) := by
  induction waiting generalizing granted holders with
  | nil =>
    refine ⟨[], [], rfl, rfl, ?_⟩
    rw [List.append_nil]
    exact hagrees
  | cons e waiting ih =>
    obtain ⟨who, op⟩ := e
    have hop : op.access.isSome := hwaiting (who, op) List.mem_cons_self
    rw [List.map_cons, entryOf, FairLock.handOver]
    split
    · next hadmits =>
      obtain ⟨news, rest, hsplit, hlock, hrest⟩ := ih (hagrees.grant who hop hadmits)
        fun e hmem => hwaiting e (List.mem_cons_of_mem _ hmem)
      have hholders : (((who, op) :: news).map (enters settings)).reverse ++ holders =
          (news.map (enters settings)).reverse ++ enters settings (who, op) :: holders := by
        rw [List.map_cons, List.reverse_cons, List.append_assoc]
        rfl
      refine ⟨(who, op) :: news, rest, by rw [hsplit]; rfl, ?_, ?_⟩
      · rw [hholders]
        exact hlock
      · rw [hholders, List.append_cons]
        exact hrest
    · exact ⟨[], (who, op) :: waiting, rfl, rfl, by rw [List.append_nil]; exact hagrees⟩

end Agrees

end Caretaker.Crew
