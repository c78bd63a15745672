import Mathlib.Data.List.Forall2
import Caretaker.Proofs.Attempts

/-!
# The requests of a start

The requests that start a container follow a plan: containers are listed, those that bear the name
are removed in the order of the list, a container is created, its files go into it if there are any,
and it is started.  The first request that fails is the last one, and its fault is the result.  It
is no failure that a container to be removed is not there.

What the plan is depends on two answers: the containers that are listed and the id of the one that
is created.

Main definitions:

- `Planned.Follows`: how attempts follow a plan, and what comes of it.
- `startPlan`: the requests of a start.

Main statements:

- `tries_start`: a start follows its plan, however requests end.
- `start_follows_plan`: on a scripted engine, a start sends the requests of its plan up to the first
  that fails.
-/

namespace Caretaker.Engine

open Container (Call Fault)
open Script
open Fallible (ofExchange)

/-! ## Plans -/

/-- A request of a plan, with what the end of it means. -/
structure Planned where
  request : Request
  verdict : Outcome → Except Fault Unit

namespace Planned

/-- A request whose answer has to be one that `reader` can read. -/
def reading {α : Type} (request : Request) (reader : Json.Spelled → Option α) : Planned where
  request := request
  verdict outcome := ((outcome.read reader).mapError .engine).map fun _ => ()

/-- A request that has to succeed. -/
def telling (request : Request) : Planned where
  request := request
  verdict outcome := (outcome.body.mapError .engine).map fun _ => ()

/-- The removal of a container, which may be gone already. -/
def removing (id : String) : Planned where
  request := .remove id
  verdict outcome := orMissing (.ok ()) (outcome.body.map fun _ => ())

/-- An attempt at a request of a plan. -/
def tried (planned : Planned) (outcome : Outcome) : Sent :=
  ⟨planned.request, requestLimit, outcome⟩

/-- Whether an attempt was planned and went well. -/
def Passes (planned : Planned) (attempt : Sent) : Prop :=
  ∃ outcome, attempt = planned.tried outcome ∧ planned.verdict outcome = .ok ()

/-- How attempts follow a plan, and what comes of it. -/
inductive Follows (plan : List Planned) : List Sent → Except Fault Unit → Prop where
  /-- Every request of the plan is tried, and all go well. -/
  | completed {sent : List Sent} (hsent : List.Forall₂ Passes plan sent) :
      Follows plan sent (.ok ())
  /-- A request fails, and is the last one. -/
  | failed {before : List Planned} {sent : List Sent} (planned : Planned) (outcome : Outcome)
      (cause : Fault) (hplan : before ++ [planned] <+: plan)
      (hsent : List.Forall₂ Passes before sent)
      (hverdict : planned.verdict outcome = .error cause) :
      Follows plan (sent ++ [planned.tried outcome]) (.error cause)

section Follows

variable {plan plan' : List Planned} {sent sent' : List Sent} {result : Except Fault Unit}

theorem follows_nil : Follows [] [] (.ok ()) := .completed .nil

theorem follows_single {planned : Planned} {outcome : Outcome}
    (h : planned.verdict outcome = result) : Follows [planned] [planned.tried outcome] result := by
  cases result with
  | ok => exact .completed (.cons ⟨outcome, rfl, h⟩ .nil)
  | error cause =>
    have hbefore : List.Forall₂ Passes [] [] := .nil
    refine .failed planned outcome cause ?_ hbefore h
    exact List.prefix_refl _

theorem follows_reading {α : Type} {request : Request} {reader : Json.Spelled → Option α}
    {outcome : Outcome} {read : Except EngineFault α} (h : outcome.read reader = read) :
    Follows [.reading request reader] [⟨request, requestLimit, outcome⟩]
      ((read.mapError .engine).map fun _ => ()) := by
  have hverdict : (Planned.reading request reader).verdict outcome =
      (read.mapError .engine).map fun _ => () := by
    rw [← h]
    rfl
  exact follows_single hverdict

/-- Behind a plan that was completed another one is followed. -/
theorem Follows.append (h : Follows plan sent (.ok ())) (h' : Follows plan' sent' result) :
    Follows (plan ++ plan') (sent ++ sent') result := by
  cases h with
  | completed hsent =>
    cases h' with
    | completed hsent' => exact .completed (List.rel_append hsent hsent')
    | @failed before sent' planned outcome cause hplan hsent' hverdict =>
      have hbefore : List.Forall₂ Passes (plan ++ before) (sent ++ sent') :=
        List.rel_append hsent hsent'
      rw [← List.append_assoc]
      refine .failed planned outcome cause ?_ hbefore hverdict
      rw [List.append_assoc]
      exact (List.prefix_append_right_inj plan).2 hplan

/-- After a failure nothing more is tried. -/
theorem Follows.stop {cause : Fault} (h : Follows plan sent (.error cause))
    (plan' : List Planned) : Follows (plan ++ plan') sent (.error cause) := by
  cases h with
  | failed planned outcome cause hplan hsent hverdict =>
    exact .failed planned outcome cause (hplan.trans (List.prefix_append _ _)) hsent hverdict

end Follows
end Planned

/-! ## The plan of a start -/

/-- The removals of the containers of a list that bear a name.  What a container of a list bears is
the first of its names, without the slashes it starts with. -/
def removalPlan (name : String) (containers : List ContainerInfo) : List Planned :=
  (containers.filter (·.name == name)).map fun container => .removing container.id

/-- The requests that put files into a container. -/
def uploadPlan (id : String) (files : Dictionary (List UInt8)) (archive : List UInt8) :
    List Planned :=
  if files.isEmpty then [] else [.telling (.upload id archive)]

/-- The requests that start a container from a descriptor, when its files make an archive, the
containers of the list are `containers` and the container that is created has some id. -/
def startPlan (d : Descriptor) (archive : List UInt8) (containers : List ContainerInfo)
    (id : String) : List Planned :=
  [.reading (.list (filter "name" d.name)) (Json.Tree.list? Answer.summary?)]
    ++ removalPlan d.name containers
    ++ [.reading (.create d) Answer.createdId?]
    ++ (uploadPlan id d.files archive ++ [.telling (.start id)])

/-- Whether the engine answered the list with `containers` and gave `id` to the container that it
created, as far as it came to that. -/
structure StartAnswers (d : Descriptor) (containers : List ContainerInfo) (id : String)
    (sent : List Sent) : Prop where
  listed : ∀ attempt ∈ sent, attempt.request = .list (filter "name" d.name) →
    ∀ containers', attempt.outcome.read (Json.Tree.list? Answer.summary?) = .ok containers' →
      containers' = containers
  created : ∀ attempt ∈ sent, attempt.request = .create d →
    ∀ id', attempt.outcome.read Answer.createdId? = .ok id' → id' = id

/-- How the attempts of a start go that follow a part of its plan. -/
structure Course (d : Descriptor) (containers : List ContainerInfo) (id : String)
    (plan : List Planned) (sent : List Sent) (result : Except Fault Unit) : Prop where
  answers : StartAnswers d containers id sent
  follows : Planned.Follows plan sent result

/-- How a start follows its plan: its result and its requests. -/
def Starts (d : Descriptor) (archive : List UInt8) (result : Except Fault Handle)
    (sent : List Sent) : Prop :=
  ∃ containers id,
    Course d containers id (startPlan d archive containers id) sent (result.map fun _ => ()) ∧
    ∀ handle, result = .ok handle → handle = ⟨id, d.name, d⟩

section Course

variable {d : Descriptor} {containers : List ContainerInfo} {id : String}
  {plan plan' : List Planned} {sent sent' : List Sent} {result : Except Fault Unit}
  {outcome : Outcome}

theorem course_nil : Course d containers id [] [] (.ok ()) where
  answers := ⟨nofun, nofun⟩
  follows := Planned.follows_nil

theorem Course.append (h : Course d containers id plan sent (.ok ()))
    (h' : Course d containers id plan' sent' result) :
    Course d containers id (plan ++ plan') (sent ++ sent') result where
  answers :=
    { listed := fun attempt hmem =>
        (List.mem_append.1 hmem).elim (h.answers.listed attempt) (h'.answers.listed attempt)
      created := fun attempt hmem =>
        (List.mem_append.1 hmem).elim (h.answers.created attempt) (h'.answers.created attempt) }
  follows := h.follows.append h'.follows

theorem Course.stop {cause : Fault} (h : Course d containers id plan sent (.error cause))
    (plan' : List Planned) : Course d containers id (plan ++ plan') sent (.error cause) :=
  ⟨h.answers, h.follows.stop plan'⟩

/-- A request for something else than a list or a new container tells neither. -/
theorem course_aside {planned : Planned} (hget : planned.request.method ≠ .get)
    (hjson : ∀ value, planned.request.body ≠ .json value)
    (hverdict : planned.verdict outcome = result) :
    Course d containers id [planned] [planned.tried outcome] result where
  answers :=
    { listed := fun attempt hmem hrequest => by
        obtain rfl := List.mem_singleton.1 hmem
        exact absurd (congrArg Request.method hrequest) hget
      created := fun attempt hmem hrequest => by
        obtain rfl := List.mem_singleton.1 hmem
        exact absurd (congrArg Request.body hrequest) (hjson _) }
  follows := Planned.follows_single hverdict

theorem course_list {listed : Except EngineFault (List ContainerInfo)}
    (hread : outcome.read (Json.Tree.list? Answer.summary?) = listed)
    (hcontainers : ∀ containers', listed = .ok containers' → containers' = containers) :
    Course d containers id
      [.reading (.list (filter "name" d.name)) (Json.Tree.list? Answer.summary?)]
      [⟨.list (filter "name" d.name), requestLimit, outcome⟩]
      ((listed.mapError .engine).map fun _ => ()) where
  answers :=
    { listed := fun attempt hmem _ containers' h => by
        obtain rfl := List.mem_singleton.1 hmem
        exact hcontainers containers' (hread.symm.trans h)
      created := fun attempt hmem hrequest => by
        obtain rfl := List.mem_singleton.1 hmem
        cases congrArg Request.method hrequest }
  follows := Planned.follows_reading hread

theorem course_create {created : Except EngineFault String}
    (hread : outcome.read Answer.createdId? = created)
    (hid : ∀ id', created = .ok id' → id' = id) :
    Course d containers id [.reading (.create d) Answer.createdId?]
      [⟨.create d, requestLimit, outcome⟩] ((created.mapError .engine).map fun _ => ()) where
  answers :=
    { listed := fun attempt hmem hrequest => by
        obtain rfl := List.mem_singleton.1 hmem
        cases congrArg Request.method hrequest
      created := fun attempt hmem _ id' h => by
        obtain rfl := List.mem_singleton.1 hmem
        exact hid id' (hread.symm.trans h) }
  follows := Planned.follows_reading hread

end Course

/-! ## The parts of a start -/

theorem run_remove (id : String) :
    (remove id).run = (Planned.removing id).verdict <$> send (.remove id) requestLimit := by
  rw [remove, run_orOn, tell_eq_map, Functor.map_map]
  rfl

section Start

variable (d : Descriptor) (containers : List ContainerInfo)

/-- The containers of a name are removed one after the other. -/
theorem tries_removeNamesakes (namesakes : List ContainerInfo) (before : List Sent) :
    (removeNamesakes d.name namesakes).run.Ensures Attempts.rule (fun result after =>
      ∃ sent, after = before ++ sent ∧
        ∀ id, Course d containers id (removalPlan d.name namesakes) sent result) before := by
  induction namesakes generalizing before with
  | nil => exact ⟨[], (List.append_nil _).symm, fun id => course_nil⟩
  | cons container rest ih =>
    unfold removeNamesakes
    by_cases hname : container.name == d.name
    · have hplan : removalPlan d.name (container :: rest) =
          [.removing container.id] ++ removalPlan d.name rest := by
        simp [removalPlan, hname]
      simp only [hplan, hname, if_true, ensures_run_bind, tries_note, run_remove, tries_send]
      intro outcome
      have hcourse (id : String) (result : Except Fault Unit) :=
        @course_aside d containers id result outcome (.removing container.id) nofun nofun
      -- The first removal that fails ends the plan; the others are those of the rest of the list.
      cases hverdict : (Planned.removing container.id).verdict outcome with
      | error cause => exact ⟨_, rfl, fun id => (hcourse id _ hverdict).stop _⟩
      | ok =>
        refine (ih _).mono Attempts.rule_monotone ?_
        rintro result _ ⟨sent, rfl, hrest⟩
        exact ⟨_, List.append_assoc _ _ _, fun id => (hcourse id _ hverdict).append (hrest id)⟩
    · have hplan : removalPlan d.name (container :: rest) = removalPlan d.name rest := by
        simp [removalPlan, hname]
      rw [hplan, if_neg hname]
      exact ih before

variable (id : String) {archive : List UInt8} (harchive : Archive.ofFiles d.files = .ok archive)
include harchive

/-- The files of a descriptor go into a container as an archive, if there are any. -/
theorem tries_upload (before : List Sent) :
    (upload id d.files).run.Ensures Attempts.rule (fun result after =>
      ∃ sent, after = before ++ sent ∧
        Course d containers id (uploadPlan id d.files archive) sent result) before := by
  unfold upload uploadPlan
  split
  · exact ⟨[], (List.append_nil _).symm, course_nil⟩
  · have hready : (ExceptT.mk (pure ((Archive.ofFiles d.files).mapError Fault.io)) :
        Fallible (List UInt8)) = pure archive := by
      rw [harchive]
      rfl
    rw [hready, pure_bind, run_telling, tries_send]
    exact fun outcome => ⟨_, rfl, course_aside nofun nofun rfl⟩

/-- A container that was created gets its files, and then it is started. -/
theorem tries_launch (before : List Sent) :
    (do
      upload id d.files
      ofExchange (tell (.start id))
      note .info "Container started"
        [("container_id", id), ("name", d.name), ("image", d.image)]
      return ⟨id, d.name, d⟩ : Fallible Handle).run.Ensures Attempts.rule (fun result after =>
        ∃ sent, after = before ++ sent ∧
          Course d containers id (uploadPlan id d.files archive ++ [.telling (.start id)]) sent
            (result.map fun _ => ()) ∧
          ∀ handle, result = .ok handle → handle = ⟨id, d.name, d⟩) before := by
  rw [ensures_run_bind]
  refine (tries_upload d containers id harchive before).mono Attempts.rule_monotone ?_
  rintro (cause | ⟨⟩) _ ⟨uploaded, rfl, huploaded⟩
  · exact ⟨uploaded, rfl, huploaded.stop _, nofun⟩
  · simp only [ensures_run_bind, run_telling, tries_send, tries_note]
    intro outcome
    have hcourse (result : Except Fault Unit) :=
      @course_aside d containers id result outcome (.telling (.start id)) nofun nofun
    cases hstarted : (outcome.body.mapError Fault.engine).map fun _ => () with
    | error cause =>
      exact ⟨_, List.append_assoc _ _ _, huploaded.append (hcourse _ hstarted), nofun⟩
    | ok =>
      exact ⟨_, List.append_assoc _ _ _, huploaded.append (hcourse _ hstarted),
        fun handle h => (Except.ok.inj h).symm⟩

/-- However requests end, a start follows its plan. -/
theorem tries_start : (start d).run.Ensures Attempts.rule (Starts d archive) [] := by
  unfold start list
  rw [ensures_run_bind, run_reading, tries_send]
  intro listed
  cases hlisted : listed.read (Json.Tree.list? Answer.summary?) with
  | error fault =>
    -- The plan is cut off before what was not answered, so that may be anything.
    have hlist : Course d [] "" _ _ _ := course_list hlisted nofun
    exact ⟨[], "", ((hlist.stop _).stop _).stop _, nofun⟩
  | ok containers =>
  have hlist (id : String) : Course d containers id _ _ _ :=
    course_list hlisted fun _ h => (Except.ok.inj h).symm
  show Script.Ensures _ _ (ExceptT.run (_ >>= _)) _
  rw [ensures_run_bind]
  refine (tries_removeNamesakes d containers containers _).mono Attempts.rule_monotone ?_
  rintro (cause | ⟨⟩) _ ⟨removed, rfl, hremoved⟩
  · exact ⟨containers, "", (((hlist "").append (hremoved "")).stop _).stop _, nofun⟩
  show Script.Ensures _ _ (ExceptT.run (_ >>= _)) _
  rw [ensures_run_bind, run_reading, tries_send]
  intro created
  cases hcreated : created.read Answer.createdId? with
  | error fault =>
    have hcreate : Course d containers "" _ _ _ := course_create hcreated nofun
    exact ⟨containers, "", (((hlist "").append (hremoved "")).append hcreate).stop _, nofun⟩
  | ok id =>
  have hcreate : Course d containers id _ _ _ :=
    course_create hcreated fun _ h => (Except.ok.inj h).symm
  refine (tries_launch d containers id harchive _).mono Attempts.rule_monotone ?_
  rintro result _ ⟨launched, rfl, hlaunched, hhandle⟩
  exact ⟨containers, id, (((hlist id).append (hremoved id)).append hcreate).append hlaunched,
    hhandle⟩

/-- On a scripted engine, a start sends the requests of its plan up to the first that fails, whose
fault is the result.  The plan is that for the containers that were listed and the id of the one
that was created; where nothing fails, the handle is one to that container. -/
theorem start_follows_plan (e : Scripted) :
    let reply := Scripted.perform (.start d) e
    ∃ tried, e.Tried tried reply.state ∧ ∃ containers id,
      StartAnswers d containers id tried ∧
      Planned.Follows (startPlan d archive containers id) tried (reply.answer.map fun _ => ()) ∧
      ∀ handle, reply.answer = .ok handle → handle = ⟨id, d.name, d⟩ := by
  obtain ⟨tried, htried, containers, id, hcourse, hhandle⟩ :=
    @Scripted.tried_perform (.start d) e _ (tries_start d harchive)
  exact ⟨tried, htried, containers, id, hcourse.answers, hcourse.follows, hhandle⟩

end Start

namespace Sample

/-- An engine with a container of the name `web`, and with one that has it in its own. -/
def withNamesake : Scripted where
  reactions :=
    [.answering 200 "[\x7b\"Id\":\"a\",\"Names\":[\"/webhook\"]\x7d,
        \x7b\"Id\":\"b\",\"Names\":[\"/web\"]\x7d]",
      .answering 404 "", .answering 201 "\x7b\"Id\":\"c\",\"Warnings\":[]\x7d", .answering 200 "",
      .answering 204 ""]

/-- A container with a file. -/
def web : Descriptor := { name := "web", files := { entries := [("etc/hosts", [10])] } }

end Sample

/-- Only the container of the name is removed, and it may be gone; the file is there before the
start. -/
theorem start_follows_plan_withNamesake :
    let reply := Scripted.perform (.start Sample.web) Sample.withNamesake
    ∃ archive, Archive.ofFiles Sample.web.files = .ok archive ∧
      reply.answer = .ok ⟨"c", "web", Sample.web⟩ ∧
      reply.state.requests.reverse.map (fun request => (request.method, request.path)) =
        [(.get, "/containers/json"), (.delete, "/containers/b"), (.post, "/containers/create"),
          (.put, "/containers/c/archive"), (.post, "/containers/c/start")] ∧
      ∃ tried, Sample.withNamesake.Tried tried reply.state ∧ ∃ containers id,
        StartAnswers Sample.web containers id tried ∧
        Planned.Follows (startPlan Sample.web archive containers id) tried
          (reply.answer.map fun _ => ()) ∧
        ∀ handle, reply.answer = .ok handle → handle = ⟨id, Sample.web.name, Sample.web⟩ := by
  intro reply
  obtain ⟨archive, harchive⟩ : ∃ archive, Archive.ofFiles Sample.web.files = .ok archive := by
    cases h : Archive.ofFiles Sample.web.files with
    | ok archive => exact ⟨archive, rfl⟩
    | error message =>
      have hok : (Archive.ofFiles Sample.web.files).isOk = true := by decide +kernel
      rw [h] at hok
      cases hok
  exact ⟨archive, harchive, by decide +kernel, by decide +kernel,
    start_follows_plan Sample.web harchive Sample.withNamesake⟩

end Caretaker.Engine
