import Caretaker.Engine.Scripted
import Caretaker.Proofs.Concealed

/-!
# Engines are blind to the passphrase

A client of an engine tells it of a file in an archive and nowhere else.  Engines that answer
without looking into archives cannot tell passphrases apart.

Main statements:

- `Archive.sameUpTo_ofFiles`: whether files make an archive depends on their names only.
- `alike_start`: a start sends requests that differ in archives at most.
- `Scripted.Alike.answer`: an engine that follows a script answers them alike.
-/

namespace Caretaker.Engine

open Container (Call Backend Blind)
open Script

/-! ## Archives -/

namespace Archive

/-- Whether a file fits into an archive, and with what in front, depends on its path. -/
theorem exists_fileEntries_eq (path : String) : ∃ front : Except String (Bytes × Bytes),
    ∀ contents, fileEntries path contents =
      front.map fun (before, name) => before ++ entry name .file contents := by
  cases hname : headerName false (Utf8.encode path) with
  | ok name => exact ⟨.ok ([], name), fun contents => by simp [fileEntries, hname, Except.map]⟩
  | error fault =>
    -- a name that is too long goes in front in full, and as much of it as fits into the header
    by_cases hshort : (Utf8.encode path).length < nameSize
    · exact ⟨.error (faultMessage fault), fun contents => by
        simp [fileEntries, hname, hshort, Except.map]⟩
    · cases hcut : headerName true (Utf8.wholePart ((Utf8.encode path).take nameSize)) with
      | ok name =>
        exact ⟨.ok (longName (Utf8.encode path), name), fun contents => by
          simp [fileEntries, hname, hshort, hcut, Except.map]⟩
      | error fault' =>
        exact ⟨.error (faultMessage fault'), fun contents => by
          simp [fileEntries, hname, hshort, hcut, Except.map]⟩

theorem sameUpTo_mapM {files files' : List (String × Bytes)}
    (h : files.map (·.1) = files'.map (·.1)) :
    SameUpTo (fun _ _ => True) (files.mapM fun (path, contents) => fileEntries path contents)
      (files'.mapM fun (path, contents) => fileEntries path contents) := by
  induction files generalizing files' with
  | nil =>
    cases files' with
    | nil => exact .ok trivial
    | cons file' files' => cases h
  | cons file files ih =>
    cases files' with
    | nil => cases h
    | cons file' files' =>
      obtain ⟨hpath, hfiles⟩ := List.cons.inj h
      -- both archives go on behind this file, or both stop at it
      obtain ⟨front, hfront⟩ := exists_fileEntries_eq file.1
      have hrest := ih hfiles
      simp only [List.mapM_cons, ← hpath, hfront]
      cases front with
      | error message => exact .error message
      | ok front =>
        rcases hrest.cases with
          ⟨entries, entries', hok, hok', -⟩ | ⟨message, herror, herror'⟩
        · simp only [hok, hok']
          exact .ok trivial
        · simp only [herror, herror']
          exact .error message

/-- Whether files make an archive depends on their names. -/
theorem sameUpTo_ofFiles {files files' : Dictionary Bytes} (h : files.keys = files'.keys) :
    SameUpTo (fun _ _ => True) (ofFiles files) (ofFiles files') := by
  have hentries := sameUpTo_mapM h
  unfold ofFiles
  rcases hentries.cases with ⟨entries, entries', hok, hok', -⟩ | ⟨message, herror, herror'⟩
  · simp only [hok, hok']
    exact .ok trivial
  · simp only [herror, herror']
    exact .error message

end Archive

/-! ## Requests -/

/-- A request without the bytes it carries. -/
def Request.concealed (request : Request) : Request :=
  match request.body with
  | .bytes _ => { request with body := .bytes [] }
  | _ => request

/-- Which needs of a client correspond: requests may differ in the bytes they carry. -/
inductive Need.Matches :
    (need need' : Need) → (need.Answer → need'.Answer → Prop) → Prop where
  | send {request request' : Request} (h : request.concealed = request'.concealed) (limit : Nat) :
      Matches (.send request limit) (.send request' limit) Eq
  | now : Matches .now .now Eq
  | pause (milliseconds : Nat) : Matches (.pause milliseconds) (.pause milliseconds) Eq
  | log (event : Event) : Matches (.log event) (.log event) Eq

theorem Need.matches_self (need : Need) : need.Matches need Eq := by
  cases need with
  | send request limit => exact .send rfl limit
  | now => exact .now
  | pause milliseconds => exact .pause milliseconds
  | log event => exact .log event

/-- Whether two actions of a client are alike. -/
abbrev Action.Alike {α α' : Type} (post : α → α' → Prop) (action : Action α)
    (action' : Action α') : Prop :=
  Script.Alike (S := signature) Need.Matches post action action'

theorem alike_self {α : Type} (action : Action α) : action.Alike Eq action :=
  alike_refl Need.matches_self action

/-! ## Starts -/

theorem alike_exchange {request request' : Request}
    (h : request.concealed = request'.concealed) :
    (exchange request).Alike Eq (exchange request') := by
  refine .ask (.send h requestLimit) fun outcome _ hsame => ?_
  subst hsame
  exact .done rfl

theorem alike_tell {request request' : Request} (h : request.concealed = request'.concealed) :
    (tell request).Alike Eq (tell request') := by
  refine .bind_eq (alike_exchange h) fun result => ?_
  exact .done rfl

/-- What may fail goes on like itself. -/
theorem alike_run_self {α : Type} (action : Fallible α) :
    Action.Alike (SameUpTo Eq) action.run action.run := by
  have hself : Action.Alike (SameUpTo Eq) (id <$> action.run) (id <$> action.run) :=
    .map (alike_self action.run) fun result _ hsame => hsame ▸ sameUpTo_refl (fun _ => rfl) result
  rw [id_map] at hself
  exact hself

/-- Files of the same names go into a container alike. -/
theorem alike_upload (id : String) {files files' : Dictionary (List UInt8)}
    (h : files.keys = files'.keys) :
    Action.Alike (SameUpTo Eq) (upload id files).run (upload id files').run := by
  have hempty : files.isEmpty = files'.isEmpty := by
    have hkeys : ∀ files : Dictionary (List UInt8), files.keys.isEmpty = files.isEmpty :=
      fun files => List.isEmpty_map
    rw [← hkeys files, h, hkeys files']
  unfold upload
  rw [hempty]
  split
  · -- nothing is sent where there is no file
    exact .done (.ok rfl)
  · refine Alike.run_bind (?_ : Action.Alike (SameUpTo fun _ _ => True) _ _)
      (fun archive archive' _ => ?_) .error
    · refine .done ?_
      rcases (Archive.sameUpTo_ofFiles h).cases with
        ⟨archive, archive', hok, hok', -⟩ | ⟨message, herror, herror'⟩
      · rw [hok, hok']
        exact .ok trivial
      · rw [herror, herror']
        exact .error _
    · have hupload : (Request.upload id archive).concealed =
          (Request.upload id archive').concealed := rfl
      refine .bind_eq (alike_tell hupload) fun result => ?_
      exact .done (sameUpTo_refl (fun _ => rfl) _)

/-- A container is started alike from descriptors that show the same. -/
theorem alike_start {d d' : Descriptor} (h : d.concealed = d'.concealed) :
    Action.Alike (SameUpTo fun handle handle' => handle.concealed = handle'.concealed)
      (start d).run (start d').run := by
  obtain ⟨hrest, hkeys, -⟩ := Descriptor.same_of_concealed h
  have hname : d.name = d'.name := by rw [← d.name_concealed, h, d'.name_concealed]
  have himage : d.image = d'.image := by rw [← d.image_concealed, h, d'.image_concealed]
  -- a container is created before its files are there, so they are not told of
  have hcreate : Request.create d = Request.create d' := by
    have hfiles : ∀ d : Descriptor, Request.create d = Request.create d.withoutFiles :=
      fun _ => rfl
    rw [hfiles d, hrest, hfiles d']
  unfold start
  rw [hname, himage, hcreate]
  refine Alike.run_bind_eq (alike_run_self _) (fun namesakes => ?_) .error
  refine Alike.run_bind_eq (alike_run_self _) (fun _ => ?_) .error
  refine Alike.run_bind_eq (alike_run_self _) (fun id => ?_) .error
  refine Alike.run_bind_eq (alike_upload id hkeys) (fun _ => ?_) .error
  refine Alike.run_bind_eq (alike_run_self _) (fun _ => ?_) .error
  refine Alike.run_bind_eq (alike_run_self _) (fun _ => ?_) .error
  refine .done (.ok ?_)
  show Handle.mk id d'.name d.concealed = Handle.mk id d'.name d'.concealed
  rw [h]

/-! ## Engines -/

namespace Scripted

/-- An engine without the bytes that were sent to it. -/
def concealed (e : Scripted) : Scripted := { e with requests := e.requests.map Request.concealed }

/-- Whether two engines differ in the bytes that were sent to them at most. -/
def Alike (e e' : Scripted) : Prop := e.concealed = e'.concealed

section

variable {e e' : Scripted} (h : e.Alike e')

include h

theorem Alike.timing : e.timing = e'.timing :=
  (congrArg Scripted.timing h : e.concealed.timing = e'.concealed.timing)

theorem Alike.events : e.events = e'.events :=
  (congrArg Scripted.events h : e.concealed.events = e'.concealed.events)

theorem Alike.withoutEvents : Alike { e with events := [] } { e' with events := [] } := by
  have hshown : e.concealed = e'.concealed := h
  exact congrArg (fun e : Scripted => { e with events := [] }) hshown

/-- An engine does not look at the bytes that are sent to it. -/
theorem Alike.answer {need need' : Need} {told : need.Answer → need'.Answer → Prop}
    (hneed : need.Matches need' told) :
    told (answer need e).1 (answer need' e').1 ∧
      (Scripted.answer need e).2.Alike (Scripted.answer need' e').2 := by
  obtain ⟨timing, reactions, requests, clock, hasSocket, events⟩ := e
  obtain ⟨timing', reactions', requests', clock', hasSocket', events'⟩ := e'
  simp only [Alike, concealed, mk.injEq] at h
  obtain ⟨rfl, rfl, hrequests, rfl, rfl, rfl⟩ := h
  unfold Alike
  cases hneed with
  | send h limit =>
    simp only [Scripted.answer, send]
    split
    · exact ⟨rfl, by simp only [concealed, hrequests]⟩
    · exact ⟨rfl, by simp only [concealed, List.map_cons, h, hrequests]⟩
  | _ => exact ⟨rfl, by simp only [Scripted.answer, concealed, hrequests]⟩

end

/-- A client sends bytes in archives only, so an engine that does not look at them is blind. -/
instance : Blind Scripted where
  alike := Alike
  refl _ := rfl
  perform := by
    intro c c' told e e' hc he
    -- a call runs its script on the engine, and what the script tells the log is read off after it
    have hreply : ∀ {post : c.Value → c'.Value → Prop},
        Action.Alike (SameUpTo post) (Engine.perform e.timing c).run
          (Engine.perform e'.timing c').run →
        (Scripted.perform c e).Alike Alike (SameUpTo post) (Scripted.perform c' e') := by
      intro post haction
      obtain ⟨hanswer, hstate⟩ := Script.Alike.run Alike (fun hneed he => Alike.answer he hneed)
        haction he.withoutEvents
      exact ⟨hanswer, hstate.withoutEvents, congrArg List.reverse hstate.events⟩
    cases hc with
    | same c h =>
      have hself : Action.Alike (SameUpTo Eq) (Engine.perform e.timing c).run
          (Engine.perform e'.timing c).run := by
        rw [he.timing]
        exact alike_run_self _
      have hsame := hreply hself
      exact { hsame with answer := hsame.answer.eq }
    | start hd => exact hreply (alike_start hd)

end Scripted

end Caretaker.Engine
