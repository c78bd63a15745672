import Caretaker.Proofs.ReleaseRef

/-!
# Pulling from one registry and another

What is pulled from a registry is a ref again, and it can be pulled from another registry.  The name
of a registry is any text: there may be slashes and marks in it, and it may be empty.  It stands in
front of the last slash, so a second reading finds the repository and the digest of the first one,
and only the registry that was named last is left.

Whether a ref is refused, and why, is told by the ref alone.

Main definitions:

- `LastMark`: what a ref has before and after its last mark.
- `Refused`: the refs that are refused, each with the one cause it is refused with.

Main statements:

- `refIn_eq_error_iff`: a ref is refused in any registry exactly as it is refused by itself.
- `pulled_from_last_registry`: the last registry counts, with the repository and the digest of the
  ref, and causes are the same in all of them.
-/

namespace Caretaker.Registry

variable {ref : String}

/-! ## Refused refs -/

/-- What a ref has before and after the last `@sha256:` in it. -/
structure LastMark (ref : String) (name digest : List Char) : Prop where
  text : ref.toList = name ++ digestMark ++ digest
  isLast : ∀ name' digest', ref.toList = name' ++ digestMark ++ digest' →
    name'.length ≤ name.length

/-- A ref that is refused, and the cause.  A repository is looked at only behind the last slash, and
only when the digest is one. -/
inductive Refused (ref : String) : Fault → Prop where
  | missingDigest (hmark : ¬ digestMark <:+: ref.toList) : Refused ref (.missingDigest ref)
  | invalidDigest {name digest : List Char} (hmark : LastMark ref name digest)
      (hdigest : ¬ IsDigestText digest) : Refused ref (.invalidDigest ref)
  | invalidRepository {path? : Option (List Char)} {repository digest : List Char}
      (hmark : LastMark ref (leading path? ++ repository) digest) (hdigest : IsDigestText digest)
      (hslash : '/' ∉ repository) (hrepository : ¬ IsRepositoryName repository) :
      Refused ref (.invalidRepository ref)

theorem LastMark.splitLast? {name digest : List Char} (h : LastMark ref name digest) :
    Text.splitLast? digestMark ref.toList = some (name, digest) := by
  have hsome := Text.isSome_splitLast? digestMark name digest
  rw [← h.text] at hsome
  obtain ⟨⟨name', digest'⟩, hfound⟩ := Option.isSome_iff_exists.1 hsome
  -- each of the two occurrences is the last one, so they start at one place
  have htext := Text.append_of_splitLast? hfound
  have hle := h.isLast name' digest' htext
  have hge := Text.length_le_of_splitLast? hfound h.text
  rw [h.text, List.append_assoc, List.append_assoc] at htext
  obtain ⟨hname, hrest⟩ := List.append_inj htext (Nat.le_antisymm hge hle)
  have hdigest : digest = digest' := List.append_cancel_left hrest
  rw [hfound, hname, hdigest]

theorem lastMark_of_splitLast? {name digest : List Char}
    (h : Text.splitLast? digestMark ref.toList = some (name, digest)) :
    LastMark ref name digest where
  text := Text.append_of_splitLast? h
  isLast _ _ hother := Text.length_le_of_splitLast? h hother

/-- A ref is refused in any registry exactly as it is refused by itself. -/
theorem refIn_eq_error_iff (registry ref : String) (fault : Fault) :
    refIn registry ref = .error fault ↔ Refused ref fault := by
  constructor
  · intro h
    unfold refIn at h
    split at h
    next hnone =>
      cases h
      refine .missingDigest ?_
      rintro ⟨name, digest, hmark⟩
      have hsome := Text.isSome_splitLast? digestMark name digest
      rw [hmark, hnone] at hsome
      cases hsome
    next name digest hsplit =>
      have hmark := lastMark_of_splitLast? hsplit
      dsimp only at h
      split at h
      next hdigest =>
        cases h
        refine .invalidDigest hmark ?_
        rw [← isDigest_iff]
        simpa using hdigest
      next hdigest =>
        split at h
        next hrepository =>
          cases h
          obtain ⟨path?, hname⟩ := exists_leading name
          rw [hname] at hmark
          refine .invalidRepository hmark (isDigest_iff.1 (by simpa using hdigest))
            (Text.notMem_afterLast '/' name) ?_
          rw [← isRepository_iff]
          simpa using hrepository
        · cases h
  · intro h
    unfold refIn
    cases h with
    | missingDigest hmark =>
      cases hsplit : Text.splitLast? digestMark ref.toList with
      | none => rfl
      | some parts => exact absurd ⟨_, _, (Text.append_of_splitLast? hsplit).symm⟩ hmark
    | invalidDigest hmark hdigest =>
      rw [← isDigest_iff] at hdigest
      rw [hmark.splitLast?]
      simp [hdigest]
    | invalidRepository hmark hdigest hslash hrepository =>
      rw [← isRepository_iff] at hrepository
      rw [hmark.splitLast?]
      simp [isDigest_iff.2 hdigest, afterLast_leading _ hslash, hrepository]

/-! ## One registry after another -/

/-- The parts of what is pulled are those of the ref, with the registry in front. -/
theorem Reads.pulled_reads {path? : Option (List Char)} {repository digest : List Char}
    (h : Reads ref path? repository digest) (registry : String) :
    Reads (written (some registry.toList) repository digest) (some registry.toList) repository
      digest :=
  { h with text := rfl }

/-- What is pulled from a registry is the repository and the digest of the ref behind the name of
the registry.  From there it is pulled from any registry as the ref itself is, so the registry that
was named last counts, and naming the same one again changes nothing.  Whether a ref is pulled, and
what it is refused for, is the same for every registry: it is told by the ref, the digest before the
repository, and each cause carries the ref. -/
theorem pulled_from_last_registry (ref : String) :
    (∀ second pulled, refIn second ref = .ok pulled →
      (∀ first, refIn first pulled = refIn first ref) ∧
      refIn second pulled = .ok pulled ∧
      ∃ path? repository digest, Reads ref path? repository digest ∧
        Reads pulled (some second.toList) repository digest) ∧
    (∀ registry, (∃ pulled, refIn registry ref = .ok pulled) ↔
      ∃ path? repository digest, Reads ref path? repository digest) ∧
    (∀ registry fault, refIn registry ref = .error fault ↔ Refused ref fault) := by
  refine ⟨fun second pulled h => ?_, fun registry => ⟨?_, ?_⟩, fun registry fault =>
    refIn_eq_error_iff registry ref fault⟩
  · obtain ⟨path?, repository, digest, hreads⟩ := exists_reads h
    have hpulled : pulled = written (some second.toList) repository digest :=
      Except.ok.inj (h.symm.trans (hreads.pulled second))
    subst hpulled
    have hagain := hreads.pulled_reads second
    exact ⟨fun first => (hagain.pulled first).trans (hreads.pulled first).symm,
      hagain.pulled second, path?, repository, digest, hreads, hagain⟩
  · rintro ⟨pulled, h⟩
    exact exists_reads h
  · rintro ⟨path?, repository, digest, hreads⟩
    exact ⟨_, hreads.pulled registry⟩

/-- A registry with a slash and a mark in its name, and then one without a name. -/
theorem pulled_from_last_registry_marked :
    let digest := List.replicate 64 'a'
    let ref := written none "nginx".toList digest
    let pulled := written (some "disco/@sha256:".toList) "nginx".toList digest
    refIn "disco/@sha256:" ref = .ok pulled ∧ refIn "" pulled = refIn "" ref := by
  intro digest ref pulled
  have hreads : Reads ref none "nginx".toList digest :=
    { text := rfl
      repository := isRepository_iff.1 (by decide)
      digest := isDigest_iff.1 (by decide) }
  have hpulled : refIn "disco/@sha256:" ref = .ok pulled := hreads.pulled _
  exact ⟨hpulled, ((pulled_from_last_registry ref).1 _ _ hpulled).1 ""⟩

end Caretaker.Registry
