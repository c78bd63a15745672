import Caretaker.Registry

/-!
# What passes for the ref of a release

The ref of a release is a repository and a digest with `@sha256:` between them, and a host with a
slash may be in front.  Reading looks for the last mark and, in what is before it, for the last
slash.  So it finds the parts of every ref of a release; but whatever is before the last slash
passes for a host, also nothing at all, or a path in which there are more slashes.

Main definitions:

- `Reads`: a ref that is made up of a repository and a digest, with or without a path in front.
- `IsReleaseRef`, `IsNested`: refs in which a host is in front at most, and refs with another path.

Main statements:

- `Reads.unique`: a ref has one repository and digest, and one path in front of them.
- `accepted_iff_isReleaseRef_iff`: refs with another path are where reading takes more than the refs
  of releases.
- `nested_accepted`: a ref of which only the last part of the path is left.
-/

namespace Caretaker.Registry

open Text (splitLast? afterLast)

/-! ## The parts of a ref -/

/-- Lower-case letters and digits, at least one. -/
def IsRepositoryName (text : List Char) : Prop :=
  text ≠ [] ∧ ∀ c ∈ text, ('a' ≤ c ∧ c ≤ 'z') ∨ ('0' ≤ c ∧ c ≤ '9')

/-- Sixty-four lower-case hexadecimal digits. -/
def IsDigestText (text : List Char) : Prop :=
  text.length = 64 ∧ ∀ c ∈ text, ('0' ≤ c ∧ c ≤ '9') ∨ ('a' ≤ c ∧ c ≤ 'f')

theorem isRepository_iff {text : List Char} : isRepository text = true ↔ IsRepositoryName text := by
  simp [isRepository, isRepositoryChar, IsRepositoryName]

theorem isDigest_iff {text : List Char} : isDigest text = true ↔ IsDigestText text := by
  simp [isDigest, isDigestChar, IsDigestText]

theorem IsRepositoryName.notMem {text : List Char} (h : IsRepositoryName text) : '/' ∉ text := by
  intro hmem
  have hslash : ¬ (('a' ≤ '/' ∧ '/' ≤ 'z') ∨ ('0' ≤ '/' ∧ '/' ≤ '9')) := by decide
  exact hslash (h.2 _ hmem)

theorem IsDigestText.notMem {text : List Char} (h : IsDigestText text) : '@' ∉ text := by
  intro hmem
  have hat : ¬ (('0' ≤ '@' ∧ '@' ≤ '9') ∨ ('a' ≤ '@' ∧ '@' ≤ 'f')) := by decide
  exact hat (h.2 _ hmem)

/-- A path and the slash behind it, if there is a path. -/
def leading (path? : Option (List Char)) : List Char := (path?.map (· ++ ['/'])).getD []

/-- A repository and a digest with a mark between them, behind a path if there is one. -/
def written (path? : Option (List Char)) (repository digest : List Char) : String :=
  String.ofList (leading path? ++ repository ++ digestMark ++ digest)

/-- A ref that is made up of a repository and a digest, behind a path if there is one. -/
structure Reads (ref : String) (path? : Option (List Char)) (repository digest : List Char) :
    Prop where
  text : ref = written path? repository digest
  repository : IsRepositoryName repository
  digest : IsDigestText digest

/-- The ref of a release: what is in front, if anything, is a host. -/
def IsReleaseRef (ref : String) : Prop :=
  ∃ host? repository digest, Reads ref host? repository digest ∧
    ∀ host ∈ host?, host ≠ [] ∧ '/' ∉ host

/-- A ref with a path in front that is no host. -/
def IsNested (ref : String) : Prop :=
  ∃ path repository digest, Reads ref (some path) repository digest ∧ (path = [] ∨ '/' ∈ path)

theorem leading_injective {path? path?' : Option (List Char)} (h : leading path? = leading path?') :
    path? = path?' := by
  cases path? <;> cases path?' <;> simp_all [leading]

/-- Behind a path stands what has no slash in it. -/
theorem afterLast_leading (path? : Option (List Char)) {repository : List Char}
    (h : '/' ∉ repository) : afterLast '/' (leading path? ++ repository) = repository := by
  cases path? with
  | none => exact Text.afterLast_of_notMem h
  | some path =>
    have hpath : leading (some path) ++ repository = path ++ '/' :: repository := by
      simp [leading]
    rw [hpath, Text.afterLast_append, Text.afterLast_of_notMem h]

/-- A name is what it has behind its last slash, with a path in front or nothing. -/
theorem exists_leading (name : List Char) :
    ∃ path?, name = leading path? ++ afterLast '/' name := by
  rcases Text.eq_afterLast '/' name with hwhole | ⟨path, hpath⟩
  · exact ⟨none, hwhole⟩
  · exact ⟨some path, by simpa [leading] using hpath⟩

/-! ## Finding the parts -/

section Reads

variable {ref : String} {path? path?' : Option (List Char)}
  {repository repository' digest digest' : List Char}

/-- The last mark is the one before the digest, since there is no other one in the digest. -/
theorem Reads.splitLast? (h : Reads ref path? repository digest) :
    splitLast? digestMark ref.toList = some (leading path? ++ repository, digest) := by
  rw [h.text, written, String.toList_ofList]
  exact Text.splitLast?_append _ (by decide) h.digest.notMem

/-- The last slash is the one before the repository, since there is no other one in it. -/
theorem Reads.afterLast (h : Reads ref path? repository digest) :
    afterLast '/' (leading path? ++ repository) = repository :=
  afterLast_leading path? h.repository.notMem

/-- A ref has one repository and digest, and one path in front of them. -/
theorem Reads.unique (h : Reads ref path? repository digest)
    (h' : Reads ref path?' repository' digest') :
    path? = path?' ∧ repository = repository' ∧ digest = digest' := by
  have hsplit := h.splitLast?.symm.trans h'.splitLast?
  obtain ⟨hname, hdigest⟩ := Prod.mk.inj (Option.some.inj hsplit)
  have hrepository : repository = repository' := by
    rw [← h.afterLast, hname, h'.afterLast]
  subst hrepository
  exact ⟨leading_injective (List.append_cancel_right hname), rfl, hdigest⟩

/-- A ref that is made up so is pulled from the registry, whatever is in front. -/
theorem Reads.pulled (h : Reads ref path? repository digest) (registry : String) :
    refIn registry ref = .ok (written (some registry.toList) repository digest) := by
  unfold refIn
  rw [h.splitLast?]
  simp only [h.afterLast]
  simp [isDigest_iff.2 h.digest, isRepository_iff.2 h.repository, written, leading]

/-- What is pulled from a registry is made up so. -/
theorem exists_reads {registry pulled : String} (h : refIn registry ref = .ok pulled) :
    ∃ path? repository digest, Reads ref path? repository digest := by
  unfold refIn at h
  split at h
  · cases h
  next name digest hsplit =>
  dsimp only at h
  split at h
  · cases h
  next hdigest =>
  split at h
  · cases h
  next hrepository =>
  have htext : ref.toList = name ++ digestMark ++ digest := Text.append_of_splitLast? hsplit
  obtain ⟨path?, hpath⟩ := exists_leading name
  exact ⟨path?, Text.afterLast '/' name, digest,
    { text := by
        rw [written, ← hpath, ← String.toList_inj, String.toList_ofList]
        exact htext
      repository := isRepository_iff.1 (by simpa using hrepository)
      digest := isDigest_iff.1 (by simpa using hdigest) }⟩

end Reads

/-! ## Refs of releases -/

variable {ref : String}

/-- No ref has a host in front of its repository and another path as well. -/
theorem IsReleaseRef.not_isNested (h : IsReleaseRef ref) : ¬ IsNested ref := by
  obtain ⟨host?, repository, digest, hreads, hhost⟩ := h
  rintro ⟨path, repository', digest', hreads', hpath⟩
  obtain ⟨rfl, -, -⟩ := hreads.unique hreads'
  obtain ⟨hne, hslash⟩ := hhost path rfl
  exact hpath.elim hne hslash

/-- What is in front of a repository is a host, or another path. -/
theorem Reads.isReleaseRef_or_isNested {path? : Option (List Char)} {repository digest : List Char}
    (h : Reads ref path? repository digest) : IsReleaseRef ref ∨ IsNested ref := by
  cases path? with
  | none => exact .inl ⟨none, repository, digest, h, nofun⟩
  | some path =>
    by_cases hpath : path = [] ∨ '/' ∈ path
    · exact .inr ⟨path, repository, digest, h, hpath⟩
    · rw [not_or] at hpath
      exact .inl ⟨some path, repository, digest, h, fun host hhost => Option.some.inj hhost ▸ hpath⟩

/-- A ref is pulled from a registry exactly when it ends in a repository and a digest, and what is
pulled is these from that registry.  That is exactly for the refs of releases, but for the refs with
another path in front of their repository, which are pulled as well. -/
theorem accepted_iff_isReleaseRef_iff (registry ref : String) :
    (∀ pulled, refIn registry ref = .ok pulled ↔
      ∃ path? repository digest, Reads ref path? repository digest ∧
        pulled = written (some registry.toList) repository digest) ∧
    (((∃ pulled, refIn registry ref = .ok pulled) ↔ IsReleaseRef ref) ↔ ¬ IsNested ref) := by
  have hpulled (pulled : String) : refIn registry ref = .ok pulled ↔
      ∃ path? repository digest, Reads ref path? repository digest ∧
        pulled = written (some registry.toList) repository digest := by
    constructor
    · intro h
      obtain ⟨path?, repository, digest, hreads⟩ := exists_reads h
      exact ⟨path?, repository, digest, hreads,
        Except.ok.inj (h.symm.trans (hreads.pulled registry))⟩
    · rintro ⟨path?, repository, digest, hreads, rfl⟩
      exact hreads.pulled registry
  refine ⟨hpulled, fun hiff hnested => ?_, fun hnested => ⟨fun haccepted => ?_, fun hrelease => ?_⟩⟩
  · -- A ref with another path is pulled, so it would be the ref of a release.
    have haccepted : ∃ pulled, refIn registry ref = .ok pulled := by
      obtain ⟨path, repository, digest, hreads, -⟩ := hnested
      exact ⟨_, hreads.pulled registry⟩
    exact (hiff.1 haccepted).not_isNested hnested
  · obtain ⟨pulled, h⟩ := haccepted
    obtain ⟨path?, repository, digest, hreads⟩ := exists_reads h
    exact hreads.isReleaseRef_or_isNested.resolve_right hnested
  · obtain ⟨host?, repository, digest, hreads, -⟩ := hrelease
    exact ⟨_, hreads.pulled registry⟩

namespace Sample

/-- A digest. -/
def digest : List Char := List.replicate 64 'a'

/-- An image in a repository whose path has two parts, below a host. -/
def nested : String := written (some "registry.example/library".toList) "nginx".toList digest

end Sample

/-- Only the last part of the path is left of a ref that is no ref of a release, and the image is
pulled by that name. -/
theorem nested_accepted :
    refIn "localhost:1970" Sample.nested =
      .ok (written (some "localhost:1970".toList) "nginx".toList Sample.digest) ∧
    ¬ IsReleaseRef Sample.nested := by
  have hreads : Reads Sample.nested (some "registry.example/library".toList) "nginx".toList
      Sample.digest :=
    { text := rfl
      repository := isRepository_iff.1 (by decide)
      digest := isDigest_iff.1 (by decide) }
  have hnested : IsNested Sample.nested := ⟨_, _, _, hreads, .inr (by decide)⟩
  exact ⟨hreads.pulled _, fun hrelease => hrelease.not_isNested hnested⟩

end Caretaker.Registry
