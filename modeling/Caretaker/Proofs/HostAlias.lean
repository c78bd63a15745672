import Caretaker.Proofs.Preconditions

/-!
# The host alias in URLs

The URL of an endpoint is told to containers, which reach the host by an alias.  Before an endpoint
is tested, the alias in its URL is replaced by the name that the host has for itself.  It is
replaced wherever its text occurs: in a longer host name, in the path and in the query as well.  So
the URL that is tested is the one for the same endpoint only if the alias is the whole host or does
not occur at all.

Main definitions:

- `Endpoint`: the parts of a URL, as they are written.
- `Endpoint.resolved`: the same endpoint seen from the host.
- `Endpoint.rewritten`: the endpoint that is tested.

Main statements:

- `tested_resolved_iff`: the URL that is tested, and when it is the one for the same endpoint.
-/

namespace Caretaker.Service

open Text (replaceAll)

/-! ## Endpoints -/

/-- The characters that no host has but for the long addresses, which stand in brackets. -/
def hostMarks : List Char := [':', '/', '?', '#', '@', '[']

/-- A host as it is written: a name or an address. -/
inductive IsHost : List Char → Prop where
  | plain {host : List Char} (h : ∀ c ∈ host, c ∉ hostMarks) : IsHost host
  | bracketed {address : List Char} (h : ']' ∉ address) : IsHost ('[' :: (address ++ [']']))

theorem toList_localhost :
    "localhost".toList = ['l', 'o', 'c', 'a', 'l', 'h', 'o', 's', 't'] := rfl

theorem isHost_localhost : IsHost "localhost".toList := by
  rw [toList_localhost]
  exact .plain (by simp [hostMarks])

/-- The parts of a URL `scheme://host[:port][/path][?query]`, each without its mark. -/
structure Endpoint where
  scheme : List Char
  host : List Char
  port : Option (List Char)
  path : Option (List Char)
  query : Option (List Char)
  colon_notMem_scheme : ':' ∉ scheme
  isHost : IsHost host
  isDigit_port : ∀ digits ∈ port, ∀ c ∈ digits, c.isDigit = true
  questionMark_notMem_path : ∀ segments ∈ path, '?' ∉ segments

/-- A part with its mark, if there is one. -/
def marked (mark : Char) : Option (List Char) → List Char
  | none => []
  | some text => mark :: text

namespace Endpoint

/-- The parts behind the host. -/
def tail (e : Endpoint) : List Char :=
  marked ':' e.port ++ (marked '/' e.path ++ marked '?' e.query)

/-- The URL of an endpoint. -/
def text (e : Endpoint) : String :=
  String.ofList (e.scheme ++ ':' :: '/' :: '/' :: (e.host ++ e.tail))

/-- The same endpoint seen from the host, which is no alias there. -/
def resolved (e : Endpoint) : Endpoint :=
  if e.host = hostAlias.toList then
    { e with host := "localhost".toList, isHost := isHost_localhost }
  else e

/-- Whether the alias occurs nowhere but perhaps as the whole host. -/
structure AliasOnlyHost (e : Endpoint) : Prop where
  scheme : ¬ hostAlias.toList <:+: e.scheme
  host : hostAlias.toList <:+: e.host → e.host = hostAlias.toList
  path : ∀ segments ∈ e.path, ¬ hostAlias.toList <:+: segments
  query : ∀ text ∈ e.query, ¬ hostAlias.toList <:+: text

end Endpoint

/-! ## Replacing the alias -/

/-- A text with the alias replaced. -/
def unaliased (text : List Char) : List Char :=
  replaceAll hostAlias.toList "localhost".toList text

theorem toList_hostAlias : hostAlias.toList =
    ['h', 'o', 's', 't', '.', 'd', 'o', 'c', 'k', 'e', 'r', '.', 'i', 'n', 't', 'e', 'r', 'n', 'a',
      'l'] := rfl

theorem hostAlias_ne_nil : hostAlias.toList ≠ [] := by
  rw [toList_hostAlias]
  exact List.cons_ne_nil _ _

theorem length_localhost_lt : "localhost".toList.length < hostAlias.toList.length := by
  rw [toList_hostAlias, toList_localhost]
  decide

theorem mem_of_mem_unaliased {text : List Char} {c : Char} (h : c ∈ unaliased text)
    (hc : c ∉ "localhost".toList) : c ∈ text :=
  (Text.mem_of_mem_go h).resolve_left hc

theorem unaliased_eq_self {text : List Char} (h : ¬ hostAlias.toList <:+: text) :
    unaliased text = text :=
  Text.replaceAll_of_not_infix h

theorem length_unaliased_le (text : List Char) : (unaliased text).length ≤ text.length :=
  Text.length_go_le (Nat.le_of_lt length_localhost_lt) (Nat.zero_le _)

theorem length_unaliased_lt {text : List Char} (h : hostAlias.toList <:+: text) :
    (unaliased text).length < text.length :=
  Text.length_replaceAll_lt length_localhost_lt h

theorem unaliased_append {front back : List Char} (h : ∀ c ∈ back.head?, c ∉ hostAlias.toList) :
    unaliased (front ++ back) = unaliased front ++ unaliased back :=
  Text.replaceAll_append h

theorem unaliased_cons {c : Char} (h : c ∉ hostAlias.toList) (text : List Char) :
    unaliased (c :: text) = c :: unaliased text :=
  Text.replaceAll_cons h hostAlias_ne_nil

/-- The alias never stands alone when it was replaced. -/
theorem unaliased_ne (text : List Char) : unaliased text ≠ hostAlias.toList := by
  intro heq
  by_cases h : hostAlias.toList <:+: text
  · have hinfix : "localhost".toList <:+: unaliased text :=
      Text.infix_replaceAll h hostAlias_ne_nil
    rw [heq, toList_hostAlias, toList_localhost] at hinfix
    revert hinfix
    decide
  · rw [unaliased_eq_self h] at heq
    exact h (heq ▸ List.infix_refl _)

theorem unaliased_hostAlias : unaliased hostAlias.toList = "localhost".toList := by
  rw [unaliased, toList_hostAlias, toList_localhost]
  decide

theorem unaliased_digits {digits : List Char} (h : ∀ c ∈ digits, c.isDigit = true) :
    unaliased digits = digits := by
  refine unaliased_eq_self fun hinfix => ?_
  have hmem : 'h' ∈ digits := hinfix.subset (by rw [toList_hostAlias]; exact List.mem_cons_self)
  exact absurd (h 'h' hmem) (by decide)

theorem mem_hostMarks {c : Char} (h : c ∈ [':', '/', '?']) : c ∈ hostMarks := by
  simp only [hostMarks, List.mem_cons] at h ⊢
  tauto

/-- The marks of a URL. -/
theorem marks_notMem : ∀ c ∈ ']' :: hostMarks,
    c ∉ hostAlias.toList ∧ c ∉ "localhost".toList := by
  rw [toList_hostAlias, toList_localhost]
  simp [hostMarks]

theorem IsHost.unaliased {host : List Char} (h : IsHost host) : IsHost (unaliased host) := by
  cases h with
  | plain h =>
    exact .plain fun c hc hmark =>
      h c (mem_of_mem_unaliased hc (marks_notMem c (.tail _ hmark)).2) hmark
  | @bracketed address h =>
    have hclose : Service.unaliased [']'] = [']'] :=
      unaliased_cons (marks_notMem ']' (by simp)).1 []
    have hend : ∀ c ∈ [']'].head?, c ∉ hostAlias.toList := by
      rintro _ ⟨⟩
      exact (marks_notMem ']' (by simp)).1
    rw [unaliased_cons (marks_notMem '[' (by simp [hostMarks])).1, unaliased_append hend, hclose]
    exact .bracketed fun hmem => h (mem_of_mem_unaliased hmem (marks_notMem ']' (by simp)).2)

theorem head?_marked {mark c : Char} {part : Option (List Char)} {back : List Char}
    (h : c ∈ (marked mark part ++ back).head?) : c = mark ∨ c ∈ back.head? := by
  cases part with
  | none => exact .inr h
  | some text => exact .inl (Option.some.inj h).symm

theorem unaliased_marked {mark : Char} (hmark : mark ∉ hostAlias.toList)
    (part : Option (List Char)) {back : List Char}
    (hback : ∀ c ∈ back.head?, c ∉ hostAlias.toList) :
    unaliased (marked mark part ++ back) =
      marked mark (part.map unaliased) ++ unaliased back := by
  cases part with
  | none => rfl
  | some text =>
    simp only [marked, Option.map_some, List.cons_append]
    rw [unaliased_cons hmark, unaliased_append hback]

theorem map_unaliased {part : Option (List Char)}
    (h : ∀ text ∈ part, ¬ hostAlias.toList <:+: text) : part.map unaliased = part := by
  cases part with
  | none => rfl
  | some text => exact congrArg some (unaliased_eq_self (h text rfl))

theorem length_marked_le (mark : Char) (part : Option (List Char)) :
    (marked mark (part.map unaliased)).length ≤ (marked mark part).length := by
  cases part with
  | none => exact Nat.le_refl _
  | some text => exact Nat.succ_le_succ (length_unaliased_le text)

theorem length_marked_lt (mark : Char) {part : Option (List Char)} {text : List Char}
    (hpart : text ∈ part) (h : hostAlias.toList <:+: text) :
    (marked mark (part.map unaliased)).length < (marked mark part).length := by
  rw [Option.mem_def] at hpart
  subst hpart
  exact Nat.succ_lt_succ (length_unaliased_lt h)

namespace Endpoint

variable (e : Endpoint)

/-- The endpoint whose URL is tested: the alias is replaced in every part. -/
def rewritten : Endpoint where
  scheme := unaliased e.scheme
  host := unaliased e.host
  port := e.port
  path := e.path.map unaliased
  query := e.query.map unaliased
  colon_notMem_scheme hmem :=
    e.colon_notMem_scheme (mem_of_mem_unaliased hmem (marks_notMem ':' (by simp [hostMarks])).2)
  isHost := e.isHost.unaliased
  isDigit_port := e.isDigit_port
  questionMark_notMem_path := by
    simp only [Option.mem_def, Option.map_eq_some_iff]
    rintro _ ⟨segments, hsegments, rfl⟩ hmem
    exact e.questionMark_notMem_path segments hsegments
      (mem_of_mem_unaliased hmem (marks_notMem '?' (by simp [hostMarks])).2)

/-- What stands behind the host starts with a mark. -/
theorem head?_tail {c : Char} (h : c ∈ e.tail.head?) : c ∈ [':', '/', '?'] := by
  rcases head?_marked h with rfl | h
  · simp
  · rcases head?_marked h with rfl | h
    · simp
    · rw [← List.append_nil (marked _ _)] at h
      rcases head?_marked h with rfl | h
      · simp
      · cases h

theorem unaliased_tail : unaliased e.tail = e.rewritten.tail := by
  have hport : e.port.map unaliased = e.port := by
    cases hdigits : e.port with
    | none => rfl
    | some digits => exact congrArg some (unaliased_digits (e.isDigit_port digits hdigits))
  have hquery : unaliased (marked '?' e.query) = marked '?' (e.query.map unaliased) := by
    have h : unaliased (marked '?' e.query ++ []) =
        marked '?' (e.query.map unaliased) ++ unaliased [] :=
      unaliased_marked (marks_notMem '?' (by simp [hostMarks])).1 e.query nofun
    simpa only [List.append_nil, unaliased, Text.replaceAll, Text.replaceAll.go] using h
  have hpathMark : ∀ c ∈ (marked '?' e.query).head?, c ∉ hostAlias.toList := by
    intro c hc
    rw [← List.append_nil (marked _ _)] at hc
    rcases head?_marked hc with rfl | hc
    · exact (marks_notMem '?' (by simp [hostMarks])).1
    · cases hc
  have hportMark : ∀ c ∈ (marked '/' e.path ++ marked '?' e.query).head?, c ∉ hostAlias.toList := by
    intro c hc
    rcases head?_marked hc with rfl | hc
    · exact (marks_notMem '/' (by simp [hostMarks])).1
    · exact hpathMark c hc
  unfold tail
  rw [unaliased_marked (marks_notMem ':' (by simp [hostMarks])).1 e.port hportMark,
    unaliased_marked (marks_notMem '/' (by simp [hostMarks])).1 e.path hpathMark, hport, hquery]
  rfl

/-- The alias is replaced part by part. -/
theorem hostUrl_text : hostUrl e.text = e.rewritten.text := by
  have hcolon := (marks_notMem ':' (by simp [hostMarks])).1
  have hslash := (marks_notMem '/' (by simp [hostMarks])).1
  have htail : ∀ c ∈ e.tail.head?, c ∉ hostAlias.toList := fun c hc =>
    (marks_notMem c (.tail _ (mem_hostMarks (e.head?_tail hc)))).1
  have hscheme : ∀ c ∈ (':' :: '/' :: '/' :: (e.host ++ e.tail)).head?, c ∉ hostAlias.toList := by
    rintro _ ⟨⟩
    exact hcolon
  show String.ofList (unaliased e.text.toList) = e.rewritten.text
  rw [text, String.toList_ofList, unaliased_append hscheme, unaliased_cons hcolon,
    unaliased_cons hslash, unaliased_cons hslash, unaliased_append htail, unaliased_tail]
  rfl

theorem host_ne_hostAlias : e.rewritten.host ≠ hostAlias.toList := unaliased_ne e.host

/-! ## The same endpoint -/

@[simp] theorem scheme_resolved : e.resolved.scheme = e.scheme := by
  unfold resolved
  split <;> rfl

@[simp] theorem tail_resolved : e.resolved.tail = e.tail := by
  unfold resolved
  split <;> rfl

theorem host_resolved : e.resolved.host =
    if e.host = hostAlias.toList then "localhost".toList else e.host := by
  unfold resolved
  split <;> rfl

/-- The rewritten host is no longer than the one of the same endpoint, and shorter when a longer
name was cut. -/
theorem length_host_rewritten : e.rewritten.host.length ≤ e.resolved.host.length ∧
    (hostAlias.toList <:+: e.host → e.host ≠ hostAlias.toList →
      e.rewritten.host.length < e.resolved.host.length) := by
  rw [host_resolved]
  show (unaliased e.host).length ≤ _ ∧ (_ → _ → (unaliased e.host).length < _)
  by_cases hhost : e.host = hostAlias.toList
  · rw [if_pos hhost, hhost, unaliased_hostAlias]
    exact ⟨Nat.le_refl _, fun _ hne => absurd rfl hne⟩
  · rw [if_neg hhost]
    exact ⟨length_unaliased_le _, fun hinfix _ => length_unaliased_lt hinfix⟩

theorem host_rewritten (h : e.AliasOnlyHost) : e.rewritten.host = e.resolved.host := by
  rw [host_resolved]
  show unaliased e.host = _
  by_cases hhost : e.host = hostAlias.toList
  · rw [if_pos hhost, hhost, unaliased_hostAlias]
  · rw [if_neg hhost, unaliased_eq_self fun hinfix => hhost (h.host hinfix)]

/-- The URL that is tested is the one for the same endpoint exactly if the alias stands alone. -/
theorem text_rewritten_eq_iff : e.rewritten.text = e.resolved.text ↔ e.AliasOnlyHost := by
  constructor
  · intro h
    -- no part gets longer, so none gets shorter
    have hlength := congrArg List.length (String.ofList_inj.1 h)
    simp only [tail, List.length_append, List.length_cons, scheme_resolved] at hlength
    have htail := congrArg List.length e.tail_resolved
    simp only [tail, List.length_append] at htail
    have hscheme : e.rewritten.scheme.length ≤ e.scheme.length := length_unaliased_le _
    obtain ⟨hhost, hhostLt⟩ := e.length_host_rewritten
    have hpath := length_marked_le '/' e.path
    have hquery := length_marked_le '?' e.query
    have hparts : e.rewritten.port = e.port ∧ e.rewritten.path = e.path.map unaliased ∧
        e.rewritten.query = e.query.map unaliased := ⟨rfl, rfl, rfl⟩
    rw [hparts.1, hparts.2.1, hparts.2.2] at hlength
    constructor
    case scheme =>
      intro hinfix
      have hlt : e.rewritten.scheme.length < e.scheme.length := length_unaliased_lt hinfix
      omega
    case host =>
      intro hinfix
      by_contra hne
      have hlt := hhostLt hinfix hne
      omega
    case path =>
      intro segments hsegments hinfix
      have hlt := length_marked_lt '/' hsegments hinfix
      omega
    case query =>
      intro text htext hinfix
      have hlt := length_marked_lt '?' htext hinfix
      omega
  · intro h
    have hscheme : e.rewritten.scheme = e.resolved.scheme := by
      rw [scheme_resolved]
      exact unaliased_eq_self h.scheme
    have htail : e.rewritten.tail = e.resolved.tail := by
      rw [tail_resolved]
      show marked ':' e.port ++ (marked '/' (e.path.map unaliased) ++
        marked '?' (e.query.map unaliased)) = _
      rw [map_unaliased h.path, map_unaliased h.query, tail]
    rw [text, text, hscheme, e.host_rewritten h, htail]

/-! ## The host of a URL -/

/-- A text that stops at the first character of a kind is told apart from what comes behind. -/
theorem append_inj_of_stops {stops : Char → Prop} {front back front' back' : List Char}
    (hfront : ∀ c ∈ front, ¬ stops c) (hback : ∀ c ∈ back.head?, stops c)
    (hfront' : ∀ c ∈ front', ¬ stops c) (hback' : ∀ c ∈ back'.head?, stops c)
    (h : front ++ back = front' ++ back') : front = front' ∧ back = back' := by
  -- what one front had more would both stop and not stop
  have hmore {more front back back' : List Char} (hfront : ∀ c ∈ front ++ more, ¬ stops c)
      (hback : ∀ c ∈ back.head?, stops c) (heq : back = more ++ back') : more = [] := by
    cases more with
    | nil => rfl
    | cons c more =>
      rw [heq] at hback
      exact absurd (hback c rfl) (hfront c (by simp))
  rcases List.append_eq_append_iff.1 h with ⟨more, rfl, rfl⟩ | ⟨more, rfl, rfl⟩
  · simp [hmore hfront' hback rfl]
  · simp [hmore hfront hback' rfl]

/-- A host without brackets does not start with one. -/
theorem plain_append_ne {host back rest : List Char} (hhost : ∀ c ∈ host, c ∉ hostMarks)
    (hback : ∀ c ∈ back.head?, c ∈ [':', '/', '?']) : host ++ back ≠ '[' :: rest := by
  intro h
  cases host with
  | nil =>
    rw [List.nil_append] at h
    rw [h] at hback
    exact absurd (hback '[' rfl) (by decide)
  | cons c host =>
    obtain ⟨rfl, -⟩ := List.cons.inj h
    exact hhost '[' List.mem_cons_self (by simp [hostMarks])

theorem host_eq_of_append_eq {host back host' back' : List Char} (hhost : IsHost host)
    (hback : ∀ c ∈ back.head?, c ∈ [':', '/', '?']) (hhost' : IsHost host')
    (hback' : ∀ c ∈ back'.head?, c ∈ [':', '/', '?']) (h : host ++ back = host' ++ back') :
    host = host' := by
  cases hhost with
  | plain hplain =>
    cases hhost' with
    | plain hplain' =>
      have hstops {host : List Char} (h : ∀ c ∈ host, c ∉ hostMarks) :
          ∀ c ∈ host, ¬ c ∈ [':', '/', '?'] := fun c hc hmark => h c hc (mem_hostMarks hmark)
      exact (append_inj_of_stops (hstops hplain) hback (hstops hplain') hback' h).1
    | bracketed => exact absurd h (plain_append_ne hplain hback)
  | @bracketed address hclose =>
    cases hhost' with
    | plain hplain' => exact absurd h.symm (plain_append_ne hplain' hback')
    | @bracketed address' hclose' =>
      have haddress : address ++ ']' :: back = address' ++ ']' :: back' := by simpa using h
      have hstops {address : List Char} (h : ']' ∉ address) : ∀ c ∈ address, ¬ c = ']' := by
        rintro c hc rfl
        exact h hc
      have hbracket {rest : List Char} : ∀ c ∈ (']' :: rest).head?, c = ']' := by
        rintro _ ⟨⟩
        rfl
      rw [(append_inj_of_stops (hstops hclose) hbracket (hstops hclose') hbracket haddress).1]

/-- A URL has one host. -/
theorem host_eq_of_text_eq {e e' : Endpoint} (h : e.text = e'.text) : e.host = e'.host := by
  have hscheme (e : Endpoint) : ∀ c ∈ e.scheme, ¬ c = ':' := by
    rintro c hc rfl
    exact e.colon_notMem_scheme hc
  have hcolon {rest : List Char} : ∀ c ∈ (':' :: rest).head?, c = ':' := by
    rintro _ ⟨⟩
    rfl
  obtain ⟨-, hrest⟩ := append_inj_of_stops (hscheme e) hcolon (hscheme e') hcolon
    (String.ofList_inj.1 h)
  have hbehind : e.host ++ e.tail = e'.host ++ e'.tail := by simpa using hrest
  exact host_eq_of_append_eq e.isHost (fun _ => e.head?_tail) e'.isHost (fun _ => e'.head?_tail)
    hbehind

end Endpoint

/-- For an endpoint the URL is tested in which the alias is replaced in every part; its host is not
the alias.  It is the URL of the same endpoint exactly if the alias stands alone. -/
theorem tested_resolved_iff (e : Endpoint) :
    (∀ settings : Settings,
      (settings.scanUrl = e.text →
        Precondition.scan.request settings = .check (.rpc e.rewritten.text)) ∧
      (settings.traceUrl = e.text →
        Precondition.trace.request settings = .check (.rpc e.rewritten.text))) ∧
    (∀ e' : Endpoint, e.rewritten.text = e'.text → e'.host ≠ hostAlias.toList) ∧
    (e.rewritten.text = e.resolved.text ↔ e.AliasOnlyHost) := by
  refine ⟨fun settings => ⟨fun h => ?_, fun h => ?_⟩, fun e' h => ?_, e.text_rewritten_eq_iff⟩
  · rw [Precondition.request, h, e.hostUrl_text]
  · rw [Precondition.request, h, e.hostUrl_text]
  · rw [← Endpoint.host_eq_of_text_eq h]
    exact e.host_ne_hostAlias

/-- An endpoint whose host name ends in the alias. -/
def namesake : Endpoint where
  scheme := "http".toList
  host := "myhost.docker.internal".toList
  port := some "8545".toList
  path := none
  query := none
  colon_notMem_scheme := by decide
  isHost := .plain (by simp [hostMarks])
  isDigit_port := by simp
  questionMark_notMem_path := nofun

/-- A host name that is longer than the alias is cut. -/
theorem namesake_cut :
    namesake.text = "http://myhost.docker.internal:8545" ∧
      hostUrl namesake.text = "http://mylocalhost:8545" ∧
      namesake.resolved.text = "http://myhost.docker.internal:8545" := by
  decide

end Caretaker.Service
