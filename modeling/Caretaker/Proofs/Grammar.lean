import Caretaker.Json.Reader
import Caretaker.Proofs.Lexemes

/-!
# What is read as a JSON value

Every value has its tokens, with commas between the items of an array and between the members of an
object.  The machine with its stack accepts these tokens, and no others, for the value: at every
moment the tokens that it has taken are those of what it has in hand.  A text is therefore read as a
value exactly when it is made up of the tokens of the value, whatever blanks stand between them and
however the strings are written.

Main definitions:

- `tokens`: the tokens of a value.
- `Machine.taken`: the tokens of what a machine has in hand.
- `IsTextOf`: a text that is made up of the tokens of a value.

Main statements:

- `Machine.taken_push`: one more token is one more token of what the machine has in hand.
- `ofTokens?_eq_some_iff`, `read?_eq_some_iff`: a value is built from its tokens, and read from its
  texts, and from nothing else.
- `read?_append`: only blanks may stand behind a value.
-/

namespace Caretaker.Json

/-! ## The tokens of a value -/

mutual

/-- The tokens of a value. -/
def tokens : Spelled → List Token
  | .null => [.null]
  | .bool value => [.bool value]
  | .number spelling => [.number spelling]
  | .string text => [.string text]
  | .array items => .openBracket :: itemTokens items ++ [.closeBracket]
  | .object members => .openBrace :: memberTokens members ++ [.closeBrace]

/-- The tokens of the items of an array, commas between them. -/
def itemTokens : List Spelled → List Token
  | [] => []
  | [item] => tokens item
  | item :: next :: items => tokens item ++ .comma :: itemTokens (next :: items)

/-- The tokens of the members of an object, commas between them. -/
def memberTokens : List (Option String × Spelled) → List Token
  | [] => []
  | [(key, value)] => .string key :: .colon :: tokens value
  | (key, value) :: next :: members =>
    .string key :: .colon :: tokens value ++ .comma :: memberTokens (next :: members)

end

/-- The tokens of items when more are to come, a comma behind each. -/
def itemTokensThen (items : List Spelled) : List Token :=
  items.flatMap fun item => tokens item ++ [.comma]

/-- The tokens of members when more are to come, a comma behind each. -/
def memberTokensThen (members : List (Option String × Spelled)) : List Token :=
  members.flatMap fun (key, value) => .string key :: .colon :: tokens value ++ [.comma]

theorem itemTokens_concat (items : List Spelled) (last : Spelled) :
    itemTokens (items ++ [last]) = itemTokensThen items ++ tokens last := by
  induction items with
  | nil => rfl
  | cons item items ih =>
    have hnext : ∃ next more, items ++ [last] = next :: more := by
      cases items <;> exact ⟨_, _, rfl⟩
    obtain ⟨next, more, hnext⟩ := hnext
    rw [List.cons_append, hnext, itemTokens, ← hnext, ih]
    simp [itemTokensThen]

theorem memberTokens_concat (members : List (Option String × Spelled)) (key : Option String)
    (last : Spelled) :
    memberTokens (members ++ [(key, last)]) =
      memberTokensThen members ++ .string key :: .colon :: tokens last := by
  induction members with
  | nil => rfl
  | cons member members ih =>
    have hnext : ∃ next more, members ++ [(key, last)] = next :: more := by
      cases members <;> exact ⟨_, _, rfl⟩
    obtain ⟨next, more, hnext⟩ := hnext
    rw [List.cons_append, hnext, memberTokens, ← hnext, ih]
    simp [memberTokensThen]

/-! ## What the machine has in hand -/

/-- The tokens of an array or object that is still open. -/
def Frame.tokens : Frame → List Token
  | .array items => .openBracket :: itemTokensThen items.reverse
  | .object members key => .openBrace :: memberTokensThen members.reverse ++ [.string key, .colon]

/-- The tokens of everything that is still open, the innermost one last. -/
def stackTokens : List Frame → List Token
  | [] => []
  | frame :: stack => stackTokens stack ++ frame.tokens

namespace Machine

/-- The tokens of what a machine has in hand. -/
def taken : Machine → List Token
  | needValue stack => stackTokens stack
  | openArray stack => stackTokens stack ++ [.openBracket]
  | openObject stack => stackTokens stack ++ [.openBrace]
  | needKey stack members => stackTokens stack ++ .openBrace :: memberTokensThen members.reverse
  | needColon stack members key =>
    stackTokens stack ++ .openBrace :: memberTokensThen members.reverse ++ [.string key]
  | finished stack value => stackTokens stack ++ Json.tokens value

variable {m m' : Machine} {token : Token} {tokens : List Token}

theorem taken_begin {stack : List Frame} (h : begin stack token = some m') :
    m'.taken = stackTokens stack ++ [token] := by
  cases token <;> cases h <;> rfl

/-- One more token is one more token of what the machine has in hand. -/
theorem taken_push (h : m.push token = some m') : m'.taken = m.taken ++ [token] := by
  cases m with
  | needValue stack => exact taken_begin h
  | openArray stack =>
    by_cases hclose : token = .closeBracket
    · subst hclose
      cases h
      simp [taken, Json.tokens, itemTokens]
    · have hbegin : begin (.array [] :: stack) token = some m' := by
        cases token with
        | closeBracket => exact absurd rfl hclose
        | _ => exact h
      exact taken_begin hbegin
  | openObject stack =>
    cases token <;> cases h <;> simp [taken, Json.tokens, memberTokens, memberTokensThen]
  | needKey stack members => cases token <;> cases h; simp [taken]
  | needColon stack members key =>
    cases token <;> cases h
    simp [taken, stackTokens, Frame.tokens]
  | finished stack value =>
    rcases stack with _ | ⟨items | ⟨members, key⟩, stack⟩
    · cases token <;> cases h
    · cases token <;> cases h
      · simp [taken, Json.tokens, stackTokens, Frame.tokens, itemTokens_concat]
      · simp [taken, stackTokens, Frame.tokens, itemTokensThen]
    · cases token <;> cases h
      · simp [taken, Json.tokens, stackTokens, Frame.tokens, memberTokens_concat]
      · simp [taken, stackTokens, Frame.tokens, memberTokensThen]

/-- The machine after some tokens. -/
def pushAll (m : Machine) (tokens : List Token) : Option Machine :=
  tokens.foldlM Machine.push m

theorem pushAll_cons (h : m.push token = some m') :
    m.pushAll (token :: tokens) = m'.pushAll tokens := by
  simp [pushAll, List.foldlM_cons, h]

theorem pushAll_cons_eq_some_iff :
    m.pushAll (token :: tokens) = some m' ↔
      ∃ next, m.push token = some next ∧ next.pushAll tokens = some m' := by
  simp [pushAll, List.foldlM_cons, Option.bind_eq_some_iff]

/-- What a machine has in hand after some tokens has these tokens behind those from before. -/
theorem taken_pushAll (h : m.pushAll tokens = some m') : m'.taken = m.taken ++ tokens := by
  induction tokens generalizing m with
  | nil =>
    cases h
    rw [List.append_nil]
  | cons token tokens ih =>
    obtain ⟨next, hpush, hrest⟩ := pushAll_cons_eq_some_iff.1 h
    rw [ih hrest, taken_push hpush, List.append_assoc, List.singleton_append]

/-- Where a value may come first in an array, it comes as it does behind a comma. -/
theorem pushAll_openArray (value : Spelled) (stack : List Frame) (rest : List Token) :
    (openArray stack).pushAll (Json.tokens value ++ rest) =
      (needValue (.array [] :: stack)).pushAll (Json.tokens value ++ rest) := by
  cases value with
  | bool b => cases b <;> rfl
  | _ => rfl

end Machine

/-! ## Building a value from its tokens -/

open Machine

mutual

/-- The machine builds a value from its tokens. -/
theorem push_tokens : ∀ (value : Spelled) (stack : List Frame) (rest : List Token),
    (needValue stack).pushAll (tokens value ++ rest) = (finished stack value).pushAll rest
  | .null, _, _ => rfl
  | .bool _, _, _ => rfl
  | .number _, _, _ => rfl
  | .string _, _, _ => rfl
  | .array [], _, _ => rfl
  | .array (item :: items), stack, rest => by
    have hitems := push_itemTokens (item :: items) (List.cons_ne_nil _ _) [] stack rest
    have hopen : (needValue stack).pushAll (tokens (.array (item :: items)) ++ rest) =
        (openArray stack).pushAll (itemTokens (item :: items) ++ .closeBracket :: rest) := by
      rw [tokens, List.cons_append, List.cons_append, List.append_assoc]
      exact pushAll_cons rfl
    have hfirst : (openArray stack).pushAll (itemTokens (item :: items) ++ .closeBracket :: rest) =
        (needValue (.array [] :: stack)).pushAll
          (itemTokens (item :: items) ++ .closeBracket :: rest) := by
      cases items with
      | nil => exact pushAll_openArray item stack _
      | cons next items =>
        rw [itemTokens, List.append_assoc]
        exact pushAll_openArray item stack _
    rw [hopen, hfirst, hitems]
    rfl
  | .object [], _, _ => rfl
  | .object ((key, value) :: members), stack, rest => by
    have hmembers :=
      push_memberTokens ((key, value) :: members) (List.cons_ne_nil _ _) [] stack rest
    have hopen : (needValue stack).pushAll (tokens (.object ((key, value) :: members)) ++ rest) =
        (openObject stack).pushAll
          (memberTokens ((key, value) :: members) ++ .closeBrace :: rest) := by
      rw [tokens, List.cons_append, List.cons_append, List.append_assoc]
      exact pushAll_cons rfl
    -- a key is taken alike behind the brace and behind a comma
    have hfirst : (openObject stack).pushAll
          (memberTokens ((key, value) :: members) ++ .closeBrace :: rest) =
        (needKey stack []).pushAll
          (memberTokens ((key, value) :: members) ++ .closeBrace :: rest) := by
      cases members <;> rfl
    rw [hopen, hfirst, hmembers]
    rfl

/-- The items of an array are built behind those that were read. -/
theorem push_itemTokens : ∀ items : List Spelled, items ≠ [] →
    ∀ (read : List Spelled) (stack : List Frame) (rest : List Token),
    (needValue (.array read :: stack)).pushAll (itemTokens items ++ .closeBracket :: rest) =
      (finished stack (.array (read.reverse ++ items))).pushAll rest
  | [], h, _, _, _ => absurd rfl h
  | [item], _, read, stack, rest => by
    have hitem := push_tokens item (.array read :: stack) (.closeBracket :: rest)
    rw [itemTokens, hitem, pushAll_cons rfl, List.reverse_cons]
  | item :: next :: items, _, read, stack, rest => by
    have hitem := push_tokens item (.array read :: stack)
      (.comma :: (itemTokens (next :: items) ++ .closeBracket :: rest))
    have hitems := push_itemTokens (next :: items) (List.cons_ne_nil _ _) (item :: read) stack rest
    rw [itemTokens, List.append_assoc, List.cons_append, hitem, pushAll_cons rfl, hitems,
      List.reverse_cons, List.append_assoc]
    rfl

/-- The members of an object are built behind those that were read. -/
theorem push_memberTokens : ∀ members : List (Option String × Spelled), members ≠ [] →
    ∀ (read : List (Option String × Spelled)) (stack : List Frame) (rest : List Token),
    (needKey stack read).pushAll (memberTokens members ++ .closeBrace :: rest) =
      (finished stack (.object (read.reverse ++ members))).pushAll rest
  | [], h, _, _, _ => absurd rfl h
  | [(key, value)], _, read, stack, rest => by
    have hvalue := push_tokens value (.object read key :: stack) (.closeBrace :: rest)
    rw [memberTokens, List.cons_append, List.cons_append, pushAll_cons rfl, pushAll_cons rfl,
      hvalue, pushAll_cons rfl, List.reverse_cons]
  | (key, value) :: next :: members, _, read, stack, rest => by
    have hvalue := push_tokens value (.object read key :: stack)
      (.comma :: (memberTokens (next :: members) ++ .closeBrace :: rest))
    have hmembers := push_memberTokens (next :: members) (List.cons_ne_nil _ _)
      ((key, value) :: read) stack rest
    rw [memberTokens, List.append_assoc, List.cons_append, List.cons_append, List.cons_append,
      pushAll_cons rfl, pushAll_cons rfl, hvalue, pushAll_cons rfl, hmembers, List.reverse_cons,
      List.append_assoc]
    rfl

end

theorem pushAll_tokens (value : Spelled) :
    (needValue []).pushAll (tokens value) = some (finished [] value) := by
  have hpush := push_tokens value [] []
  rwa [List.append_nil] at hpush

/-- A value is built from its tokens, and from no others. -/
theorem ofTokens?_eq_some_iff {ts : List Token} {value : Spelled} :
    ofTokens? ts = some value ↔ ts = tokens value := by
  constructor
  · intro h
    obtain ⟨machine, hpush, hresult⟩ := Option.bind_eq_some_iff.1 h
    have htaken : machine.taken = ts := taken_pushAll hpush
    have hmachine : machine = finished [] value := by
      unfold result? at hresult
      split at hresult <;> cases hresult
      rfl
    rw [← htaken, hmachine]
    rfl
  · rintro rfl
    exact Option.bind_eq_some_iff.2 ⟨_, pushAll_tokens value, rfl⟩

/-- Nothing can be taken behind a value that is finished. -/
theorem ofTokens?_append_eq_none (value : Spelled) (token : Token) (rest : List Token) :
    ofTokens? (tokens value ++ token :: rest) = none := by
  rw [Option.eq_none_iff_forall_ne_some]
  intro other h
  obtain ⟨machine, hpush, -⟩ := Option.bind_eq_some_iff.1 h
  have hbehind : (finished [] value).pushAll (token :: rest) = some machine :=
    (push_tokens value [] (token :: rest)).symm.trans hpush
  obtain ⟨next, hnext, -⟩ := pushAll_cons_eq_some_iff.1 hbehind
  cases token <;> cases hnext

/-! ## Numbers stand apart -/

theorem Machine.finished_of_isNumber {m m' : Machine} {token : Token} (h : m.push token = some m')
    (hnumber : token.IsNumber) : ∃ stack value, m' = finished stack value := by
  cases token with
  | number spelling =>
    cases m with
    | needValue stack =>
      cases h
      exact ⟨_, _, rfl⟩
    | openArray stack =>
      cases h
      exact ⟨_, _, rfl⟩
    | finished stack value => rcases stack with _ | ⟨_ | _, stack⟩ <;> cases h
    | _ => cases h
  | _ => cases hnumber

theorem Machine.not_isNumber_of_finished {m' : Machine} {stack : List Frame} {value : Spelled}
    {token : Token} (h : (finished stack value).push token = some m') : ¬ token.IsNumber := by
  rintro hnumber
  cases token with
  | number spelling => rcases stack with _ | ⟨_ | _, stack⟩ <;> cases h
  | _ => cases hnumber

/-- The machine never takes a number right behind another one. -/
theorem Machine.apart_of_pushAll {m m' : Machine} {ts : List Token} (h : m.pushAll ts = some m') :
    Apart ts := by
  induction ts generalizing m with
  | nil => exact .nil
  | cons token ts ih =>
    obtain ⟨next, hpush, hrest⟩ := pushAll_cons_eq_some_iff.1 h
    refine List.isChain_cons.2 ⟨fun second hsecond hnumber => ?_, ih hrest⟩
    obtain ⟨stack, value, rfl⟩ := finished_of_isNumber hpush hnumber
    obtain ⟨more, rfl⟩ := List.head?_eq_some_iff.1 hsecond
    obtain ⟨_, hsecondPush, -⟩ := pushAll_cons_eq_some_iff.1 hrest
    exact not_isNumber_of_finished hsecondPush

theorem apart_tokens (value : Spelled) : Apart (tokens value) :=
  apart_of_pushAll (pushAll_tokens value)

/-- Only a number ends with one. -/
theorem not_isNumber_of_getLast? {value : Spelled} (h : ∀ spelling, value ≠ .number spelling) :
    ∀ token ∈ (tokens value).getLast?, ¬ token.IsNumber := by
  intro token hlast hnumber
  cases value with
  | number spelling => exact h spelling rfl
  | array items =>
    rw [tokens, List.getLast?_concat] at hlast
    cases hlast
    cases hnumber
  | object members =>
    rw [tokens, List.getLast?_concat] at hlast
    cases hlast
    cases hnumber
  | _ =>
    cases hlast
    cases hnumber

/-! ## The texts of a value -/

/-- A text that is made up of the tokens of a value. -/
def IsTextOf (value : Spelled) (text : List Char) : Prop := Lexed text (tokens value)

/-- A value is read from its texts, and from no others. -/
theorem read?_eq_some_iff {text : List Char} {value : Spelled} :
    read? text = some value ↔ IsTextOf value text := by
  constructor
  · intro h
    unfold read? at h
    split at h
    next ts hscan =>
      rw [ofTokens?_eq_some_iff] at h
      subst h
      exact lexed_of_scan hscan
    · cases h
  · intro h
    have hends : ∀ token ∈ (tokens value).getLast?, token.IsNumber → EndsNumber [] := by
      rintro _ _ _ _ ⟨⟩
    have hscan := h.scan_append (apart_tokens value) hends
    have hnothing : Token.scan [] = ([], []) := rfl
    rw [hnothing, List.append_nil, List.append_nil] at hscan
    rw [read?, hscan]
    exact ofTokens?_eq_some_iff.2 rfl

/-- A text is one of a single value. -/
theorem IsTextOf.unique {text : List Char} {value value' : Spelled} (h : IsTextOf value text)
    (h' : IsTextOf value' text) : value = value' :=
  Option.some.inj ((read?_eq_some_iff.2 h).symm.trans (read?_eq_some_iff.2 h'))

/-- Only blanks may stand behind a value; a number might go on, and is left aside. -/
theorem read?_append {value : Spelled} {text more : List Char} (h : IsTextOf value text)
    (hnumber : ∀ spelling, value ≠ .number spelling) (hmore : ¬ Blank more) :
    read? (text ++ more) = none := by
  have hscan : Token.scan (text ++ more) =
      (tokens value ++ (Token.scan more).1, (Token.scan more).2) :=
    h.scan_append (apart_tokens value) fun token hlast hisNumber =>
      absurd hisNumber (not_isNumber_of_getLast? hnumber token hlast)
  unfold read?
  rw [hscan]
  split
  next ts hsplit =>
    obtain ⟨rfl, hrest⟩ := Prod.mk.inj hsplit
    -- there is a token in what stands behind, for it is not blank
    cases htokens : (Token.scan more).1 with
    | nil =>
      have hlexed : Lexed more [] := lexed_of_scan (Prod.ext htokens hrest)
      cases hlexed with
      | nil hblank => exact absurd hblank hmore
    | cons token rest => exact ofTokens?_append_eq_none value token rest
  · rfl

end Caretaker.Json
