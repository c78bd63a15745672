import Caretaker.Probe
import Caretaker.Proofs.Grammar
import Caretaker.Proofs.Numerals
import Caretaker.Proofs.Records

/-!
# What a JSON-RPC endpoint tells

An endpoint that is asked for its latest block tells one exactly if it answers with a status of
success, its body spells a response without an error, and the result of that is a quantity.  Of all
that can be wrong the first is reported: the request is not answered, the status is none of success,
the body spells no response, the response has an error, it has no result, the result is no quantity.

A response is an object with the members `result` and `error`, each at most once and among any
others, or an array of them in this order.  Either may be missing or null.

Main definitions:

- `IsResponse`: the responses of the protocol.
- `TellsBlock`, `FirstFault`: the block that an endpoint tells, and the first thing that is wrong.

Main statements:

- `rpc_answer_iff`: these are the answers of the probe.
-/

namespace Caretaker.Probe

open Json

/-! ## Responses -/

/-- The error object of a response, with its code and its message. -/
structure IsErrorObject (value : Spelled) (error : Int × String) : Prop where
  isRecord : IsRecord ["code", "message"] value
  code : ∃ number, Carries ["code", "message"] "code" value number ∧ number.int64? = some error.1
  message : Carries ["code", "message"] "message" value (.string (some error.2))

/-- The responses of the protocol. -/
structure IsResponse (value : Spelled) (response : RpcResponse) : Prop where
  isRecord : IsRecord ["result", "error"] value
  result : IsOptional (Carries ["result", "error"] "result" value)
    (fun member text => member = .string (some text)) response.result
  error : IsOptional (Carries ["result", "error"] "error" value) IsErrorObject response.error

theorem text?_eq_some_iff {value : Spelled} {text : String} :
    value.text? = some text ↔ value = .string (some text) := by
  cases value <;> simp [Tree.text?]

theorem readErrorObject_eq_some_iff {value : Spelled} {error : Int × String} :
    (do
      let fields ← value.fields? ["code", "message"]
      return (← fields.required? "code" Tree.int64?, ← fields.required? "message" Tree.text?)) =
        some error ↔ IsErrorObject value error := by
  have hnames : ["code", "message"].Nodup := by decide
  constructor
  · intro h
    simp only [Option.bind_eq_bind, Option.bind_eq_some_iff, Option.pure_def,
      Option.some.injEq] at h
    obtain ⟨fields, hfields, code, hcode, message, hmessage, rfl⟩ := h
    obtain ⟨text, htext, hread⟩ := (required?_eq_some_iff hnames (by simp) hfields).1 hmessage
    rw [text?_eq_some_iff] at hread
    subst hread
    exact ⟨exists_fields?_iff.1 ⟨fields, hfields⟩,
      (required?_eq_some_iff hnames (by simp) hfields).1 hcode, htext⟩
  · rintro ⟨hrecord, hcode, hmessage⟩
    obtain ⟨fields, hfields⟩ := exists_fields?_iff.2 hrecord
    have hcode := (required?_eq_some_iff hnames (by simp) hfields).2 hcode
    have hmessage := (required?_eq_some_iff hnames (by simp) hfields).2
      ⟨_, hmessage, text?_eq_some_iff.2 rfl⟩
    simp [hfields, hcode, hmessage]

theorem ofJson?_eq_some_iff {value : Spelled} {response : RpcResponse} :
    RpcResponse.ofJson? value = some response ↔ IsResponse value response := by
  have hnames : ["result", "error"].Nodup := by decide
  -- what the two readers read, as relations
  have hresult {o : Option String} {fields : Fields}
      (hfields : value.fields? ["result", "error"] = some fields) :
      fields.optional? "result" Tree.text? = some o ↔
        IsOptional (Carries ["result", "error"] "result" value)
          (fun member text => member = .string (some text)) o := by
    rw [optional?_eq_some_iff hnames (by simp) hfields rfl]
    simp only [text?_eq_some_iff]
  have herror {o : Option (Int × String)} {fields : Fields}
      (hfields : value.fields? ["result", "error"] = some fields) :
      fields.optional? "error" (fun value => do
        let fields ← value.fields? ["code", "message"]
        return (← fields.required? "code" Tree.int64?, ← fields.required? "message" Tree.text?)) =
          some o ↔ IsOptional (Carries ["result", "error"] "error" value) IsErrorObject o := by
    rw [optional?_eq_some_iff hnames (by simp) hfields rfl]
    simp only [readErrorObject_eq_some_iff]
  unfold RpcResponse.ofJson?
  simp only [Option.bind_eq_bind, Option.bind_eq_some_iff, Option.pure_def, Option.some.injEq]
  constructor
  · rintro ⟨fields, hfields, result, hread, error, hread', rfl⟩
    exact ⟨exists_fields?_iff.1 ⟨fields, hfields⟩, (hresult hfields).1 hread,
      (herror hfields).1 hread'⟩
  · rintro ⟨hrecord, hread, hread'⟩
    obtain ⟨fields, hfields⟩ := exists_fields?_iff.2 hrecord
    exact ⟨fields, hfields, _, (hresult hfields).2 hread, _, (herror hfields).2 hread', rfl⟩

/-! ## What an endpoint tells -/

/-- Whether bytes spell a response. -/
def SpellsResponse (bytes : List UInt8) (response : RpcResponse) : Prop :=
  ∃ value, IsTextOf value (Utf8.decodeMarking brokenMark bytes) ∧ IsResponse value response

theorem spellsResponse_iff {bytes : List UInt8} {response : RpcResponse} :
    (readBytes? bytes).bind RpcResponse.ofJson? = some response ↔
      SpellsResponse bytes response := by
  simp only [readBytes?, Option.bind_eq_some_iff, read?_eq_some_iff, ofJson?_eq_some_iff,
    SpellsResponse]

/-- A URL of the web, which can be asked. -/
def IsWeb (url : Net.Url) : Prop :=
  (url.scheme = "http" ∨ url.scheme = "https") ∧ url.host.isSome = true

/-- The endpoint at a URL is asked for its latest block, and that ends in some way. -/
structure Asked (network : Network) (text : String) (url : Net.Url) (outcome : Http.Outcome) :
    Prop where
  parsed : Net.Url.parse text = .ok url
  isWeb : IsWeb url
  ends : network url blockRequest = outcome

/-- A status of success. -/
def Succeeds (status : Nat) : Prop := 200 ≤ status ∧ status < 300

/-- An endpoint answers with a status of success and a response. -/
def Responds (network : Network) (text : String) (response : RpcResponse) : Prop :=
  ∃ url status bytes, Asked network text url (.answered status (some bytes)) ∧ Succeeds status ∧
    SpellsResponse bytes response

/-- An endpoint tells its latest block: a response has it as a quantity, and has no error. -/
def TellsBlock (network : Network) (text : String) (n : Nat) : Prop :=
  ∃ value digits, Responds network text ⟨some value, none⟩ ∧ value.toList = '0' :: 'x' :: digits ∧
    Text.IsNumeral 16 digits n ∧ n ≤ 2 ^ 64 - 1

/-- The first thing that is wrong when an endpoint tells no block. -/
inductive FirstFault (network : Network) (text : String) : Fault → Prop where
  | noUrl {cause : Net.Url.Fault} (h : Net.Url.parse text = .error cause) :
      FirstFault network text (.noUrl cause)
  | unusable {url : Net.Url} (h : Net.Url.parse text = .ok url) (hweb : ¬ IsWeb url) :
      FirstFault network text (.unusable url.withoutUserInfo.render)
  | unanswered {url : Net.Url} {causes : List String}
      (h : Asked network text url (.failed causes)) :
      FirstFault network text (.unanswered url.withoutUserInfo.render causes)
  | rpcStatus {url : Net.Url} {status : Nat} {body : Option (List UInt8)}
      (h : Asked network text url (.answered status body)) (hstatus : ¬ Succeeds status) :
      FirstFault network text (.rpcStatus status (bodyText body))
  | undecodable {url : Net.Url} {status : Nat} {body : Option (List UInt8)}
      (h : Asked network text url (.answered status body)) (hstatus : Succeeds status)
      (hbody : ∀ bytes ∈ body, ∀ response, ¬ SpellsResponse bytes response) :
      FirstFault network text .undecodable
  | rpcError {result : Option String} {code : Int} {message : String}
      (h : Responds network text ⟨result, some (code, message)⟩) :
      FirstFault network text (.rpcError code message)
  | noResult (h : Responds network text ⟨none, none⟩) : FirstFault network text .noResult
  | notHex {value : String} (h : Responds network text ⟨some value, none⟩)
      (hvalue : ∀ digits, value.toList ≠ '0' :: 'x' :: digits) :
      FirstFault network text (.notHex value)
  | invalidQuantity {value : String} {digits : List Char} {cause : Text.NumberFault}
      (h : Responds network text ⟨some value, none⟩) (hvalue : value.toList = '0' :: 'x' :: digits)
      (hdigits : Text.Refused 16 (2 ^ 64 - 1) digits cause) :
      FirstFault network text (.invalidQuantity value cause)

variable {network : Network} {text : String} {url : Net.Url} {status : Nat}
  {body : Option (List UInt8)} {response : RpcResponse}

theorem isSuccess_iff : Http.isSuccess status = true ↔ Succeeds status := by
  simp [Http.isSuccess, Succeeds]

theorem answer_eq (network : Network) (text : String) :
    (overHttp network).answer (.rpc text) =
      (post network text blockRequest).bind fun (status, body) => blockOf status body := rfl

theorem isWeb_iff : ((url.scheme == "http" || url.scheme == "https") && url.host.isSome) = true ↔
    IsWeb url := by
  simp [IsWeb]

theorem Asked.answer (h : Asked network text url (.answered status body)) :
    (overHttp network).answer (.rpc text) = blockOf status body := by
  have hweb := isWeb_iff.2 h.isWeb
  simp only [answer_eq, post, h.parsed, hweb, if_true, h.ends, Except.bind]

/-- What a response tells: its error counts first, then its result. -/
def told : RpcResponse → Except Fault Nat
  | { error := some (code, message), .. } => .error (.rpcError code message)
  | { result := none, .. } => .error .noResult
  | { result := some value, .. } => quantity value

theorem Responds.answer (h : Responds network text response) :
    (overHttp network).answer (.rpc text) = told response := by
  obtain ⟨url, status, bytes, hasked, hstatus, hbytes⟩ := h
  rw [hasked.answer, blockOf, isSuccess_iff.2 hstatus, Option.bind_some,
    spellsResponse_iff.2 hbytes]
  obtain ⟨_ | value, _ | ⟨code, message⟩⟩ := response <;> rfl

theorem Responds.answer_quantity {value : String} (h : Responds network text ⟨some value, none⟩) :
    (overHttp network).answer (.rpc text) = quantity value := h.answer

theorem quantity_eq {value : String} {digits : List Char}
    (h : value.toList = '0' :: 'x' :: digits) :
    quantity value =
      (Text.readNumber 16 Text.maxU64 digits).mapError (.invalidQuantity value) := by
  rw [quantity, h]
  rfl

theorem quantity_eq_notHex {value : String} (h : ∀ digits, value.toList ≠ '0' :: 'x' :: digits) :
    quantity value = .error (.notHex value) := by
  rw [quantity]
  split
  · next digits hvalue => exact absurd hvalue (h digits)
  · rfl

theorem TellsBlock.answer {n : Nat} (h : TellsBlock network text n) :
    (overHttp network).answer (.rpc text) = .ok n := by
  obtain ⟨value, digits, hresponds, hvalue, hdigits, hle⟩ := h
  have hread : Text.readNumber 16 Text.maxU64 digits = .ok n :=
    hdigits.readNumber (by decide) (by decide) hle
  rw [hresponds.answer_quantity, quantity_eq hvalue, hread]
  rfl

theorem FirstFault.answer {fault : Fault} (h : FirstFault network text fault) :
    (overHttp network).answer (.rpc text) = .error fault := by
  cases h with
  | noUrl h => simp only [answer_eq, post, h, Except.bind]
  | unusable h hweb =>
    rw [← isWeb_iff] at hweb
    simp only [answer_eq, post, h, hweb, Bool.false_eq_true, if_false, Except.bind]
  | unanswered h =>
    have hweb := isWeb_iff.2 h.isWeb
    simp only [answer_eq, post, h.parsed, hweb, if_true, h.ends, Except.bind]
  | rpcStatus h hstatus =>
    rw [← isSuccess_iff, Bool.not_eq_true] at hstatus
    rw [h.answer, blockOf, hstatus]
    rfl
  | @undecodable url status body h hstatus hbody =>
    have hnone : (body.bind readBytes?).bind RpcResponse.ofJson? = none := by
      cases body with
      | none => rfl
      | some bytes =>
        exact Option.eq_none_iff_forall_ne_some.2 fun response hresponse =>
          hbody bytes rfl response (spellsResponse_iff.1 hresponse)
    rw [h.answer, blockOf, isSuccess_iff.2 hstatus, hnone]
    rfl
  | rpcError h => exact h.answer
  | noResult h => exact h.answer
  | notHex h hvalue =>
    rw [h.answer_quantity, quantity_eq_notHex hvalue]
  | @invalidQuantity value digits cause h hvalue hdigits =>
    have hread : Text.readNumber 16 Text.maxU64 digits = .error cause :=
      hdigits.readNumber (by decide) (by decide)
    rw [h.answer_quantity, quantity_eq hvalue, hread]
    rfl

/-- Either a block is told or something is wrong. -/
theorem tellsBlock_or_firstFault (network : Network) (text : String) :
    (∃ n, TellsBlock network text n) ∨ ∃ fault, FirstFault network text fault := by
  rcases hparsed : Net.Url.parse text with cause | url
  · exact .inr ⟨_, .noUrl hparsed⟩
  by_cases hweb : IsWeb url
  swap
  · exact .inr ⟨_, .unusable hparsed hweb⟩
  rcases hends : network url blockRequest with ⟨status, body⟩ | causes
  swap
  · exact .inr ⟨_, .unanswered ⟨hparsed, hweb, hends⟩⟩
  have hasked : Asked network text url (.answered status body) := ⟨hparsed, hweb, hends⟩
  by_cases hstatus : Succeeds status
  swap
  · exact .inr ⟨_, .rpcStatus hasked hstatus⟩
  by_cases hbody : ∃ bytes ∈ body, ∃ response, SpellsResponse bytes response
  swap
  · exact .inr ⟨_, .undecodable hasked hstatus fun bytes hbytes response hresponse =>
      hbody ⟨bytes, hbytes, response, hresponse⟩⟩
  obtain ⟨bytes, rfl, response, hbytes⟩ := hbody
  have hresponds : Responds network text response := ⟨url, status, bytes, hasked, hstatus, hbytes⟩
  obtain ⟨_ | value, _ | ⟨code, message⟩⟩ := response
  · exact .inr ⟨_, .noResult hresponds⟩
  · exact .inr ⟨_, .rpcError hresponds⟩
  · -- a result without an error
    by_cases hhex : ∃ digits, value.toList = '0' :: 'x' :: digits
    swap
    · exact .inr ⟨_, .notHex hresponds (not_exists.1 hhex)⟩
    obtain ⟨digits, hvalue⟩ := hhex
    rcases Text.isNumeral_or_refused (by decide : 16 ≤ 16) (2 ^ 64 - 1) digits with
      ⟨n, hle, hn⟩ | ⟨cause, hcause⟩
    · exact .inl ⟨n, value, digits, hresponds, hvalue, hn, hle⟩
    · exact .inr ⟨_, .invalidQuantity hresponds hvalue hcause⟩
  · exact .inr ⟨_, .rpcError hresponds⟩

/-- A block is reported exactly if the endpoint tells it, and otherwise the first fault. -/
theorem rpc_answer_iff (network : Network) (text : String) :
    (∀ n, (overHttp network).answer (.rpc text) = .ok n ↔ TellsBlock network text n) ∧
      ∀ fault, (overHttp network).answer (.rpc text) = .error fault ↔
        FirstFault network text fault := by
  refine ⟨fun n => ⟨fun h => ?_, TellsBlock.answer⟩, fun fault => ⟨fun h => ?_, FirstFault.answer⟩⟩
  · rcases tellsBlock_or_firstFault network text with ⟨m, hm⟩ | ⟨fault, hfault⟩
    · rw [hm.answer] at h
      cases h
      exact hm
    · rw [hfault.answer] at h
      cases h
  · rcases tellsBlock_or_firstFault network text with ⟨m, hm⟩ | ⟨other, hother⟩
    · rw [hm.answer] at h
      cases h
    · rw [hother.answer] at h
      cases h
      exact hother

end Caretaker.Probe
