import Caretaker.Settings
import Caretaker.Proofs.Addresses

/-!
# Variables of the settings

Three variables can be malformed: the number of log files, the health address and the keep-alive
interval.  The settings are described if all three are well formed, and otherwise the first one of
them that is not is reported with its cause.  No variable counts but the documented ones.

Main definitions:

- `WellFormed`: the numbers and the address that the three variables spell.
- `Malformed`: the first malformed variable and what is wrong with it.

Main statements:

- `ofLookup_exact`: when there are settings, which numbers they have, and what is reported else.
-/

namespace Caretaker.Settings

/-- The documented variables. -/
def documented : List String :=
  ["RUNNER_DEVELOPMENT", "RUNNER_AUTO_UPDATE_DISABLE", "RUNNER_NODE_DIR", "RUNNER_PASSPHRASE",
    "RUNNER_SCAN_JSON_RPC_URL", "RUNNER_TRACE_ENABLED", "RUNNER_TRACE_JSON_RPC_URL",
    "RUNNER_PUBLISH_API_URL", "RUNNER_CONTAINER_REGISTRY", "RUNNER_MAX_LOG_SIZE",
    "RUNNER_MAX_LOG_FILES", "RUNNER_LOG_LEVEL", "RUNNER_HEALTH_ADDR", "RUNNER_DOCKER_SOCKET",
    "RUNNER_SUPERVISOR_IMAGE", "RUNNER_UPDATER_IMAGE", "RUNNER_KEEP_ALIVE_INTERVAL"]

section

variable (lookup : String → Option String)

/-- The text of the number of log files. -/
def logFilesText : List Char := ((lookup "RUNNER_MAX_LOG_FILES").getD "10").toList

/-- The text of the health address. -/
def healthAddressText : List Char := ((lookup "RUNNER_HEALTH_ADDR").getD "0.0.0.0:8090").toList

/-- The text of the keep-alive interval. -/
def keepAliveText : List Char := ((lookup "RUNNER_KEEP_ALIVE_INTERVAL").getD "10").toList

/-- The number of log files that is spelled. -/
def IsLogFiles (n : Nat) : Prop :=
  Text.IsNumeral 10 (logFilesText lookup) n ∧ n ≤ 2 ^ 32 - 1

/-- The health address that is spelled. -/
def IsHealthAddress (address : Net.SocketAddress) : Prop :=
  Net.IsSocketAddress (healthAddressText lookup) address

/-- The keep-alive interval that is spelled, zero also. -/
def IsKeepAlive (n : Nat) : Prop :=
  Text.IsNumeral 10 (keepAliveText lookup) n ∧ n ≤ 2 ^ 64 - 1

/-- All three variables are well formed. -/
structure WellFormed (maxLogFiles : Nat) (healthAddress : Net.SocketAddress)
    (keepAliveSeconds : Nat) : Prop where
  logFiles : IsLogFiles lookup maxLogFiles
  healthAddress : IsHealthAddress lookup healthAddress
  keepAlive : IsKeepAlive lookup keepAliveSeconds
  keepAlive_pos : 0 < keepAliveSeconds

/-- The first malformed variable, what it must be and the cause, and the fault. -/
inductive Malformed : (name demand : String) → Fault → Prop where
  | logFiles {cause : Text.NumberFault}
      (h : Text.Refused 10 (2 ^ 32 - 1) (logFilesText lookup) cause) :
      Malformed "RUNNER_MAX_LOG_FILES" ("a non-negative integer: " ++ cause.message)
        (.logFiles cause)
  | healthAddress {n : Nat} (hlogFiles : IsLogFiles lookup n)
      (h : ∀ address, ¬ IsHealthAddress lookup address) :
      Malformed "RUNNER_HEALTH_ADDR" "a socket address: invalid socket address syntax"
        .healthAddress
  | keepAlive {n : Nat} {address : Net.SocketAddress} {cause : Text.NumberFault}
      (hlogFiles : IsLogFiles lookup n) (haddress : IsHealthAddress lookup address)
      (h : Text.Refused 10 (2 ^ 64 - 1) (keepAliveText lookup) cause) :
      Malformed "RUNNER_KEEP_ALIVE_INTERVAL" ("a number of seconds: " ++ cause.message)
        (.keepAlive cause)
  | keepAliveZero {n : Nat} {address : Net.SocketAddress}
      (hlogFiles : IsLogFiles lookup n) (haddress : IsHealthAddress lookup address)
      (h : IsKeepAlive lookup 0) :
      Malformed "RUNNER_KEEP_ALIVE_INTERVAL" "greater than zero" .keepAliveZero

end

variable {lookup : String → Option String}

/-! ## Reading the three -/

theorem readNumber_logFiles {n : Nat} : IsLogFiles lookup n ↔
    Text.readNumber 10 Text.maxU32 ((lookup "RUNNER_MAX_LOG_FILES").getD "10").toList = .ok n :=
  (Text.readNumber_eq_ok_iff (by decide) (by decide)).symm

theorem readNumber_keepAlive {n : Nat} : IsKeepAlive lookup n ↔
    Text.readNumber 10 Text.maxU64 ((lookup "RUNNER_KEEP_ALIVE_INTERVAL").getD "10").toList =
      .ok n :=
  (Text.readNumber_eq_ok_iff (by decide) (by decide)).symm

theorem parse?_healthAddress {address : Net.SocketAddress} : IsHealthAddress lookup address ↔
    Net.SocketAddress.parse? ((lookup "RUNNER_HEALTH_ADDR").getD "0.0.0.0:8090") = some address :=
  Net.SocketAddress.parse?_eq_some_iff.symm

/-- Well-formed variables make settings. -/
theorem WellFormed.ofLookup {maxLogFiles keepAliveSeconds : Nat}
    {healthAddress : Net.SocketAddress}
    (h : WellFormed lookup maxLogFiles healthAddress keepAliveSeconds) :
    ∃ settings, ofLookup lookup = .ok settings ∧ settings.maxLogFiles = maxLogFiles ∧
      settings.healthAddress = healthAddress ∧ settings.keepAliveSeconds = keepAliveSeconds := by
  have hlogFiles := readNumber_logFiles.1 h.logFiles
  have haddress := parse?_healthAddress.1 h.healthAddress
  have hkeepAlive := readNumber_keepAlive.1 h.keepAlive
  have hpos : keepAliveSeconds ≠ 0 := Nat.pos_iff_ne_zero.1 h.keepAlive_pos
  unfold Settings.ofLookup
  simp only [hlogFiles, haddress, hkeepAlive, hpos, if_false, Except.mapError, bind, Except.bind,
    pure, Except.pure]
  exact ⟨_, rfl, rfl, rfl, rfl⟩

/-- A malformed variable is reported. -/
theorem Malformed.ofLookup {name demand : String} {fault : Fault}
    (h : Malformed lookup name demand fault) : ofLookup lookup = .error fault := by
  unfold Settings.ofLookup
  simp only [bind, Except.bind]
  cases h with
  | @logFiles cause h =>
    have hread : Text.readNumber 10 Text.maxU32
        ((lookup "RUNNER_MAX_LOG_FILES").getD "10").toList = .error cause :=
      h.readNumber (by decide) (by decide)
    rw [hread]
    rfl
  | healthAddress hlogFiles h =>
    have haddress : Net.SocketAddress.parse?
        ((lookup "RUNNER_HEALTH_ADDR").getD "0.0.0.0:8090") = none :=
      Option.eq_none_iff_forall_ne_some.2 fun address haddress =>
        h address (parse?_healthAddress.2 haddress)
    rw [readNumber_logFiles.1 hlogFiles, haddress]
    rfl
  | @keepAlive _ _ cause hlogFiles haddress h =>
    have hread : Text.readNumber 10 Text.maxU64
        ((lookup "RUNNER_KEEP_ALIVE_INTERVAL").getD "10").toList = .error cause :=
      h.readNumber (by decide) (by decide)
    rw [readNumber_logFiles.1 hlogFiles, parse?_healthAddress.1 haddress, hread]
    rfl
  | keepAliveZero hlogFiles haddress h =>
    rw [readNumber_logFiles.1 hlogFiles, parse?_healthAddress.1 haddress,
      readNumber_keepAlive.1 h]
    rfl

/-- The variables are well formed or there is a first one that is not. -/
theorem wellFormed_or_malformed (lookup : String → Option String) :
    (∃ maxLogFiles healthAddress keepAliveSeconds,
      WellFormed lookup maxLogFiles healthAddress keepAliveSeconds) ∨
      ∃ name demand fault, Malformed lookup name demand fault := by
  have hread (limit : Nat) (text : List Char) :
      (∃ n, Text.IsNumeral 10 text n ∧ n ≤ limit) ∨ ∃ cause, Text.Refused 10 limit text cause := by
    rcases Text.isNumeral_or_refused (by decide : 10 ≤ 16) limit text with ⟨n, hle, hn⟩ | h
    · exact .inl ⟨n, hn, hle⟩
    · exact .inr h
  rcases hread _ (logFilesText lookup) with ⟨maxLogFiles, hlogFiles⟩ | ⟨cause, hcause⟩
  swap
  · exact .inr ⟨_, _, _, .logFiles hcause⟩
  by_cases haddress : ∃ address, IsHealthAddress lookup address
  swap
  · exact .inr ⟨_, _, _, .healthAddress hlogFiles (not_exists.1 haddress)⟩
  obtain ⟨address, haddress⟩ := haddress
  rcases hread _ (keepAliveText lookup) with ⟨keepAliveSeconds, hkeepAlive⟩ | ⟨cause, hcause⟩
  swap
  · exact .inr ⟨_, _, _, .keepAlive hlogFiles haddress hcause⟩
  rcases Nat.eq_zero_or_pos keepAliveSeconds with rfl | hpos
  · exact .inr ⟨_, _, _, .keepAliveZero hlogFiles haddress hkeepAlive⟩
  · exact .inl ⟨_, _, _, hlogFiles, haddress, hkeepAlive, hpos⟩

/-- A fault names the variable and says what it must be. -/
theorem Malformed.message_eq {name demand : String} {fault : Fault}
    (h : Malformed lookup name demand fault) : fault.message = name ++ " must be " ++ demand := by
  cases h with
  | @logFiles cause | @keepAlive _ _ cause => cases cause <;> rfl
  | healthAddress | keepAliveZero => rfl

/-- Only the documented variables are looked up. -/
theorem ofLookup_congr {other : String → Option String}
    (h : ∀ name ∈ documented, lookup name = other name) : ofLookup lookup = ofLookup other := by
  simp only [documented, List.forall_mem_cons] at h
  simp only [Settings.ofLookup, h]

/-- There are settings exactly if the three variables are well formed, with the numbers and the
address that these spell.  Otherwise the first malformed one is reported.  Only the documented
variables count. -/
theorem ofLookup_exact (lookup : String → Option String) :
    ((∃ settings, ofLookup lookup = .ok settings) ↔
      ∃ maxLogFiles healthAddress keepAliveSeconds,
        WellFormed lookup maxLogFiles healthAddress keepAliveSeconds) ∧
    (∀ settings, ofLookup lookup = .ok settings →
      WellFormed lookup settings.maxLogFiles settings.healthAddress settings.keepAliveSeconds) ∧
    (∀ fault, ofLookup lookup = .error fault ↔
      ∃ name demand, Malformed lookup name demand fault ∧
        fault.message = name ++ " must be " ++ demand) ∧
    ∀ other, (∀ name ∈ documented, lookup name = other name) →
      ofLookup lookup = ofLookup other := by
  have hok (settings : Settings) (h : ofLookup lookup = .ok settings) :
      WellFormed lookup settings.maxLogFiles settings.healthAddress settings.keepAliveSeconds := by
    rcases wellFormed_or_malformed lookup with ⟨_, _, _, hwell⟩ | ⟨_, _, _, hmalformed⟩
    · obtain ⟨_, hsettings, hlogFiles, haddress, hkeepAlive⟩ := hwell.ofLookup
      rw [h] at hsettings
      cases hsettings
      rwa [hlogFiles, haddress, hkeepAlive]
    · rw [hmalformed.ofLookup] at h
      cases h
  refine ⟨⟨fun ⟨settings, h⟩ => ⟨_, _, _, hok settings h⟩, fun ⟨_, _, _, h⟩ => ?_⟩, hok,
    fun fault => ⟨fun h => ?_, fun ⟨_, _, h, _⟩ => h.ofLookup⟩, fun _ => ofLookup_congr⟩
  · obtain ⟨settings, hsettings, -⟩ := h.ofLookup
    exact ⟨settings, hsettings⟩
  · rcases wellFormed_or_malformed lookup with ⟨_, _, _, hwell⟩ | ⟨name, demand, _, hmalformed⟩
    · obtain ⟨settings, hsettings, -⟩ := hwell.ofLookup
      rw [h] at hsettings
      cases hsettings
    · have hfault := hmalformed.ofLookup
      rw [h] at hfault
      cases hfault
      exact ⟨name, demand, hmalformed, hmalformed.message_eq⟩

/-- A variable that is not documented changes nothing. -/
theorem ofLookup_exact_undocumented :
    let lookup := fun name => if name = "RUNNER_MAX_LOG_FILES" then some "+007" else none
    let other := fun name => if name = "RUNNER_LOG_FORMAT" then some "json" else lookup name
    (∀ name ∈ documented, lookup name = other name) ∧ ofLookup lookup = ofLookup other := by
  have h : ∀ name ∈ documented,
      (if name = "RUNNER_MAX_LOG_FILES" then some "+007" else none) =
        if name = "RUNNER_LOG_FORMAT" then some "json"
        else if name = "RUNNER_MAX_LOG_FILES" then some "+007" else none := by
    decide
  exact ⟨h, (ofLookup_exact _).2.2.2 _ h⟩

end Caretaker.Settings
