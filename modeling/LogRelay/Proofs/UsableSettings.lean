import LogRelay.Proofs.BreakDown
import LogRelay.Proofs.Calls
import LogRelay.Scenario.Host

/-!
# Settings that a relay can run with

Settings are accepted with any numbers in them, but not with all of them a relay can run.
Those with which it can (`IsUsable`) are told apart by two bounds and a zero:

* with more room for requests than a channel can have, no relay can be created;
* with a debounce time of zero, or more room for logs than a channel can have, the control
  task breaks down as soon as it begins to process;
* with all other settings it breaks down in no run but over a pair that is registered twice or a
  listener that breaks down.

No setting is too small for the room of a channel, as there is always room for one.
-/

namespace LogRelay

theorem Duration.toMillis_ofMillis (millis : Nat) : (ofMillis millis).toMillis = millis := by
  have hwhole : millis % 1000 * 1000000 / 1000000 = millis % 1000 :=
    Nat.mul_div_cancel _ (by decide)
  rw [toMillis, ofMillis, hwhole]
  exact Nat.div_add_mod' millis 1000

/-- A relay can run with the settings. -/
structure RelayConfig.IsUsable (config : RelayConfig) : Prop where
  debounce : config.subscription.debounceMillis ≠ 0
  commandBuffer : config.channels.commandBuffer.toNat ≤ RelayParameters.greatestRoom
  logBuffer : config.channels.logBuffer.toNat ≤ RelayParameters.greatestRoom

namespace RelayParameters

/-- The control task cannot process with the parameters. -/
def IsUnfit (parameters : RelayParameters) : Prop :=
  parameters.debounce = 0 ∨ greatestRoom < parameters.logRoom

theorem debounce_ofConfig_eq_zero (config : RelayConfig) :
    (ofConfig config).debounce = 0 ↔ config.subscription.debounceMillis = 0 := by
  change (Duration.ofMillis config.subscription.debounceMillis.toNat).toMillis = 0 ↔ _
  rw [Duration.toMillis_ofMillis]
  exact UInt64.toNat_inj (b := 0)

theorem commandRoom_ofConfig_le (config : RelayConfig) :
    (ofConfig config).commandRoom ≤ greatestRoom ↔
      config.channels.commandBuffer.toNat ≤ greatestRoom :=
  Nat.max_le.trans (and_iff_left (by decide))

theorem logRoom_ofConfig_le (config : RelayConfig) :
    (ofConfig config).logRoom ≤ greatestRoom ↔
      config.channels.logBuffer.toNat ≤ greatestRoom :=
  Nat.max_le.trans (and_iff_left (by decide))

end RelayParameters

/-- Usable settings are those that leave room for the requests and lead to parameters with which the
control task can process. -/
theorem RelayConfig.isUsable_iff (config : RelayConfig) :
    config.IsUsable ↔ config.channels.commandBuffer.toNat ≤ RelayParameters.greatestRoom ∧
      ¬(RelayParameters.ofConfig config).IsUnfit := by
  rw [RelayParameters.IsUnfit, not_or, RelayParameters.debounce_ofConfig_eq_zero, Nat.not_lt,
    RelayParameters.logRoom_ofConfig_le]
  constructor
  · rintro ⟨hdebounce, hcommands, hlogs⟩
    exact ⟨hcommands, hdebounce, hlogs⟩
  · rintro ⟨hcommands, hdebounce, hlogs⟩
    exact ⟨hdebounce, hcommands, hlogs⟩

/-- The default settings are usable. -/
example : ({} : RelayConfig).IsUsable := ⟨by decide, by decide, by decide⟩

namespace Machine

variable {machine : Machine} {parameters : RelayParameters}
  {breaksOn : ListenerId → RawLog → Bool}

/-! ## Parameters with which the control task cannot process -/

theorem phase_crash (machine : Machine) (fresh : Option Nat) :
    (machine.crash fresh).phase = .crashed := by
  obtain ⟨quiet, hdown⟩ := machine.breaksDown_crash fresh
  exact hdown.phase

/-- The control task breaks down when a pass is complete. -/
theorem phase_completePass (hunfit : machine.parameters.IsUnfit) (fresh : Option Nat)
    (logs : List RawLog) : (machine.completePass fresh logs).phase = .crashed := by
  by_cases hroom : RelayParameters.greatestRoom < machine.parameters.logRoom
  · simp only [completePass, emit, hroom, if_true]
    exact phase_crash ..
  · -- The stages can be made, but then there is no time between two looks at the addresses.
    have hdebounce := hunfit.resolve_right hroom
    have hadopts := adopts_adopt (machine.emit (.gathered logs fresh)) fresh logs
    have hsame : ((machine.emit (.gathered logs fresh)).adopt fresh logs).parameters.debounce = 0 :=
      hadopts.parameters ▸ hdebounce
    simp only [completePass, hsame, if_true]
    rw [if_neg (by exact hroom)]
    exact phase_crash ..

theorem phase_beginPass (hunfit : machine.parameters.IsUnfit)
    (hregistry : machine.registry.addresses = []) : machine.beginPass.phase = .crashed := by
  have hbegan : (machine.record [.began []]).parameters.IsUnfit := hunfit
  rw [beginPass_eq, if_pos hregistry]
  exact phase_completePass hbegan none []

/-- A relay that was started but has not done anything. -/
def started (parameters : RelayParameters) (breaksOn : ListenerId → RawLog → Bool) : Machine :=
  { Machine.initial parameters breaksOn with lifecycle := .running, phase := .waiting }

/-- The control task breaks down in its first step, over nothing that was registered or taken. -/
theorem exists_crashed (hunfit : parameters.IsUnfit) (breaksOn : ListenerId → RawLog → Bool) :
    ∃ machine, (Machine.initial parameters breaksOn).run? [.start, .step .control] = some machine ∧
      machine.phase = .crashed ∧ ¬machine.history.Repeated ∧ ¬machine.IsLetDown := by
  obtain ⟨⟨burst, hburst, hhistory⟩, -⟩ := (started parameters breaksOn).offStream_beginPass
  refine ⟨(started parameters breaksOn).beginPass, rfl, phase_beginPass hunfit rfl, ?_, ?_⟩
  · rintro ⟨request, hmem, -⟩
    rw [hhistory, hburst.requests] at hmem
    cases hmem
  · rintro ⟨log, htaken, -⟩
    rw [hhistory, (hburst.sameRoutes _).taken] at htaken
    cases htaken

/-! ## Parameters with which it can -/

/-- In no run the control task breaks down but over a pair that is registered twice or a listener.
-/
theorem isLetDown_of_crashed (hfit : ¬parameters.IsUnfit) {moves : List Move}
    (hrun : (Machine.initial parameters breaksOn).run? moves = some machine)
    (hnew : ¬machine.history.Repeated) (hcrashed : machine.phase = .crashed) :
    machine.IsLetDown := by
  have hstart : (Machine.initial parameters breaksOn).Reachable := .initial parameters breaksOn
  have hparameters : machine.parameters = parameters := hstart.parameters_eq hrun
  rcases (hstart.run hrun).explained.fault hcrashed with hrepeated | hzero | hroom | hdown
  · exact absurd hrepeated hnew
  · exact absurd (.inl (hparameters ▸ hzero)) hfit
  · exact absurd (.inr (hparameters ▸ hroom)) hfit
  · exact hdown

end Machine

/-! ## Relays with given settings -/

namespace Host

variable {config : RelayConfig} {endpoints : List (Endpoint Payload)} {host : Host}

/-- A relay can be created exactly if a channel can have the room for requests. -/
theorem create?_eq_none_iff :
    create? config endpoints = none ↔
      RelayParameters.greatestRoom < config.channels.commandBuffer.toNat := by
  rw [← Nat.not_le, ← RelayParameters.commandRoom_ofConfig_le, Nat.not_le, create?]
  split
  next hroom => simp [hroom]
  next hroom => simp [hroom]

theorem machine_of_create? (h : create? config endpoints = some host) :
    host.world.machine = Machine.initial (.ofConfig config)
      fun listener log => endpoints[listener]?.any (·.breaksOn log) := by
  simp only [create?] at h
  split at h
  next => cases h
  next =>
    cases h
    rfl

/-- The settings are usable exactly if the relay can be created and the control task breaks down
in no run of it, but over a pair that is registered twice or a listener that breaks down. -/
theorem isUsable_iff_runs (config : RelayConfig) (endpoints : List (Endpoint Payload)) :
    config.IsUsable ↔ ∃ host, create? config endpoints = some host ∧
      ∀ moves machine, host.world.machine.run? moves = some machine →
        ¬machine.history.Repeated → machine.phase = .crashed → machine.IsLetDown := by
  rw [config.isUsable_iff]
  constructor
  · rintro ⟨hcommands, hfit⟩
    cases hcreate : create? config endpoints with
    | none => exact absurd (create?_eq_none_iff.mp hcreate) (Nat.not_lt.mpr hcommands)
    | some host =>
        refine ⟨host, rfl, fun moves machine hrun => ?_⟩
        rw [machine_of_create? hcreate] at hrun
        exact Machine.isLetDown_of_crashed hfit hrun
  · rintro ⟨host, hcreate, hruns⟩
    refine ⟨Nat.not_lt.mp fun hcommands => ?_, fun hunfit => ?_⟩
    · cases hcreate.symm.trans (create?_eq_none_iff.mpr hcommands)
    · rw [machine_of_create? hcreate] at hruns
      obtain ⟨machine, hrun, hcrashed, hnew, hup⟩ := Machine.exists_crashed hunfit _
      exact hup (hruns _ machine hrun hnew hcrashed)

end Host

end LogRelay
