import Mathlib.Data.List.Nodup
import DebugConsole.Proofs.Numeral.Reals
import DebugConsole.Proofs.Text.Capitals
import DebugConsole.Settings

set_option autoImplicit false

/-!
# Every environment gives usable settings

Whatever the variables hold, there is a prompt to wait for, a timeout is a number above zero or none, and
the texts have no blanks at their ends (`IsUsable`).  A setting is read from its own variable and from no
other, and there is one warning for every variable that should hold a number and holds something else.
`usable_ofEnvironment` says this of every environment.

The settings are numbered by `Field`, so that what is true of each of them is said once; and what counts as
a number is the grammar of `Numeral.IsReal`, which does not mention the reader.
-/

namespace DebugConsole.Settings

variable {env env' : Environment} {setting v : String} {x y t : Float}

/-! ## Timeouts -/

theorem isNaN_of_lt (h : x < y) : y.isNaN = false := by
  have hlt : x.toModel.unpack.lt y.toModel.unpack = true := of_decide_eq_true h
  change y.toModel.unpack.isNaN = false
  cases hy : y.toModel.unpack with
  | notANumber =>
    -- Nothing compares with what is not a number.
    rw [hy] at hlt
    cases hx : x.toModel.unpack <;> rw [hx] at hlt <;> cases hlt
  | infinity | zero | finite => rfl

/-- A time that one can wait for: it is above zero, and it is a number. -/
def IsTime (t : Float) : Prop := 0.0 < t ∧ t.isNaN = false

theorem isTime_of_mem_waitingTime (h : t ∈ waitingTime x) : IsTime t := by
  unfold waitingTime at h
  split at h
  · next hx =>
    obtain rfl : x = t := Option.some.inj h
    exact ⟨hx, isNaN_of_lt hx⟩
  · cases h

theorem isTime_timeout (env : Environment) (setting : String) {fallback : Option Float}
    (hfallback : ∀ t ∈ fallback, IsTime t) : ∀ t ∈ (timeout env setting fallback).1, IsTime t := by
  intro t h
  unfold timeout at h
  split at h
  · exact hfallback t h
  · split at h
    · exact isTime_of_mem_waitingTime h
    · exact hfallback t h

/-! ## Texts -/

/-- A text that is not empty and has no blank at its ends. -/
structure IsWord (v : String) : Prop where
  ne_empty : v ≠ ""
  trimmed : Text.trimmed v = v

instance : DecidablePred IsWord := fun v =>
  decidable_of_iff (v ≠ "" ∧ Text.trimmed v = v) ⟨fun h => ⟨h.1, h.2⟩, fun h => ⟨h.1, h.2⟩⟩

theorem isEmpty_trimmed (raw : String) : (Text.trimmed raw).isEmpty = Text.allBlank raw.toList := by
  rw [Bool.eq_iff_iff, String.isEmpty_iff, Text.trimmed, String.ofList_eq_empty_iff, Text.trim_eq_nil_iff]

/-- A variable has a value exactly when it is set to more than blanks. -/
theorem text?_eq_some_iff : text? env setting = some v ↔
    ∃ raw, env.lookup (variableName setting) = some raw ∧ Text.allBlank raw.toList = false ∧
      v = Text.trimmed raw := by
  rw [text?, Option.filter_eq_some_iff, Option.map_eq_some_iff]
  constructor
  · rintro ⟨⟨raw, hraw, rfl⟩, hne⟩
    rw [isEmpty_trimmed, Bool.not_eq_true'] at hne
    exact ⟨raw, hraw, hne, rfl⟩
  · rintro ⟨raw, hraw, hne, rfl⟩
    refine ⟨⟨raw, hraw, rfl⟩, ?_⟩
    rw [isEmpty_trimmed, hne, Bool.not_false]

theorem isWord_of_text? (h : text? env setting = some v) : IsWord v := by
  obtain ⟨raw, -, hne, rfl⟩ := text?_eq_some_iff.1 h
  rw [← isEmpty_trimmed] at hne
  refine ⟨fun hempty => ?_, Text.trimmed_trimmed raw⟩
  rw [hempty] at hne
  cases hne

theorem isWord_getD (hfallback : IsWord v) : IsWord ((text? env setting).getD v) := by
  cases h : text? env setting with
  | none => exact hfallback
  | some raw => exact isWord_of_text? h

theorem IsWord.toUpper (h : IsWord v) : IsWord (Text.toUpper v) :=
  ⟨Text.toUpper_ne_empty h.ne_empty, Text.trimmed_toUpper h.trimmed⟩

theorem getD_raw?_ne_empty {fallback : String} (hfallback : fallback ≠ "") :
    (raw? env setting).getD fallback ≠ "" := by
  cases h : raw? env setting with
  | none => exact hfallback
  | some value =>
    have hvalue := (Option.filter_eq_some_iff.1 h).2
    simpa using hvalue

/-- Settings that a session can run with. -/
structure IsUsable (s : Settings) : Prop where
  prompt : s.prompt ≠ ""
  commandTimeout : ∀ t ∈ s.commandTimeout, IsTime t
  runTimeout : ∀ t ∈ s.runTimeout, IsTime t
  debugger : ∀ v ∈ s.debugger, IsWord v
  interruptSignal : IsWord s.interruptSignal
  toolFolder : ∀ v ∈ s.toolFolder, IsWord v
  toolchain : IsWord s.toolchain
  logLevel : IsWord s.logLevel

theorem isTime_default :
    (∀ t ∈ default.commandTimeout, IsTime t) ∧ ∀ t ∈ default.runTimeout, IsTime t := by
  refine ⟨fun t ht => ?_, fun t ht => absurd ht (Option.not_mem_none t)⟩
  obtain rfl : 15.0 = t := Option.some.inj ht
  exact ⟨by decide, by decide⟩

theorem isUsable_ofEnvironment (env : Environment) : IsUsable (ofEnvironment env).1 where
  prompt := getD_raw?_ne_empty (by decide)
  commandTimeout := (isTime_timeout env "COMMAND_TIMEOUT" isTime_default.1 :)
  runTimeout := (isTime_timeout env "RUN_TIMEOUT" isTime_default.2 :)
  debugger _ h := isWord_of_text? h
  interruptSignal := isWord_getD (by decide)
  toolFolder _ h := isWord_of_text? h
  toolchain := isWord_getD (by decide)
  logLevel := (isWord_getD (by decide)).toUpper

/-! ## Settings and their variables -/

/-- The settings, of which each has a variable. -/
inductive Field where
  | debugger
  | prompt
  | commandTimeout
  | runTimeout
  | launchDelay
  | interruptSignal
  | verbose
  | toolFolder
  | toolchain
  | logLevel
  | idleTimeout
  deriving DecidableEq, Repr

namespace Field

/-- How the variable of a setting is called behind the prefix of all variables. -/
def name : Field → String
  | debugger => "PATH"
  | prompt => "PROMPT"
  | commandTimeout => "COMMAND_TIMEOUT"
  | runTimeout => "RUN_TIMEOUT"
  | launchDelay => "LAUNCH_DELAY"
  | interruptSignal => "INTERRUPT_SIGNAL"
  | verbose => "VERBOSE"
  | toolFolder => "BIN_DIR"
  | toolchain => "ADAPTER"
  | logLevel => "LOGLEVEL"
  | idleTimeout => "IDLE_TIMEOUT"

/-- The variable of a setting. -/
def key (f : Field) : String := variableName f.name

/-- What a setting may be. -/
def Value : Field → Type
  | debugger | toolFolder => Option String
  | prompt | interruptSignal | toolchain | logLevel => String
  | commandTimeout | runTimeout => Option Float
  | launchDelay | idleTimeout => Float
  | verbose => Bool

/-- What a setting is. -/
def value (s : Settings) : (f : Field) → f.Value
  | debugger => s.debugger
  | prompt => s.prompt
  | commandTimeout => s.commandTimeout
  | runTimeout => s.runTimeout
  | launchDelay => s.launchDelay
  | interruptSignal => s.interruptSignal
  | verbose => s.verbose
  | toolFolder => s.toolFolder
  | toolchain => s.toolchain
  | logLevel => s.logLevel
  | idleTimeout => s.idleTimeout

/-- Nothing but its own variable says what a setting is. -/
theorem value_congr (f : Field) (h : env.lookup f.key = env'.lookup f.key) :
    value (ofEnvironment env).1 f = value (ofEnvironment env').1 f := by
  rw [key] at h
  -- The readers look at the environment in one place only.
  have htext : text? env f.name = text? env' f.name := by rw [text?, text?, h]
  have hraw : raw? env f.name = raw? env' f.name := by rw [raw?, raw?, h]
  have hnumber : ∀ fallback, number env f.name fallback = number env' f.name fallback := by
    intro fallback
    rw [number, number, htext]
  have htimeout : ∀ fallback, timeout env f.name fallback = timeout env' f.name fallback := by
    intro fallback
    rw [timeout, timeout, htext]
  cases f with
  | debugger | toolFolder => exact htext
  | prompt =>
    simp only [name] at hraw
    simp only [value, ofEnvironment, hraw]
    rfl
  | commandTimeout | runTimeout =>
    simp only [name] at htimeout
    simp only [value, ofEnvironment, htimeout]
    rfl
  | launchDelay | idleTimeout =>
    simp only [name] at hnumber
    simp only [value, ofEnvironment, hnumber]
    rfl
  | interruptSignal | toolchain | logLevel =>
    simp only [name] at htext
    simp only [value, ofEnvironment, htext]
    rfl
  | verbose =>
    simp only [name] at htext
    simp only [value, ofEnvironment, isOn, htext]
    rfl

end Field

/-! ## Warnings -/

/-- The settings that are numbers, in the order in which they are read. -/
def numbers : List Field := [.commandTimeout, .runTimeout, .launchDelay, .idleTimeout]

/-- Is the variable set to something that is neither blank nor the text of a real number? -/
def IsMisread (env : Environment) (setting : String) : Prop :=
  ∃ raw ∈ env.lookup (variableName setting), Text.allBlank raw.toList = false ∧
    ¬ Numeral.IsReal (Text.trim raw.toList)

theorem isMisread_iff : IsMisread env setting ↔
    ∃ v, text? env setting = some v ∧ Numeral.readReal? v = none := by
  have hreal : ∀ raw, Numeral.readReal? (Text.trimmed raw) = none ↔
      ¬ Numeral.IsReal (Text.trim raw.toList) := by
    intro raw
    rw [← Option.isNone_iff_eq_none, ← Option.not_isSome, Bool.not_eq_true', ← Bool.not_eq_true,
      Numeral.isSome_readReal?_iff, Text.trimmed, String.toList_ofList, Text.trim_trim]
  constructor
  · rintro ⟨raw, hraw, hne, hreal'⟩
    exact ⟨_, text?_eq_some_iff.2 ⟨raw, hraw, hne, rfl⟩, (hreal raw).2 hreal'⟩
  · rintro ⟨v, hv, hread⟩
    obtain ⟨raw, hraw, hne, rfl⟩ := text?_eq_some_iff.1 hv
    exact ⟨raw, hraw, hne, (hreal raw).1 hread⟩

instance : DecidablePred (IsMisread env) := fun setting =>
  inferInstanceAs (Decidable (∃ raw ∈ env.lookup (variableName setting), _))

/-- What a number is if its text is misread. -/
def Field.fallback : Field → Option Float
  | .commandTimeout => default.commandTimeout
  | .runTimeout => default.runTimeout
  | .launchDelay => some default.launchDelay
  | .idleTimeout => some default.idleTimeout
  | _ => none

/-- The warning of a misread number. -/
def misreading (env : Environment) (f : Field) : SettingWarning where
  variableName := f.key
  raw := (text? env f.name).getD ""
  used := f.fallback

theorem warning_number (env : Environment) (setting : String) (fallback : Float) :
    (number env setting fallback).2 = if IsMisread env setting then
      some ⟨variableName setting, (text? env setting).getD "", some fallback⟩ else none := by
  rw [number]
  cases hv : text? env setting with
  | none => simp [isMisread_iff, hv]
  | some v => cases hread : Numeral.readReal? v <;> simp [isMisread_iff, hv, hread]

theorem warning_timeout (env : Environment) (setting : String) (fallback : Option Float) :
    (timeout env setting fallback).2 = if IsMisread env setting then
      some ⟨variableName setting, (text? env setting).getD "", fallback⟩ else none := by
  rw [timeout]
  cases hv : text? env setting with
  | none => simp [isMisread_iff, hv]
  | some v => cases hread : Numeral.readReal? v <;> simp [isMisread_iff, hv, hread]

/-- There is one warning of each misread number, and no other. -/
theorem warnings_ofEnvironment (env : Environment) :
    (ofEnvironment env).2 =
      (numbers.filter fun f => IsMisread env f.name).map (misreading env) := by
  have hread : [(timeout env "COMMAND_TIMEOUT" default.commandTimeout).2,
        (timeout env "RUN_TIMEOUT" default.runTimeout).2, (number env "LAUNCH_DELAY" default.launchDelay).2,
        (number env "IDLE_TIMEOUT" default.idleTimeout).2] =
      numbers.map fun f => if IsMisread env f.name then some (misreading env f) else none := by
    simp only [warning_timeout, warning_number]
    rfl
  calc (ofEnvironment env).2
      = (numbers.map fun f => if IsMisread env f.name then some (misreading env f) else none).filterMap
          id := congrArg (List.filterMap id) hread
    _ = (numbers.filter fun f => IsMisread env f.name).map (misreading env) := by
        rw [List.filterMap_map, Function.id_comp, ← List.filterMap_eq_map, List.filterMap_filter]
        simp only [decide_eq_true_eq, Function.comp_apply]

/-! ## What an environment gives -/

/-- Every environment gives settings that a session can run with, each of them said by its own variable
alone, and one warning for each variable that should hold a number and holds something else. -/
theorem usable_ofEnvironment (env : Environment) :
    IsUsable (ofEnvironment env).1 ∧
    (∀ (f : Field) (env' : Environment), env'.lookup f.key = env.lookup f.key →
      Field.value (ofEnvironment env').1 f = Field.value (ofEnvironment env).1 f) ∧
    (ofEnvironment env).2 = (numbers.filter fun f => IsMisread env f.name).map (misreading env) :=
  ⟨isUsable_ofEnvironment env, fun f _ h => Field.value_congr f h, warnings_ofEnvironment env⟩

/-- An environment with texts of numbers that are easily overlooked. -/
def oddNumbers : Environment :=
  [("MCU_GDB_COMMAND_TIMEOUT", "nan"), ("MCU_GDB_RUN_TIMEOUT", " ١_٠ "), ("MCU_GDB_LAUNCH_DELAY", "soon"),
    ("MCU_GDB_IDLE_TIMEOUT", "-inf")]

theorem usable_ofEnvironment_oddNumbers :
    IsUsable (ofEnvironment oddNumbers).1 ∧
    (ofEnvironment oddNumbers).1.commandTimeout = none ∧
    (ofEnvironment oddNumbers).1.runTimeout = some 10.0 ∧
    Field.value (ofEnvironment [("MCU_GDB_COMMAND_TIMEOUT", "nan")]).1 .commandTimeout =
      Field.value (ofEnvironment oddNumbers).1 .commandTimeout ∧
    (ofEnvironment oddNumbers).2.map SettingWarning.variableName = ["MCU_GDB_LAUNCH_DELAY"] := by
  obtain ⟨husable, hfields, hwarnings⟩ := usable_ofEnvironment oddNumbers
  refine ⟨husable, by decide +kernel, by decide +kernel, hfields .commandTimeout _ (by decide +kernel), ?_⟩
  rw [hwarnings]
  decide +kernel

end DebugConsole.Settings
