/-
  Which layer each setting of a configuration comes from.

  * `Layer`: the settings that one source gives. `Layer.ofFlags`, `Layer.ofEnvironment` and
    `Layer.ofFile?` are the sources.
  * `Config.settle`: each setting from the first of some layers that gives it, else as usual.
  * `ofFields?_eq`, `withEnvironment_settle`, `withFlags_settle`: each source goes on top of those
    before it.
  * `settings_by_layer`: what all layers make, and what is known of it if it has no fault.
-/
import Mathlib.Tactic.SplitIfs
import Vitals.Config.Layers

namespace Vitals

open Toml

/-! ## Sources -/

/-- The settings that one source gives. -/
structure Layer where
  url : Option String := none
  probeSeconds : Option UInt64 := none
  tailSeconds : Option UInt64 := none
  requestCapacity : Option UInt64 := none
  responseTimeoutSeconds : Option UInt64 := none
  level : Option String := none
  format : Option LogFormat := none
  componentLevels : Option (List (String × String)) := none
  deriving DecidableEq, Repr

namespace Layer

/-- What the flags of a command give. -/
def ofFlags (flags : ConfigFlags) : Layer := { url := flags.url, level := flags.level }

/-- What the environment gives. A capacity or format that cannot be read is not given. -/
def ofEnvironment (env : Environment) : Layer where
  url := env.url
  requestCapacity := env.requestCapacity.bind Decimal.word64?
  level := env.level
  format := env.format.bind LogFormat.ofText?

/-- A setting that a section may give; it spoils the document if it cannot be read. -/
def given? {α : Type} (s : Config.Section) (place : Nat) (name : String)
    (read? : Value → Option α) : Option (Option α) :=
  match s place name with
  | none => some none
  | some v => (read? v).map some

/-- What a document gives. -/
def ofDocument? (document : Fields) : Option Layer := do
  let connection ← Config.sectionOf? document "connection"
  let sync ← Config.sectionOf? document "sync"
  let rules ← Config.sectionOf? document "rules"
  let logging ← Config.sectionOf? document "logging"
  return {
    url := ← given? connection 0 "url" Config.text?
    probeSeconds := ← given? connection 1 "probe_interval_seconds" Config.count?
    tailSeconds := ← given? connection 2 "tail_interval_seconds" Config.count?
    requestCapacity := ← given? sync 0 "request_log_capacity" Config.count?
    responseTimeoutSeconds := ← given? rules 0 "response_timeout_seconds" Config.count?
    level := ← given? logging 0 "level" Config.text?
    format := ← given? logging 1 "format" Config.format?
    componentLevels := ← given? logging 2 "component_levels" Config.levels? }

/-- What a file gives: nothing if there is none. -/
def ofFile? : FileContent → Option Layer
  | .absent => some {}
  | .directory => none
  | .bytes b => do ofDocument? (← Toml.parse? (← Text.decode? b))

end Layer

namespace Config

/-- Each setting from the first of some layers that gives it; as usual if none does. -/
def settle (layers : List Layer) : Config where
  url := (layers.findSome? Layer.url).getD usual.url
  probeSeconds := (layers.findSome? Layer.probeSeconds).getD usual.probeSeconds
  tailSeconds := (layers.findSome? Layer.tailSeconds).getD usual.tailSeconds
  requestCapacity := (layers.findSome? Layer.requestCapacity).getD usual.requestCapacity
  responseTimeoutSeconds :=
    (layers.findSome? Layer.responseTimeoutSeconds).or usual.responseTimeoutSeconds
  level := (layers.findSome? Layer.level).getD usual.level
  format := (layers.findSome? Layer.format).getD usual.format
  componentLevels := (layers.findSome? Layer.componentLevels).or usual.componentLevels

variable {α β γ δ : Type} {layers : List Layer} {path : String} {file : FileContent} {c : Config}

theorem findSome?_cons_getD (f : Layer → Option α) (l : Layer) (layers : List Layer) (u : α) :
    ((l :: layers).findSome? f).getD u = (f l).getD ((layers.findSome? f).getD u) := by
  rw [List.findSome?_cons]
  cases f l <;> rfl

theorem findSome?_cons_or (f : Layer → Option α) (l : Layer) (layers : List Layer)
    (u : Option α) : ((l :: layers).findSome? f).or u = (f l).or ((layers.findSome? f).or u) := by
  rw [List.findSome?_cons]
  cases f l <;> rfl

/-! ## The file -/

theorem setting_eq (s : Section) (place : Nat) (name : String) (u : α) (read? : Value → Option α) :
    setting s place name u read? = (Layer.given? s place name read?).map (·.getD u) := by
  unfold setting Layer.given?
  cases s place name with
  | none => rfl
  | some v =>
    dsimp only
    cases read? v <;> rfl

theorem setting_eq_or (s : Section) (place : Nat) (name : String) (u : Option α)
    (read? : Value → Option α) : setting s place name u (fun v => (read? v).map some) =
      (Layer.given? s place name read?).map (·.or u) := by
  unfold setting Layer.given?
  cases s place name with
  | none => rfl
  | some v =>
    dsimp only
    cases read? v <;> rfl

theorem bind_eq_map {x : Option α} {f : α → Option γ} {g : α → Option δ} {k : δ → γ}
    (h : ∀ a, f a = (g a).map k) : x.bind f = (x.bind g).map k := by
  cases x with
  | none => rfl
  | some a => exact h a

theorem map_bind_eq_map {x : Option α} {u : α → β} {f : β → Option γ} {g : α → Option δ} {k : δ → γ}
    (h : ∀ a, f (u a) = (g a).map k) : (x.map u).bind f = (x.bind g).map k := by
  cases x with
  | none => rfl
  | some a => exact h a

/-- A document alone: what it gives, and the rest as usual. -/
theorem ofFields?_eq (document : Fields) :
    ofFields? document = (Layer.ofDocument? document).map fun l => settle [l] := by
  simp only [ofFields?, Layer.ofDocument?, setting_eq_or]
  simp only [setting_eq, Option.bind_eq_bind]
  -- the sections, then the settings in their order
  refine bind_eq_map fun connection => bind_eq_map fun sync => bind_eq_map fun rules =>
    bind_eq_map fun logging => ?_
  refine map_bind_eq_map fun url => map_bind_eq_map fun probe => map_bind_eq_map fun tail =>
    map_bind_eq_map fun capacity => map_bind_eq_map fun timeout => map_bind_eq_map fun level =>
    map_bind_eq_map fun format => map_bind_eq_map fun levels => ?_
  simp only [settle, findSome?_cons_getD, findSome?_cons_or, List.findSome?_nil, Option.getD_none,
    Option.none_or, Option.pure_def, Option.map_some]

/-- A file alone. One that cannot be read makes no configuration. -/
theorem toOption_loadOrUsual (path : String) (file : FileContent) :
    (loadOrUsual path file).toOption = (Layer.ofFile? file).map fun l => settle [l] := by
  cases file with
  | absent => rfl
  | directory => rfl
  | bytes b =>
    have hload : loadOrUsual path (.bytes b) = load path (.bytes b) := if_neg (by simp)
    rw [hload]
    unfold load Layer.ofFile?
    dsimp only
    cases Text.decode? b with
    | none => rfl
    | some text =>
      dsimp only
      rw [parse?, Option.bind_eq_bind, Option.bind_some]
      cases Toml.parse? text with
      | none => rfl
      | some document =>
        rw [Option.bind_some, ofFields?_eq, Option.bind_eq_bind, Option.bind_some]
        cases Layer.ofDocument? document <;> rfl

theorem loadOrUsual_of_some {l : Layer} (h : Layer.ofFile? file = some l) :
    loadOrUsual path file = .ok (settle [l]) := by
  have hload := toOption_loadOrUsual path file
  rw [h] at hload
  cases hresult : loadOrUsual path file with
  | error e => rw [hresult] at hload; cases hload
  | ok c => rw [hresult] at hload; exact congrArg _ (Option.some.inj hload)

theorem ofFile?_of_loadOrUsual (h : loadOrUsual path file = .ok c) :
    ∃ l, Layer.ofFile? file = some l := by
  have hload := toOption_loadOrUsual path file
  rw [h] at hload
  obtain ⟨l, hl, -⟩ := Option.map_eq_some_iff.1 hload.symm
  exact ⟨l, hl⟩

/-! ## The layers above it -/

theorem withEnvironment_settle (env : Environment) :
    (settle layers).withEnvironment env = settle (.ofEnvironment env :: layers) := by
  simp only [withEnvironment, settle, findSome?_cons_getD, findSome?_cons_or, Layer.ofEnvironment,
    Option.getD_none, Option.none_or]

theorem withFlags_settle (flags : ConfigFlags) :
    (settle layers).withFlags flags = settle (.ofFlags flags :: layers) := by
  simp only [withFlags, settle, findSome?_cons_getD, findSome?_cons_or, Layer.ofFlags,
    Option.getD_none, Option.none_or]

/-! ## All layers -/

variable {env : Environment} {flags : ConfigFlags}

/-- What the layers of a command make. -/
theorem layered_eq {l : Layer} (h : Layer.ofFile? file = some l) :
    layered path file env flags =
      let c := settle [.ofFlags flags, .ofEnvironment env, l]
      c.validate.map fun _ => c := by
  simp only [layered, loadOrUsual_of_some h, bind, Except.bind, withEnvironment_settle, withFlags_settle]
  cases validate (settle [.ofFlags flags, .ofEnvironment env, l]) <;> rfl

theorem validate_cases (c : Config) :
    (∃ fault, c.fault? = some fault ∧ c.validate = .error (.invalid fault)) ∨
      c.fault? = none ∧ c.validate = .ok () := by
  unfold validate
  cases c.fault? with
  | none => exact .inr ⟨rfl, rfl⟩
  | some fault => exact .inl ⟨fault, rfl, rfl⟩

/-- **What a configuration without fault is.** -/
theorem fault?_eq_none_iff : c.fault? = none ↔
    Text.trim c.url ≠ "" ∧ (∃ e, Channel.endpointOfUrl c.url = .ok e) ∧ c.probeSeconds ≠ 0 ∧
      c.tailSeconds ≠ 0 ∧ c.requestCapacity ≠ 0 ∧ c.responseTimeoutSeconds ≠ some 0 := by
  unfold fault?
  cases Channel.endpointOfUrl c.url with
  | error e =>
    refine iff_of_false ?_ fun ⟨_, ⟨_, he⟩, _⟩ => by cases he
    dsimp only
    split_ifs <;> simp
  | ok e =>
    dsimp only
    split_ifs with hblank hprobe htail hcapacity htimeout <;> simp_all

theorem faultless_of_layered (h : layered path file env flags = .ok c) : c.fault? = none := by
  simp only [layered, bind, Except.bind] at h
  cases hfile : loadOrUsual path file with
  | error e =>
    rw [hfile] at h
    cases h
  | ok alone =>
    rw [hfile] at h
    dsimp only at h
    rcases validate_cases ((alone.withEnvironment env).withFlags flags) with
      ⟨fault, -, hinvalid⟩ | ⟨hnone, hvalid⟩
    · rw [hinvalid] at h
      cases h
    · rw [hvalid] at h
      cases h
      exact hnone

end Config

open Config

/-- **Each setting comes from the highest layer that gives it.** The layers are the flags of a command,
the environment and a file, if there is one; what none of them gives is as usual. What they make is
refused if it has a fault. A capacity or a format of the environment that cannot be read counts as
not set. In what is accepted the URL has an endpoint, and no count is zero. -/
theorem settings_by_layer (path : String) (file : FileContent) (env : Environment)
    (flags : ConfigFlags) :
    (∀ alone, loadOrUsual path file = .ok alone → ∃ l, Layer.ofFile? file = some l ∧
      let c := settle [.ofFlags flags, .ofEnvironment env, l]
      (∃ fault, c.fault? = some fault ∧ layered path file env flags = .error (.invalid fault)) ∨
        c.fault? = none ∧ layered path file env flags = .ok c) ∧
    (env.requestCapacity.bind Decimal.word64? = none → layered path file env flags =
      layered path file { env with requestCapacity := none } flags) ∧
    (env.format.bind LogFormat.ofText? = none → layered path file env flags =
      layered path file { env with format := none } flags) ∧
    ∀ c, layered path file env flags = .ok c →
      (∃ e, c.endpoint = .ok e) ∧ c.probeSeconds ≠ 0 ∧ c.tailSeconds ≠ 0 ∧
        c.requestCapacity ≠ 0 ∧ c.responseTimeoutSeconds ≠ some 0 := by
  refine ⟨fun alone h => ?_, fun h => ?_, fun h => ?_, fun c h => ?_⟩
  · obtain ⟨l, hl⟩ := ofFile?_of_loadOrUsual h
    refine ⟨l, hl, ?_⟩
    rw [layered_eq hl]
    rcases validate_cases (settle [.ofFlags flags, .ofEnvironment env, l]) with
      ⟨fault, hfault, hinvalid⟩ | ⟨hnone, hvalid⟩
    · exact .inl ⟨fault, hfault, by simp only [hinvalid]; rfl⟩
    · exact .inr ⟨hnone, by simp only [hvalid]; rfl⟩
  · simp only [layered, withEnvironment, h, Option.bind_none]
  · simp only [layered, withEnvironment, h, Option.bind_none]
  · obtain ⟨-, ⟨e, he⟩, hcounts⟩ := fault?_eq_none_iff.1 (faultless_of_layered h)
    exact ⟨⟨e, by rw [endpoint, he]⟩, hcounts⟩

/-- A URL from each source, a capacity and a format of the environment that cannot be read, and a level
that can. -/
theorem settings_by_layer_partly :
    let file : FileContent :=
      .bytes (Text.encode "[connection]\nurl = \"ws://a/\"\n[sync]\nrequest_log_capacity = 25\n")
    let env : Environment := ⟨some "ws://b/", some "lots", some "debug", some "xml"⟩
    let flags : ConfigFlags := ⟨some "ws://c/", none⟩
    let c : Config := { usual with url := "ws://c/", requestCapacity := 25, level := "debug" }
    layered "telewire.toml" file env flags = .ok c ∧
    layered "telewire.toml" file { env with requestCapacity := none } flags = .ok c ∧
    layered "telewire.toml" file { env with format := none } flags = .ok c ∧
    ∃ e, c.endpoint = .ok e := by
  intro file env flags c
  have hfile : Layer.ofFile? (.bytes (Text.encode
      "[connection]\nurl = \"ws://a/\"\n[sync]\nrequest_log_capacity = 25\n")) =
        some { url := some "ws://a/", requestCapacity := some 25 } := by decide +kernel
  obtain ⟨hlayers, hcapacity, hformat, hok⟩ := settings_by_layer "telewire.toml" file env flags
  have hc : layered "telewire.toml" file env flags = .ok c := by
    obtain ⟨l, hl, h⟩ := hlayers _ (loadOrUsual_of_some hfile)
    cases hfile.symm.trans hl
    have hnone : ({ usual with
        url := "ws://c/", requestCapacity := 25, level := "debug" } : Config).fault? = none := by
      decide +kernel
    rcases h with ⟨fault, hfault, -⟩ | ⟨-, h⟩
    · cases hnone.symm.trans hfault
    · exact h
  exact ⟨hc, (hcapacity (by decide)).symm.trans hc, (hformat (by decide)).symm.trans hc,
    (hok c hc).1⟩

end Vitals
