import Mathlib.Algebra.Order.Ring.Int
import ThreadSoup.Proofs.PlainLines
import ThreadSoup.Settings

namespace ThreadSoup

open Toml

namespace Setting

def numberNames : List String :=
  ["MsPerCycle", "MaxStackSize", "MaxThreadCount", "RandomNoisePerCycle", "NewThreadsPerCycle",
    "SpawnLifeSpan", "CopySlice", "HaltSlice", "PushSlice", "SpawnSlice"]

def switchNames : List String :=
  ["ReverseEnabled", "RandomizeMemoryOnInitialize", "UseCopyEffect", "UseThreadDeathEffect",
    "UseSpawnExpireEffect", "ThreadReductionEnabled"]

/-- The name is one of the sixteen, and the value is of its kind. -/
def Known : Setting → Prop
  | .number name _ => name ∈ numberNames
  | .switch name _ => name ∈ switchNames

instance : DecidablePred Known
  | .number name _ => inferInstanceAs (Decidable (name ∈ numberNames))
  | .switch name _ => inferInstanceAs (Decidable (name ∈ switchNames))

/-- The line with a name. -/
def find (settings : List Setting) (name : String) : Option Setting :=
  settings.find? fun setting => setting.name == name

def numberOr (settings : List Setting) (name : String) (default : UInt32) : UInt32 :=
  match find settings name with
  | some (.number _ value) => UInt32.ofNat value.toNat
  | _ => default

def switchOr (settings : List Setting) (name : String) (default : Bool) : Bool :=
  match find settings name with
  | some (.switch _ value) => value
  | _ => default

end Setting

open Setting

attribute [ext] Config

/-- The configuration with the fields that settings name. -/
def Config.override (config : Config) (settings : List Setting) : Config where
  msPerCycle := numberOr settings "MsPerCycle" config.msPerCycle
  maxStackSize := numberOr settings "MaxStackSize" config.maxStackSize
  maxThreadCount := numberOr settings "MaxThreadCount" config.maxThreadCount
  randomNoisePerCycle := numberOr settings "RandomNoisePerCycle" config.randomNoisePerCycle
  newThreadsPerCycle := numberOr settings "NewThreadsPerCycle" config.newThreadsPerCycle
  spawnLifeSpan := numberOr settings "SpawnLifeSpan" config.spawnLifeSpan
  copySlice := numberOr settings "CopySlice" config.copySlice
  haltSlice := numberOr settings "HaltSlice" config.haltSlice
  pushSlice := numberOr settings "PushSlice" config.pushSlice
  spawnSlice := numberOr settings "SpawnSlice" config.spawnSlice
  reverseEnabled := switchOr settings "ReverseEnabled" config.reverseEnabled
  randomizeMemoryOnInitialize :=
    switchOr settings "RandomizeMemoryOnInitialize" config.randomizeMemoryOnInitialize
  useCopyEffect := switchOr settings "UseCopyEffect" config.useCopyEffect
  useThreadDeathEffect := switchOr settings "UseThreadDeathEffect" config.useThreadDeathEffect
  useSpawnExpireEffect := switchOr settings "UseSpawnExpireEffect" config.useSpawnExpireEffect
  threadReductionEnabled := switchOr settings "ThreadReductionEnabled" config.threadReductionEnabled

namespace Setting

variable {settings : List Setting} {setting : Setting} {entries : Entries} {ending : String}

theorem Known.bare (known : setting.Known) : Bare setting.name := by
  have hnames : ∀ name ∈ numberNames ++ switchNames,
      name.toList ≠ [] ∧ name.toList.all isBare = true := by decide +kernel
  have hmem : setting.name ∈ numberNames ++ switchNames := by
    cases setting with
    | number name value => exact List.mem_append_left _ known
    | switch name value => exact List.mem_append_right _ known
  exact ⟨(hnames _ hmem).1, List.all_eq_true.mp (hnames _ hmem).2⟩

/-- An entry has the value of the line with its name. -/
theorem get?_entries (h : entries? settings = some entries) (name : String) :
    entries.get? name = (find settings name).bind value? := by
  induction settings generalizing entries with
  | nil => cases h; rfl
  | cons setting more ih =>
    obtain ⟨value, rest, hvalue, hrest, rfl⟩ := entries?_cons_eq_some.mp h
    have hmore := ih hrest
    unfold Entries.get? find at *
    rw [List.lookup_cons, List.find?_cons]
    by_cases heq : setting.name = name
    · subst heq
      simp [hvalue]
    · have hleft : (name == setting.name) = false := beq_eq_false_iff_ne.mpr (Ne.symm heq)
      have hright : (setting.name == name) = false := beq_eq_false_iff_ne.mpr heq
      simp only [hleft, hright, hmore]

theorem find_name {name : String} (h : find settings name = some setting) :
    setting ∈ settings ∧ setting.name = name := by
  have hname := List.find?_some h
  exact ⟨List.mem_of_find?_eq_some h, eq_of_beq hname⟩

/-- Where no name comes twice, every line is the one with its name. -/
theorem find_of_mem (hnodup : (settings.map name).Nodup) (hmem : setting ∈ settings) :
    find settings setting.name = some setting := by
  induction settings with
  | nil => cases hmem
  | cons first more ih =>
    rw [List.map_cons, List.nodup_cons] at hnodup
    rw [find, List.find?_cons]
    rcases List.mem_cons.mp hmem with rfl | hmore
    · simp
    · have hne : (first.name == setting.name) = false :=
        beq_eq_false_iff_ne.mpr fun heq => hnodup.1 (heq ▸ List.mem_map_of_mem hmore)
      rw [hne]
      exact ih hnodup.2 hmore

theorem value?_of_mem (h : entries? settings = some entries) (hmem : setting ∈ settings) :
    ∃ value, setting.value? = some value := by
  induction settings generalizing entries with
  | nil => cases hmem
  | cons first more ih =>
    obtain ⟨value, rest, hvalue, hrest, _⟩ := entries?_cons_eq_some.mp h
    rcases List.mem_cons.mp hmem with rfl | hmore
    · exact ⟨value, hvalue⟩
    · exact ih hrest hmore

/-- A number of 32 bits without a sign. -/
def InRange (value : Int) : Prop := 0 ≤ value ∧ value ≤ 2 ^ 32 - 1

instance : DecidablePred InRange := fun value =>
  inferInstanceAs (Decidable (0 ≤ value ∧ value ≤ 2 ^ 32 - 1))

theorem inRange_iff {value : Int} : InRange value ↔ 0 ≤ value ∧ value < UInt32.size := by
  have hsize : (UInt32.size : Int) = 2 ^ 32 := rfl
  unfold InRange
  omega

theorem integerValue_of_inRange {value : Int} (h : InRange value) :
    integerValue value = some (.integer value) := by
  have hlimit : (signLimit : Int) = 2 ^ 63 := rfl
  unfold InRange at h
  exact if_pos (by omega)

theorem entries?_of_inRange (h : ∀ name value, .number name value ∈ settings → InRange value) :
    ∃ entries, entries? settings = some entries := by
  induction settings with
  | nil => exact ⟨[], rfl⟩
  | cons setting more ih =>
    obtain ⟨rest, hrest⟩ := ih fun name value hmem =>
      h name value (List.mem_cons_of_mem setting hmem)
    have hvalue : ∃ value, setting.value? = some value := by
      cases setting with
      | number name value => exact ⟨_, integerValue_of_inRange (h name value (by simp))⟩
      | switch name value => exact ⟨_, rfl⟩
    obtain ⟨value, hvalue⟩ := hvalue
    exact ⟨_, entries?_cons_eq_some.mpr ⟨value, rest, hvalue, hrest, rfl⟩⟩

/-- A number is given and not zero. -/
theorem numberOr_ne_zero_iff (name : String)
    (hrange : ∀ name value, .number name value ∈ settings → InRange value)
    (hnodup : (settings.map Setting.name).Nodup) :
    numberOr settings name 0 ≠ 0 ↔ ∃ value, .number name value ∈ settings ∧ value ≠ 0 := by
  refine ⟨?_, ?_⟩
  · intro hne
    unfold numberOr at hne
    split at hne
    next other value hfind =>
      obtain ⟨hmem, rfl⟩ := find_name hfind
      refine ⟨value, hmem, ?_⟩
      rintro rfl
      exact hne rfl
    next => exact absurd rfl hne
  · rintro ⟨value, hmem, hvalue⟩ hzero
    have hin := inRange_iff.mp (hrange name value hmem)
    have hfind : find settings name = some (.number name value) := find_of_mem hnodup hmem
    rw [numberOr, hfind] at hzero
    have hnat := congrArg UInt32.toNat hzero
    rw [UInt32.toNat_ofNat_of_lt' (by omega)] at hnat
    exact hvalue (by simp at hnat; omega)

end Setting

namespace Config

variable {settings : List Setting} {entries : Entries} {config : Config}

theorem setNumber_number (config : Config) (key : NumberKey) :
    config.setNumber (config.number key) key = config := by
  cases key <;> rfl

theorem setSwitch_switch (config : Config) (key : SwitchKey) :
    config.setSwitch (config.switch key) key = config := by
  cases key <;> rfl

/-- A number that no line gives keeps its value. -/
theorem readNumber_eq (hknown : ∀ setting ∈ settings, setting.Known)
    (hrange : ∀ name value, .number name value ∈ settings → InRange value)
    (h : entries? settings = some entries) (config : Config) (key : NumberKey) :
    readNumber entries config key =
      some (config.setNumber (numberOr settings key.name (config.number key)) key) := by
  rw [readNumber, get?_entries h, numberOr]
  cases hfind : find settings key.name with
  | none => simp only [Option.bind_none, setNumber_number]
  | some setting =>
    obtain ⟨hmem, hname⟩ := find_name hfind
    cases setting with
    | number name value =>
      have hvalue := hrange name value hmem
      simp only [Option.bind_some, value?, integerValue_of_inRange hvalue]
      exact if_pos (inRange_iff.mp hvalue)
    | switch name value =>
      have hnever : key.name ∉ switchNames := by cases key <;> decide
      have hswitch : name ∈ switchNames := hknown _ hmem
      exact absurd (hname ▸ hswitch) hnever

theorem readSwitch_eq (hknown : ∀ setting ∈ settings, setting.Known)
    (h : entries? settings = some entries) (config : Config) (key : SwitchKey) :
    readSwitch entries config key =
      some (config.setSwitch (switchOr settings key.name (config.switch key)) key) := by
  rw [readSwitch, get?_entries h, switchOr]
  cases hfind : find settings key.name with
  | none => simp only [Option.bind_none, setSwitch_switch]
  | some setting =>
    obtain ⟨hmem, hname⟩ := find_name hfind
    cases setting with
    | number name value =>
      have hnever : key.name ∉ numberNames := by cases key <;> decide
      have hnumber : name ∈ numberNames := hknown _ hmem
      exact absurd (hname ▸ hnumber) hnever
    | switch name value => rfl

theorem ofEntries_eq (hknown : ∀ setting ∈ settings, setting.Known)
    (hrange : ∀ name value, .number name value ∈ settings → InRange value)
    (h : entries? settings = some entries) :
    ofEntries entries = some (({} : Config).override settings) := by
  simp only [ofEntries, NumberKey.all, SwitchKey.all, List.foldlM_cons, List.foldlM_nil,
    readNumber_eq hknown hrange h, readSwitch_eq hknown h, Option.bind_eq_bind, Option.bind_some]
  rfl

/-- A number out of range stops the reading of its key, whatever has been read before. -/
theorem readNumber_eq_none {key : NumberKey} {value : Int} (hnodup : (settings.map name).Nodup)
    (h : entries? settings = some entries) (hmem : .number key.name value ∈ settings)
    (hout : ¬InRange value) (config : Config) : readNumber entries config key = none := by
  have hfind : find settings key.name = some (.number key.name value) := find_of_mem hnodup hmem
  obtain ⟨read, hread⟩ := value?_of_mem h hmem
  have hinteger : read = .integer value := by
    simp only [value?, integerValue] at hread
    split at hread
    next => exact (Option.some.inj hread).symm
    next => cases hread
  rw [readNumber, get?_entries h, hfind, Option.bind_some, hread, hinteger]
  exact if_neg fun hin => hout (inRange_iff.mpr hin)

theorem foldlM_eq_none {α β : Type} {f : β → α → Option β} {list : List α} {a : α}
    (hmem : a ∈ list) (h : ∀ b, f b a = none) (b : β) : list.foldlM f b = none := by
  induction list generalizing b with
  | nil => cases hmem
  | cons first rest ih =>
    rw [List.foldlM_cons]
    rcases List.mem_cons.mp hmem with rfl | hrest
    · rw [h]
      rfl
    · cases f b first with
      | none => rfl
      | some next => exact ih hrest next

theorem ofEntries_eq_none {name : String} {value : Int}
    (hknown : ∀ setting ∈ settings, setting.Known) (hnodup : (settings.map Setting.name).Nodup)
    (h : entries? settings = some entries) (hmem : .number name value ∈ settings)
    (hout : ¬InRange value) : ofEntries entries = none := by
  have hkeys : ∀ name ∈ numberNames, ∃ key ∈ NumberKey.all, key.name = name := by decide
  obtain ⟨key, hkey, rfl⟩ := hkeys name (hknown _ hmem)
  rw [ofEntries, foldlM_eq_none hkey (readNumber_eq_none hnodup h hmem hout)]
  rfl

theorem ofText_malformed {ending : String} (hknown : ∀ setting ∈ settings, setting.Known)
    (hending : ending = "" ∨ ending = "\n")
    (h : (∃ name value, .number name value ∈ settings ∧ ¬InRange value) ∨
      ¬(settings.map Setting.name).Nodup) :
    ofText (text settings ending) = .error .malformed := by
  have hparse := parse_text (fun setting hmem => (hknown setting hmem).bare) hending
  have hnone : parse (text settings ending) >>= ofEntries = none := by
    rw [hparse]
    cases hentries : entries? settings with
    | none => rfl
    | some entries =>
      by_cases hnodup : (settings.map Setting.name).Nodup
      · obtain ⟨name, value, hmem, hout⟩ := h.resolve_right (not_not_intro hnodup)
        simp only [Option.bind_eq_bind, Option.bind_some, if_pos hnodup]
        exact ofEntries_eq_none hknown hnodup hentries hmem hout
      · simp only [Option.bind_eq_bind, Option.bind_some, if_neg hnodup, Option.bind_none]
  rw [ofText, hnone]

theorem ofText_text {ending : String} (hknown : ∀ setting ∈ settings, setting.Known)
    (hending : ending = "" ∨ ending = "\n")
    (hrange : ∀ name value, .number name value ∈ settings → InRange value)
    (hnodup : (settings.map Setting.name).Nodup) :
    ofText (text settings ending) =
      if numberOr settings "MsPerCycle" 0 = 0 then .error (.invalid .zeroCycleLength)
      else .ok (({} : Config).override settings) := by
  obtain ⟨entries, hentries⟩ := entries?_of_inRange hrange
  have hparse := parse_text (fun setting hmem => (hknown setting hmem).bare) hending
  have hconfig : parse (text settings ending) >>= ofEntries =
      some (({} : Config).override settings) := by
    rw [hparse, hentries]
    simp only [Option.bind_eq_bind, Option.bind_some, if_pos hnodup]
    exact ofEntries_eq hknown hrange hentries
  have hperiod : (({} : Config).override settings).msPerCycle =
      numberOr settings "MsPerCycle" 0 := rfl
  rw [ofText, hconfig]
  by_cases hzero : numberOr settings "MsPerCycle" 0 = 0
  · simp only [validate, hperiod, if_pos hzero]
  · simp only [validate, hperiod, if_neg hzero]

/-- One line for each setting of a configuration. -/
def lines (config : Config) : List Setting :=
  NumberKey.all.map (fun key => .number key.name (config.number key).toNat) ++
    SwitchKey.all.map fun key => .switch key.name (config.switch key)

theorem toText_eq (config : Config) : config.toText = text config.lines "\n" := by
  have hsome : config.lines ≠ [] := List.cons_ne_nil _ _
  rw [text_newline hsome]
  rfl

theorem lines_nodup (config : Config) : (config.lines.map Setting.name).Nodup := by
  have hnames : config.lines.map Setting.name = numberNames ++ switchNames := rfl
  rw [hnames]
  decide

/-- The lines of a configuration name all its fields. -/
theorem override_lines (start config : Config) : start.override config.lines = config := by
  have hnumber : ∀ key : NumberKey,
      numberOr config.lines key.name (start.number key) = config.number key := by
    intro key
    have hmem : .number key.name (config.number key).toNat ∈ config.lines :=
      List.mem_append_left _ (List.mem_map_of_mem (by cases key <;> decide))
    have hfind : find config.lines key.name = _ := find_of_mem config.lines_nodup hmem
    rw [numberOr, hfind]
    simp
  have hswitch : ∀ key : SwitchKey,
      switchOr config.lines key.name (start.switch key) = config.switch key := by
    intro key
    have hmem : .switch key.name (config.switch key) ∈ config.lines :=
      List.mem_append_right _ (List.mem_map_of_mem (by cases key <;> decide))
    have hfind : find config.lines key.name = _ := find_of_mem config.lines_nodup hmem
    rw [switchOr, hfind]
  exact Config.ext (hnumber .msPerCycle) (hnumber .maxStackSize) (hnumber .maxThreadCount)
    (hnumber .randomNoisePerCycle) (hnumber .newThreadsPerCycle) (hnumber .spawnLifeSpan)
    (hnumber .copySlice) (hnumber .haltSlice) (hnumber .pushSlice) (hnumber .spawnSlice)
    (hswitch .reverseEnabled) (hswitch .randomizeMemoryOnInitialize) (hswitch .useCopyEffect)
    (hswitch .useThreadDeathEffect) (hswitch .useSpawnExpireEffect)
    (hswitch .threadReductionEnabled)

theorem lines_known (config : Config) : ∀ setting ∈ config.lines, setting.Known := by
  intro setting hmem
  rcases List.mem_append.mp hmem with hnumber | hswitch
  · obtain ⟨key, _, rfl⟩ := List.mem_map.mp hnumber
    have hname : ∀ key ∈ NumberKey.all, key.name ∈ numberNames := by decide
    exact hname key (by cases key <;> decide)
  · obtain ⟨key, _, rfl⟩ := List.mem_map.mp hswitch
    have hname : ∀ key ∈ SwitchKey.all, key.name ∈ switchNames := by decide
    exact hname key (by cases key <;> decide)

theorem lines_inRange (config : Config) {name : String} {value : Int}
    (hmem : .number name value ∈ config.lines) : InRange value := by
  rcases List.mem_append.mp hmem with hnumber | hswitch
  · obtain ⟨key, _, heq⟩ := List.mem_map.mp hnumber
    cases heq
    have hlt := (config.number key).toNat_lt
    exact ⟨by omega, by omega⟩
  · obtain ⟨key, _, heq⟩ := List.mem_map.mp hswitch
    cases heq

/-- The text of a configuration reads back as that configuration. -/
theorem ofText_toText {config : Config} (h : config.msPerCycle ≠ 0) :
    ofText config.toText = .ok config := by
  have hsame := override_lines {} config
  have hperiod : numberOr config.lines "MsPerCycle" 0 = config.msPerCycle :=
    congrArg Config.msPerCycle hsame
  rw [toText_eq, ofText_text config.lines_known (Or.inr rfl) (fun _ _ => config.lines_inRange)
    config.lines_nodup, hperiod, if_neg h, hsame]

/-- Lines in any order give the default with the fields that they name, as long as the length of a
cycle is given and not zero. A number out of range or a name that comes twice makes the text
malformed, whatever else it says. -/
theorem plain_settings_read :
    (∀ (settings : List Setting) (ending : String), (∀ setting ∈ settings, setting.Known) →
      ending = "" ∨ ending = "\n" →
      ((∀ name value, .number name value ∈ settings → InRange value) →
        (settings.map Setting.name).Nodup →
        ((∃ value, .number "MsPerCycle" value ∈ settings ∧ value ≠ 0) →
          ofText (text settings ending) = .ok (({} : Config).override settings)) ∧
        ((¬∃ value, .number "MsPerCycle" value ∈ settings ∧ value ≠ 0) →
          ofText (text settings ending) = .error (.invalid .zeroCycleLength))) ∧
      ((∃ name value, .number name value ∈ settings ∧ ¬InRange value) ∨
          ¬(settings.map Setting.name).Nodup →
        ofText (text settings ending) = .error .malformed)) ∧
    ∀ config : Config, config.msPerCycle ≠ 0 → ofText config.toText = .ok config := by
  refine ⟨?_, fun config h => ofText_toText h⟩
  intro settings ending hknown hending
  refine ⟨?_, ofText_malformed hknown hending⟩
  intro hrange hnodup
  have hread := ofText_text hknown hending hrange hnodup
  have hgiven := numberOr_ne_zero_iff "MsPerCycle" hrange hnodup
  refine ⟨?_, ?_⟩
  · intro hperiod
    rw [hread, if_neg (hgiven.mpr hperiod)]
  · intro hperiod
    rw [hread, if_pos (not_not.mp fun hne => hperiod (hgiven.mp hne))]

theorem mixed_settings_read :
    ofText "UseCopyEffect = true\nMsPerCycle = 4294967295\nSpawnSlice = 0" =
      .ok { msPerCycle := 4294967295, useCopyEffect := true } ∧
    ofText "ReverseEnabled = false\n" = .error (.invalid .zeroCycleLength) ∧
    ofText "MaxStackSize = -1\n" = .error .malformed ∧
    ofText "HaltSlice = 1\nMsPerCycle = 9\nHaltSlice = 1" = .error .malformed ∧
    ofText screensaver.toText = .ok screensaver := by
  obtain ⟨hlines, hround⟩ := plain_settings_read
  have hgiven : text [.switch "UseCopyEffect" true, .number "MsPerCycle" 4294967295,
      .number "SpawnSlice" 0] "" =
      "UseCopyEffect = true\nMsPerCycle = 4294967295\nSpawnSlice = 0" := by decide +kernel
  have hmissing : text [.switch "ReverseEnabled" false] "\n" = "ReverseEnabled = false\n" := by
    decide +kernel
  have hnegative : text [.number "MaxStackSize" (-1)] "\n" = "MaxStackSize = -1\n" := by
    decide +kernel
  have htwice : text [.number "HaltSlice" 1, .number "MsPerCycle" 9, .number "HaltSlice" 1] "" =
      "HaltSlice = 1\nMsPerCycle = 9\nHaltSlice = 1" := by decide +kernel
  rw [← hgiven, ← hmissing, ← hnegative, ← htwice]
  refine ⟨?_, ?_, ?_, ?_, hround screensaver (by decide)⟩
  · obtain ⟨hread, _⟩ := hlines [.switch "UseCopyEffect" true, .number "MsPerCycle" 4294967295,
      .number "SpawnSlice" 0] "" (by decide) (by decide)
    have hrange : ∀ name value, .number name value ∈ [Setting.switch "UseCopyEffect" true,
        .number "MsPerCycle" 4294967295, .number "SpawnSlice" 0] → InRange value := by
      intro name value hmem
      simp only [List.mem_cons, reduceCtorEq, Setting.number.injEq, List.not_mem_nil, or_false,
        false_or] at hmem
      rcases hmem with ⟨_, rfl⟩ | ⟨_, rfl⟩
      · decide
      · decide
    exact (hread hrange (by decide)).1 ⟨4294967295, by decide, by decide⟩
  · obtain ⟨hread, _⟩ := hlines [.switch "ReverseEnabled" false] "\n" (by decide) (by decide)
    exact (hread (by simp) (by decide)).2 (by simp)
  · exact (hlines [.number "MaxStackSize" (-1)] "\n" (by decide) (by decide)).2
      (Or.inl ⟨"MaxStackSize", -1, by decide, by decide⟩)
  · exact (hlines [.number "HaltSlice" 1, .number "MsPerCycle" 9, .number "HaltSlice" 1] ""
      (by decide) (by decide)).2 (Or.inr (by decide))

end Config

end ThreadSoup
