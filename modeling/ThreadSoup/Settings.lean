import ThreadSoup.Config
import ThreadSoup.Toml.Document

namespace ThreadSoup

/-- Why a settings file cannot be read. -/
inductive ReadFailure where
  | missing
  | directory
  | notText
  | other (reason : String)
deriving DecidableEq

def ReadFailure.message : ReadFailure → String
  | .missing => "No such file or directory (os error 2)"
  | .directory => "Is a directory (os error 21)"
  | .notText => "stream did not contain valid UTF-8"
  | .other reason => reason

/-- Why settings give no configuration. -/
inductive SettingsError where
  | unreadable (failure : ReadFailure)
  | malformed
  | invalid (defect : ConfigDefect)
deriving DecidableEq

def SettingsError.message : SettingsError → String
  | .unreadable failure => "failed to read configuration file: " ++ failure.message
  | .malformed => "failed to parse configuration"
  | .invalid defect => defect.message

namespace Config

/-- Takes a number from the entries, if they have it. -/
def readNumber (entries : Toml.Entries) (config : Config) (key : NumberKey) : Option Config :=
  match entries.get? key.name with
  | none => some config
  | some (.integer n) =>
    if 0 ≤ n ∧ n < UInt32.size then some (config.setNumber (UInt32.ofNat n.toNat) key) else none
  | some _ => none

/-- Takes a switch from the entries, if they have it. -/
def readSwitch (entries : Toml.Entries) (config : Config) (key : SwitchKey) : Option Config :=
  match entries.get? key.name with
  | none => some config
  | some (.boolean b) => some (config.setSwitch b key)
  | some _ => none

/-- The default with every setting that the entries have. Other entries are ignored. -/
def ofEntries (entries : Toml.Entries) : Option Config := do
  let config ← NumberKey.all.foldlM (readNumber entries) {}
  SwitchKey.all.foldlM (readSwitch entries) config

/-- The configuration of a settings text. -/
def ofText (text : String) : Except SettingsError Config :=
  match Toml.parse text >>= ofEntries with
  | none => .error .malformed
  | some config =>
    match config.validate with
    | .error defect => .error (.invalid defect)
    | .ok () => .ok config

/-- The configuration of a settings file. -/
def ofFile (contents : Except ReadFailure ByteArray) : Except SettingsError Config :=
  match contents with
  | .error failure => .error (.unreadable failure)
  | .ok bytes =>
    match String.fromUTF8? bytes with
    | none => .error (.unreadable .notText)
    | some text => ofText text

end Config

end ThreadSoup
