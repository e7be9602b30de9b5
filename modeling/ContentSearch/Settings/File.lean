import ContentSearch.Files
import ContentSearch.Settings.Document

/-!
# The settings file

Where settings are kept, and how they get there and back. The environment may name the file, or the
directory of all settings; else it lies in the user's home. A missing file stands for no settings.

Changing a setting reads the file, applies the change, makes the directories on the way and writes
the file anew. Every step may fail, and what earlier steps did to the files stays done; but the file
itself is the last thing to be touched.

A path is taken as it is written. It is not made absolute and not shortened, so a path through a
directory and back needs that directory to be there; making the directories on the way can bring
such a file to light.
-/

set_option autoImplicit false

namespace ContentSearch

inductive SettingsError
  /-- There is no home to keep settings in. -/
  | homeless
  | unreadable (f : FileFault)
  | fault (f : SettingsFault)
  | unknownKey (name : String)
  | badValue (key : SettingKey) (f : Text.Decimal.Fault)
  /-- The directory of the file cannot be made. -/
  | noDirectory (f : FileFault)
  /-- There is no document for these settings. -/
  | unwritable (s : Settings)
  | notWritten (f : FileFault)
  deriving Repr, DecidableEq

namespace SettingsError

/-- The failure in words. Those on a document are the words of the library for documents. -/
def message (e : SettingsError) (words : String) : String :=
  match e with
  | .homeless => "Could not determine config directory"
  | .unreadable f => "Failed to read config: " ++ f.message
  | .fault (.malformed _) => "Failed to parse config: " ++ words
  | .fault (.tooNew v) =>
    "Config version " ++ String.ofList (Text.Decimal.write v)
      ++ " is newer than supported version " ++ String.ofList (Text.Decimal.write Settings.version)
  | .unknownKey name =>
    "Unknown config key: " ++ name ++ " (expected "
      ++ ", ".intercalate (SettingKey.all.map SettingKey.name) ++ ")"
  | .badValue key f => "Invalid value for " ++ key.name ++ ": " ++ f.message
  | .noDirectory f => "Failed to create config directory: " ++ f.message
  | .unwritable _ => "Failed to serialize config: " ++ words
  | .notWritten f => "Failed to write config: " ++ f.message

end SettingsError

/-- The variables of an environment. -/
abbrev Environment := List (String × String)

namespace Settings

/-- The path of the settings file. `accountHome` is the home of the account that the program runs
under, for an environment that names none. -/
def path (environment : Environment) (accountHome : Option String) : Except SettingsError String :=
  match environment.lookup "HS_CONFIG" with
  | some path => .ok path
  | none =>
    let inDirectory (d : String) := Path.join (Path.join d "hs") "config.toml"
    match environment.lookup "XDG_CONFIG_HOME" with
    | some directory => .ok (inDirectory directory)
    | none =>
      match (nonEmpty (environment.lookup "HOME")).orElse fun _ => accountHome with
      | some home => .ok (inDirectory (Path.join home ".config"))
      | none => .error .homeless

/-- **The settings** in the file at a path. -/
def load (fs : Files) (path : String) : Except SettingsError Settings :=
  if fs.contains path then
    match fs.readText path with
    | .error f => .error (.unreadable f)
    | .ok text =>
      match parse text with
      | .ok s => .ok s
      | .error f => .error (.fault f)
  else .ok unset

/-- Puts settings into the file at a path: what comes of it, and the files afterwards. -/
def save (s : Settings) (fs : Files) (path : String) : Except SettingsError Unit × Files :=
  match fs.makeWay path with
  | (.error f, fs) => (.error (.noDirectory f), fs)
  | (.ok (), fs) =>
    match s.write? with
    | none => (.error (.unwritable s), fs)
    | some text =>
      match fs.write path (Text.Utf8.encode text) with
      | .error f => (.error (.notWritten f), fs)
      | .ok fs => (.ok (), fs)

/-- The settings after a change that is asked for by the name of a key. -/
def change (s : Settings) (key value : String) : Except SettingsError Settings :=
  match SettingKey.ofName? key with
  | none => .error (.unknownKey key)
  | some k =>
    match s.set k value with
    | .ok s => .ok s
    | .error f => .error (.badValue k f)

/-- **Changes a setting in the file**: what comes of it, and the files afterwards. -/
def update (fs : Files) (path key value : String) : Except SettingsError Unit × Files :=
  match load fs path with
  | .error e => (.error e, fs)
  | .ok s =>
    match s.change key value with
    | .error e => (.error e, fs)
    | .ok s => s.save fs path

end Settings
end ContentSearch
