import ContentSearch.Program.Ending

/-!
# The program itself

The outer layer: it looks at the environment, the files that matter and the input, hands them to
`Execution.ofWords`, and does what comes out. There is no network behind it, so every search of its
own finds no portal; and no library speaks here, so the words of libraries are the usual ones.

Only this module reads and writes for real, and it decides nothing: files are written where an
execution left others than it was given.
-/

set_option autoImplicit false

namespace ContentSearch.Main

def variableNames : List String :=
  ["HS_CONFIG", "XDG_CONFIG_HOME", "HOME", "HS_PORTAL", "HS_TOKEN", "NO_COLOR"]

def readEnvironment : IO Environment :=
  variableNames.filterMapM fun name => do
    return (← IO.getEnv name).map fun value => (name, value)

def probe (path : String) : IO (Option FileEntry) := do
  try
    let real ← IO.FS.realPath path
    if ← real.isDir then return some .directory
    return some (.file (← IO.FS.readBinFile path).toList)
  catch _ => return none

def look (fs : Files) (path : String) : IO Files := do
  let p := Path.ofString path
  let mut fs := fs
  let mut place := Files.startOf p
  let mut spelled := if p.absolute then "" else "."
  for name in p.names do
    place := Files.move place name
    spelled := spelled ++ "/" ++ name
    match ← probe spelled with
    | some e => fs := fs.put place e
    | none => pure ()
  return fs

def filterOf : Task → Option String
  | .compile q => q.filter
  | .search q => q.filter
  | _ => none

/-- The surroundings, as far as an invocation looks at them. -/
def observe (i : Invocation) (environment : Environment) : IO Surroundings := do
  let mut fs := Files.empty
  match Settings.path environment none with
  | .ok path => fs ← look fs path
  | .error _ => pure ()
  let mut input := []
  match filterOf i.task with
  | some path =>
    if Path.isStandardInput path then
      input := (← (← IO.getStdin).readBinToEnd).toList
    else
      fs ← look fs path
  | none => pure ()
  return { environment, accountHome := none, files := fs, input, portal := .nowhere }

/-- Writes the settings file, if the execution left another one behind. -/
def keep (around : Surroundings) (after : Files) : IO Unit := do
  match Settings.path around.environment none with
  | .error _ => pure ()
  | .ok path =>
    if after ≠ around.files then
      match (Path.ofString path).parent? with
      | some p =>
        if p.names ≠ [] then
          -- a way that ends half way was reported already
          try IO.FS.createDirAll ((if p.absolute then "/" else "") ++ "/".intercalate p.names)
          catch _ => pure ()
      | none => pure ()
      match after.readBytes path with
      | .ok content => IO.FS.writeBinFile path (ByteArray.mk content.toArray)
      | .error _ => pure ()

end ContentSearch.Main

open ContentSearch in
def main (words : List String) : IO UInt32 := do
  let environment ← Main.readEnvironment
  let around : Surroundings ← match Invocation.ofWords environment words with
    | .ok i => Main.observe i environment
    | .error _ =>
      pure { environment, accountHome := none, files := .empty, input := [], portal := .nowhere }
  let x := Execution.ofWords words around
  Main.keep around x.files
  IO.print x.ending.output
  IO.eprint x.ending.errorOutput
  return UInt32.ofNat x.ending.status
