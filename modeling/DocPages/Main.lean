import DocPages.Site.Run

/-!
# The program

Reads what the command needs from the file system, runs it, and does what came of it. There is no connection
to a content store, so every request fails.
-/

namespace DocPages.Program

/-- A file, or a folder with its visible subfolders and pages. -/
partial def load? (path : String) : IO (Option Entry) := do
  match ← ((← IO.currentDir) / path).readDir.toBaseIO with
  | .ok entries =>
    let loaded ← entries.toList.filterMapM fun e => do
      let name := e.fileName.toList
      if Entry.isHiddenName name && !Entry.isPageName name then return none
      match ← load? (path ++ "/" ++ e.fileName) with
      | some (.file content) =>
        return if Entry.isPageName name then some (name, .file content) else none
      | loaded => return loaded.map fun e => (name, e)
    return some (.folder loaded)
  | .error _ => match ← (IO.FS.readBinFile path).toBaseIO with
    | .ok content => return some (.file content.toList)
    | .error _ => return none

/-- The environment as far as settings are read from it. -/
def environment : IO (Keyed Text) :=
  ["CMS_URL", "CMS_API_KEY", "DOCFORGE_MEDIA_PREFIX", "DOCFORGE_MAX_SCHEMA_DEPTH"].filterMapM
    fun name => do return (← IO.getEnv name).map fun value => (name.toList, value.toList)

/-- The host as the command sees it; only what its source leads to is read. -/
def hostFor (command : Command) : IO Host := do
  let source? ← match command with
    | .render o => if o.cms then pure none else load? (String.ofList o.source)
    | _ => pure none
  let here := (← IO.currentDir).toString.toList
  return { here, env := ← environment, find? := fun _ => source?, send := fun _ => .failure "no connection" }

def writeFile (path content : Text) : IO Unit := do
  let folder := Path.folder path
  if !folder.isEmpty then IO.FS.createDirAll (String.ofList folder)
  IO.FS.writeFile (String.ofList path) (String.ofList content)

end DocPages.Program

open DocPages

def main (args : List String) : IO UInt32 := do
  let command := Command.ofArgs (args.map String.toList)
  let outcome := command.run (← Program.hostFor command)
  IO.print (String.ofList outcome.printed)
  for (path, content) in outcome.writes do Program.writeFile path content
  match outcome.ending with
  | .done => return 0
  | .stopped code =>
    if command = .misused then IO.eprint (String.ofList Command.usage)
    return .ofNat code
  | .undecodable fault =>
    IO.eprintln (String.ofList fault.message)
    return 1
  | .noText =>
    IO.eprintln "The content of the document is no text."
    return 1
