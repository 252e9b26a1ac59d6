import LogCalls.CommandLine.Program

/-! # The executable

Access to the files of the machine, and the entry point. -/

namespace LogCalls.Executable

/-- The files at any depth below a directory. -/
partial def filesBelow (path : Path) : IO (List (List String)) := do
  let here ← IO.currentDir
  let mut found := []
  for entry in ← (here / path.text).readDir do
    if ← entry.path.isDir then
      let deeper ← filesBelow (path.join entry.fileName)
      found := found ++ deeper.map (entry.fileName :: ·)
    else
      found := found ++ [[entry.fileName]]
  return found

/-- Whether an action goes through. -/
def succeeds (action : IO Unit) : IO Bool := do
  match ← action.toBaseIO with
  | .ok _ => return true
  | .error _ => return false

instance : FileAccess IO where
  kind? path := do
    let place := (← IO.currentDir) / path.text
    if ← place.isDir then return some .directory
    else if ← place.pathExists then return some .file
    else return none
  filesBelow path := filesBelow path
  read path := do
    match ← (IO.FS.readFile ((← IO.currentDir) / path.text)).toBaseIO with
    | .ok text => return .ok text
    | .error error => return .error (.other (toString error))
  makeDirectories path := do succeeds (IO.FS.createDirAll ((← IO.currentDir) / path.text))
  write path text := do succeeds (IO.FS.writeFile ((← IO.currentDir) / path.text) text)

end LogCalls.Executable

/-- Run the program on the files of the machine. -/
def main (arguments : List String) : IO UInt32 := do
  let ended : LogCalls.Exit ← LogCalls.Program.run (fun _ => "invalid document") arguments
  IO.print ended.output
  for line in ended.errors do
    IO.eprintln line
  return ended.code.toUInt32
