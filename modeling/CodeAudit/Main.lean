import CodeAudit.CommandLine.Program
open CodeAudit

/-- What an entry of a directory stands for. A directory that cannot be listed is empty. -/
partial def snapshot (entry : IO.FS.DirEntry) : IO FileTree := do
  match (← entry.path.symlinkMetadata).type with
  | .dir =>
    let inner ← try entry.path.readDir catch _ => pure #[]
    try
      let entries ← inner.mapM fun e => return (e.fileName, ← snapshot e)
      return .directory entries.toList
    catch _ => return .closed (inner.map (·.fileName)).toList
  | .symlink =>
    let goal ← try IO.FS.realPath entry.path catch _ => pure entry.path
    return .link goal.toString
  | _ =>
    try return .file (← IO.FS.readBinFile entry.path).data.toList false
    catch _ => return .unreadable

/-- The files with what stands at a path put in, if anything does, and with a link to it if other
links led there. -/
def withSnapshot (files : FileTree) (path : Path) : IO FileTree := do
  try
    let real ← IO.FS.realPath path.text
    let place := (Path.ofText real.toString).names
    let tree ← snapshot ⟨real.parent.getD real, real.fileName.getD ""⟩
    let files := FileTree.plant tree place files
    if place = path.names || path.names.contains ".." then return files
    else return FileTree.plant (.link real.toString) path.names files
  catch _ => return files

/-- The time at which a file is made. -/
def now : IO Moment := do
  let (_, path) ← IO.FS.createTempFile
  let time := (← path.metadata).modified
  IO.FS.removeFile path
  return .ofSeconds time.sec.toNat

/-- The home directory of a user by the lines of the password database. -/
def homeOf (database user : String) : Option Path :=
  (database.splitOn "\n").findSome? fun line =>
    match line.splitOn ":" with
    | [name, _, _, _, _, home, _] => if name = user then some (Path.ofText home) else none
    | _ => none

def directoryOf (words : List String) : Path :=
  match Task.ofWords words with
  | .scan a => Path.ofText a.directory
  | _ => Path.ofText "."

/-- The directory to scan and the defaults are looked at once, and the answer is found on what was
seen. No analyzers are started from here, so that those a scan needs count as missing. -/
def main (words : List String) : IO UInt32 := do
  let home := Path.ofText ((← IO.getEnv "HOME").getD "/")
  let workingDir := Path.ofText (← IO.currentDir).toString
  let program ← IO.appPath
  let database ← try IO.FS.readFile "/etc/passwd" catch _ => pure ""
  let host : Host :=
    { home, workingDir
      homes := homeOf database
      temporary := Path.ofText "/tmp"
      bundled := (Path.ofText (program.parent.getD program).toString).child "defaults"
      date := ← now }
  let directory := match host.expand (directoryOf words) with
    | .ok path => workingDir.join path
    | .error _ => workingDir
  let start := FileTree.plant (.directory []) workingDir.names (.directory [])
  let files ← [directory, host.userDefaults, host.bundled].foldlM withSnapshot start
  match ((host.answer words).run.run { files }).1 with
  | .ok answer =>
    IO.print answer.stdout
    IO.eprint answer.stderr
    return answer.code.toUInt32
  | .error fault =>
    IO.eprintln fault.message
    return 1
