import TextTables.CommandLine
import TextTables.Shell.Reach
import TextTables.Store.Difference
/-!
The program: it takes the command line, executes the commands of the script and of the standard
input one by one on the data directory, and prints what comes of them. Before a command the part of
the directory that it can touch is read, and after it the changes are made.
-/

namespace TextTables

/-! ## The data directory -/

/-- What stands at a path. -/
inductive Sight where
  | nothing
  | directory
  | file (bytes : ByteArray)

/-- Looks at a path. -/
def look (path : String) : IO Sight := do
  match ← (IO.FS.readBinFile path).toBaseIO with
  | .ok bytes => return .file bytes
  | .error _ =>
    match ← (IO.FS.realPath path).toBaseIO with
    | .ok _ => return .directory
    | .error _ => return .nothing

/-- The path of a place below the data directory. -/
def pathBelow (root : String) (place : Place) : String := (Path.join ⟨root⟩ place.render).text

/-- Adds what stands at a place below the data directory to a tree. -/
def observe (root : String) (disk : Disk) (place : Place) : IO Disk := do
  match ← look (pathBelow root place) with
  | .nothing => return disk
  | .directory => return { disk with directories := place :: disk.directories }
  | .file bytes => return disk.put place bytes

/-- The part of the data directory that is in reach. -/
def snapshot (root : String) (files : Catalog) (reach : Reach) : IO Disk := do
  let mut disk := Disk.empty
  for database in reach.databases do
    let place := (files.databasePath database).place
    disk ← observe root disk place
    if disk.directories.contains place then
      for table in reach.tables do
        disk ← observe root disk (files.tablePath ⟨database, table⟩).place
  return disk

/-- Makes a change below the data directory. A file is written next to its place and then moved. -/
def makeChange (root : String) : DiskChange → IO Unit
  | .removeDirectory place => IO.FS.removeDirAll (pathBelow root place)
  | .removeFile place => IO.FS.removeFile (pathBelow root place)
  | .createDirectory place => IO.FS.createDirAll (pathBelow root place)
  | .writeFile place bytes => do
    IO.FS.writeBinFile (pathBelow root place ++ ".new") bytes
    IO.FS.rename (pathBelow root place ++ ".new") (pathBelow root place)

/-- Creates the data directory and those above it. A `.` at its end is a step into it, so it has to
be there then. -/
def createRoot (root : String) : IO Unit := do
  unless Disk.walkable ⟨root⟩ do throw (IO.userError "no path for a directory")
  if Path.ending ⟨root⟩ = .self then
    let above := (Path.parent ⟨root⟩).text
    unless above.isEmpty do IO.FS.createDirAll above
    if let .nothing ← look root then IO.FS.createDir root
  else unless root.isEmpty do IO.FS.createDirAll root

/-! ## Commands -/

/-- Executes a command in a session; false if it is the exit command. -/
def executeOn (root : String) (files : Catalog) (session : Session) (command : Command) :
    IO (Session × Bool) := do
  let before ← snapshot root files (session.reach command.names)
  let ticket := Ticket.ofBytes (← IO.getRandomBytes 16).toList
  let shell := Shell.start { toSession := session, store := before } fun _ => ticket
  let (shell, more) := shell.execute files command
  match ← ((before.changes shell.store).forM (makeChange root)).toBaseIO with
  | .ok _ =>
    shell.output.forM fun line => IO.println line
    return (shell.toSession, more)
  | .error e =>
    IO.println ("!Failed: io error " ++ toString e)
    return (session, more)

/-- Executes commands up to the exit command; false if there is one. -/
def executeAllOn (root : String) (files : Catalog) (session : Session) :
    List Command → IO (Session × Bool)
  | [] => return (session, true)
  | command :: rest => do
    match ← executeOn root files session command with
    | (session, true) => executeAllOn root files session rest
    | (session, false) => return (session, false)

/-- The bytes of the next line of the standard input, after those already read. -/
partial def lineBytes (read : ByteArray) : IO ByteArray := do
  let next ← (← IO.getStdin).read 1
  if next.isEmpty || next.toList == [10] then return read ++ next else lineBytes (read ++ next)

/-- Executes the commands of the standard input as its lines come; false if a line is not text. -/
partial def executeInput (root : String) (files : Catalog) (session : Session)
    (splitter : Splitter) : IO (Session × Bool) := do
  match String.fromUTF8? (← lineBytes .empty) with
  | none => return (session, false)
  | some "" =>
    match splitter.finish.2 with
    | none => return (session, true)
    | some command => return ((← executeOn root files session command).1, true)
  | some text =>
    match splitter.push ((Text.stringLines text).headD "") with
    | (splitter, none) => executeInput root files session splitter
    | (splitter, some command) =>
      match ← executeOn root files session command with
      | (session, true) => executeInput root files session splitter
      | (session, false) => return (session, true)

/-- Closes a session. -/
def closeOn (root : String) (files : Catalog) (session : Session) : IO Unit := do
  let before ← snapshot root files (session.reach [])
  (before.changes (Connection.close files ⟨session, before⟩)).forM (makeChange root)

/-! ## Runs -/

/-- The configuration of a run. -/
def Options.readConfig (o : Options) : IO Config := do
  match o.config with
  | none => return .default
  | some path =>
    match Config.ofString (← IO.FS.readFile path) with
    | .ok config => return config
    | .error e => throw (IO.userError e.message)

/-- Runs with some options and gives the exit code. -/
def Options.perform (o : Options) : IO UInt32 := do
  let config ← o.readConfig
  let root := o.dataDirectory.getD config.dataDirectory
  let files : Catalog := ⟨⟨""⟩, config.tableExtension⟩
  if o.reset then
    if let .directory ← look root then IO.FS.removeDirAll root
  createRoot root
  let commands ← match o.script with
    | some path => pure (splitCommands (← IO.FS.readFile path))
    | none => pure []
  let (session, more) ← executeAllOn root files .start commands
  let (session, whole) ←
    if more then executeInput root files session .empty else pure (session, true)
  if whole then IO.println "All done."
  closeOn root files session
  return if whole then 0 else 1

end TextTables

open TextTables

/-- Does what the arguments ask for. -/
def main (arguments : List String) : IO UInt32 := do
  match Invocation.ofArguments arguments with
  | .run options => options.perform
  | .help =>
    usageLines.forM fun line => IO.println line
    return 0
  | .version =>
    IO.println versionLine
    return 0
  | .misuse =>
    (← IO.getStderr).putStrLn "unexpected arguments; see --help"
    return 2
