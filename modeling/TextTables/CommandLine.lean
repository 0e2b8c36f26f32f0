import TextTables.Config
import TextTables.Shell.Basic
import TextTables.Store.Disk
/-!
The command line: options, and what a run with them does to a disk. A run reads the configuration,
opens a session, runs the script if one is given, and then the standard input.
-/

namespace TextTables

/-! ## Options -/

/-- The options of a run. -/
structure Options where
  script : Option String
  reset : Bool
  debug : Bool
  verbose : Bool
  config : Option String
  dataDirectory : Option String
deriving Repr, DecidableEq

/-- The options of a run without arguments. -/
def Options.initial : Options := ⟨none, false, false, false, none, none⟩

/-- An option that takes a value. -/
inductive ValueOption where
  | script | config | dataDirectory
deriving Repr, DecidableEq

/-- An option that takes no value. -/
inductive Switch where
  | reset | debug | verbose | help | version
deriving Repr, DecidableEq

/-- What some arguments ask for. -/
inductive Invocation where
  | run (options : Options)
  | help
  | version
  /-- arguments that make no sense -/
  | misuse
deriving Repr, DecidableEq

/-- An option by its long name. -/
def longOption? (name : String) : Option (ValueOption ⊕ Switch) :=
  match name with
  | "file" => some (.inl .script)
  | "config" => some (.inl .config)
  | "data-dir" => some (.inl .dataDirectory)
  | "reset" => some (.inr .reset)
  | "debug" => some (.inr .debug)
  | "verbose" => some (.inr .verbose)
  | "help" => some (.inr .help)
  | "version" => some (.inr .version)
  | _ => none

/-- An option by its letter. -/
def shortOption? (letter : Char) : Option (ValueOption ⊕ Switch) :=
  match letter with
  | 'f' => some (.inl .script)
  | 'c' => some (.inl .config)
  | 'r' => some (.inr .reset)
  | 'd' => some (.inr .debug)
  | 'v' => some (.inr .verbose)
  | 'h' => some (.inr .help)
  | 'V' => some (.inr .version)
  | _ => none

/-- The options with a value set, which may be set once and is not empty. -/
def Options.setValue (o : Options) (option : ValueOption) (value : String) :
    Except Invocation Options :=
  if value.isEmpty then .error .misuse
  else match option with
    | .script => if o.script.isSome then .error .misuse else .ok { o with script := some value }
    | .config => if o.config.isSome then .error .misuse else .ok { o with config := some value }
    | .dataDirectory =>
      if o.dataDirectory.isSome then .error .misuse
      else .ok { o with dataDirectory := some value }

/-- The options with a switch turned on, which may be turned on once. -/
def Options.turnOn (o : Options) : Switch → Except Invocation Options
  | .reset => if o.reset then .error .misuse else .ok { o with reset := true }
  | .debug => if o.debug then .error .misuse else .ok { o with debug := true }
  | .verbose => if o.verbose then .error .misuse else .ok { o with verbose := true }
  | .help => .error .help
  | .version => .error .version

/-- The options after a cluster of letters, and the option whose value is the next argument. -/
def Options.readLetters (o : Options) :
    List Char → Except Invocation (Options × Option ValueOption)
  | [] => .ok (o, none)
  | letter :: rest =>
    match shortOption? letter with
    | none => .error .misuse
    | some (.inr switch) => do (← o.turnOn switch).readLetters rest
    | some (.inl option) =>
      match rest with
      | [] => .ok (o, some option)
      | '=' :: value => do return (← o.setValue option (String.ofList value), none)
      | value => do return (← o.setValue option (String.ofList value), none)

/-- The options after a long option, and the option whose value is the next argument. -/
def Options.readLong (o : Options) (cs : List Char) :
    Except Invocation (Options × Option ValueOption) :=
  let name := String.ofList (cs.takeWhile (· ≠ '='))
  match longOption? name, cs.dropWhile (· ≠ '=') with
  | some (.inr switch), [] => do return (← o.turnOn switch, none)
  | some (.inl option), [] => .ok (o, some option)
  | some (.inl option), _ :: value => do
    return (← o.setValue option (String.ofList value), none)
  | _, _ => .error .misuse

/-- The options after some arguments, the first of which may be the value of an option. -/
def Options.read (o : Options) (waiting : Option ValueOption) :
    List String → Except Invocation Options
  | [] => if waiting.isSome then .error .misuse else .ok o
  | argument :: rest =>
    match argument.toList with
    | ['-', '-'] => if waiting.isSome || !rest.isEmpty then .error .misuse else .ok o
    | '-' :: '-' :: cs =>
      if waiting.isSome then .error .misuse
      else do
        let (o, waiting) ← o.readLong cs
        o.read waiting rest
    | '-' :: letter :: letters =>
      if waiting.isSome then .error .misuse
      else do
        let (o, waiting) ← o.readLetters (letter :: letters)
        o.read waiting rest
    | _ =>
      match waiting with
      | some option => do (← o.setValue option argument).read none rest
      | none => .error .misuse

/-- What some arguments ask for. -/
def Invocation.ofArguments (arguments : List String) : Invocation :=
  match Options.initial.read none arguments with
  | .ok options => .run options
  | .error invocation => invocation

/-! ## Runs -/

/-- What a run leaves: its exit code, what it printed, and the disk. -/
structure Response where
  code : Nat
  output : List String
  disk : Disk

/-- The text of a file that has to exist. -/
def Disk.requireText (path : String) (disk : Disk) : Except Error String := do
  match ← disk.readText? ⟨path⟩ with
  | some text => return text
  | none => throw (.io (.fileMissing path))

/-- The configuration of a run, with the data directory that the options name. -/
def Options.settings (o : Options) (disk : Disk) : Except Error Config := do
  let config ← match o.config with
    | some path => Config.ofString (← disk.requireText path)
    | none => pure .default
  return { config with dataDirectory := o.dataDirectory.getD config.dataDirectory }

/-- Runs the script, if there is one, and then the input. -/
def Shell.runBoth (files : Catalog) (script : Option String) (input : Feed) (shell : Shell Disk) :
    Shell Disk × Except Error Unit :=
  match script with
  | none => let (shell, result) := shell.run files input; (shell, result.map fun _ => ())
  | some path =>
    match shell.store.requireText path with
    | .error e => (shell, .error e)
    | .ok text =>
      match shell.runScript files text with
      | (shell, false) => (shell, .ok ())
      | (shell, true) => let (shell, result) := shell.run files input; (shell, result.map fun _ => ())

/-- Opens a session, runs the script and the input in it, and closes it. -/
def Options.runSession (o : Options) (files : Catalog) (tickets : Nat → Ticket) (input : Feed)
    (disk : Disk) : Response :=
  match files.init disk with
  | .error _ disk => ⟨1, [], disk⟩
  | .ok _ disk =>
    let shell : Shell Disk :=
      Shell.start { toSession := Session.start, store := disk } tickets
    let (shell, result) := shell.runBoth files o.script input
    let disk := Connection.close files shell.toConnection
    match result with
    | .ok _ => ⟨0, shell.output ++ ["All done."], disk⟩
    | .error _ => ⟨1, shell.output, disk⟩

/-- Runs with some options. -/
def Options.run (o : Options) (tickets : Nat → Ticket) (input : Feed) (disk : Disk) : Response :=
  match o.settings disk with
  | .error _ => ⟨1, [], disk⟩
  | .ok config =>
    let files : Catalog := ⟨⟨config.dataDirectory⟩, config.tableExtension⟩
    if o.reset then
      match files.reset disk with
      | .error _ disk => ⟨1, [], disk⟩
      | .ok _ disk => o.runSession files tickets input disk
    else o.runSession files tickets input disk

/-- The name and version of the program. -/
def versionLine : String := "flatdb 0.1.0"

/-- The summary of the options. -/
def usageLines : List String :=
  ["Usage: flatdb [OPTIONS]",
   "",
   "Options:",
   "  -f, --file <FILE>          Script to run before reading from stdin",
   "  -r, --reset                Delete every database before starting",
   "  -d, --debug                Set the log level to debug",
   "  -v, --verbose              Set the log level to info",
   "  -c, --config <CONFIG>      TOML configuration file",
   "      --data-dir <DATA_DIR>  Directory holding the databases (overrides the config file)",
   "  -h, --help                 Print help",
   "  -V, --version              Print version"]

/-- Does what some arguments ask for. -/
def respond (arguments : List String) (tickets : Nat → Ticket) (input : Feed) (disk : Disk) :
    Response :=
  match Invocation.ofArguments arguments with
  | .run options => options.run tickets input disk
  | .help => ⟨0, usageLines, disk⟩
  | .version => ⟨0, [versionLine], disk⟩
  | .misuse => ⟨2, [], disk⟩

end TextTables
