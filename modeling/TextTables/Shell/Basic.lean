import TextTables.Execution
import TextTables.Shell.Feed
import TextTables.Shell.Splitter
/-!
The shell: it executes commands on a connection and prints what comes of them. A statement that fails
prints its error, and the next one is executed. Input is taken whole, as a script, or line by line.
-/

namespace TextTables

/-- A connection, the lines printed on it so far, and the tickets of its transactions: the statement
that is executed as the `n`-th takes ticket `n`. -/
structure Shell (σ : Type) extends Connection σ where
  tickets : Nat → Ticket
  executed : Nat
  output : List String

/-- The line that shows an error. -/
def failureLine (e : Error) : String := "!Failed: " ++ e.message

namespace Shell

variable {σ : Type}

/-- A shell on a connection. -/
def start (c : Connection σ) (tickets : Nat → Ticket) : Shell σ :=
  { toConnection := c, tickets, executed := 0, output := [] }

variable [Storage σ] (files : Catalog)

/-- Executes a statement and prints what comes of it. -/
def executeStatement (text : String) (shell : Shell σ) : Shell σ :=
  match Connection.execute files (shell.tickets shell.executed) text shell.toConnection with
  | .ok outcome c =>
    { shell with
      toConnection := c
      executed := shell.executed + 1
      output := shell.output ++ outcome.lines }
  | .error e c =>
    { shell with
      toConnection := c
      executed := shell.executed + 1
      output := shell.output ++ [failureLine e] }

/-- Executes a command; false if it is the exit command. -/
def execute (command : Command) (shell : Shell σ) : Shell σ × Bool :=
  match command with
  | .exit => (shell, false)
  | .statement text => (executeStatement files text shell, true)

/-- Executes commands up to the exit command; false if there is one. -/
def executeAll (shell : Shell σ) : List Command → Shell σ × Bool
  | [] => (shell, true)
  | command :: rest =>
    match execute files command shell with
    | (shell, true) => executeAll shell rest
    | (shell, false) => (shell, false)

/-- Runs a script, which is split into commands first. -/
def runScript (text : String) (shell : Shell σ) : Shell σ × Bool :=
  executeAll files shell (splitCommands text)

/-- Runs lines as they come, from a splitter on; false if the exit command is among them. -/
def runLines (shell : Shell σ) (splitter : Splitter) (broken : Bool) :
    List String → Shell σ × Except Error Bool
  | [] =>
    if broken then (shell, .error (.io (.notText "input")))
    else match splitter.finish.2 with
      | some command => ((execute files command shell).1, .ok true)
      | none => (shell, .ok true)
  | line :: rest =>
    match splitter.push line with
    | (splitter, none) => runLines shell splitter broken rest
    | (splitter, some command) =>
      match execute files command shell with
      | (shell, true) => runLines shell splitter broken rest
      | (shell, false) => (shell, .ok false)

/-- Runs a feed line by line; false if the exit command is in it. -/
def run (feed : Feed) (shell : Shell σ) : Shell σ × Except Error Bool :=
  runLines files shell .empty feed.broken feed.lines

end Shell

end TextTables
