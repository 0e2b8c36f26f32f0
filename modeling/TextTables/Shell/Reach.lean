import TextTables.Shell.Splitter
import TextTables.Session
import TextTables.Syntax.Lexer
/-!
The reach of a command: the databases and tables that it can touch in a session. A command names all
of them, or the session holds them already, so that nothing else has to be looked at.
-/

namespace TextTables

/-- Names of databases and of tables, in the case in which a store keeps them. -/
structure Reach where
  databases : List String
  tables : List String
deriving Repr, DecidableEq

/-- The names in a statement. -/
def namesIn (text : String) : List String :=
  (lex text).filterMap fun
    | .ok (.name s) => some s
    | _ => none

/-- The names in a command. -/
def Command.names : Command → List String
  | .statement text => namesIn text
  | .exit => []

/-- The tables that a session has staged or holds. -/
def Session.ids (session : Session) : List TableId :=
  match session.transaction with
  | some t => t.staged.map (·.id) ++ t.locked
  | none => []

/-- What a session can touch when some names are given to it. -/
def Session.reach (session : Session) (names : List String) : Reach :=
  let databases := names ++ session.database.toList ++ session.ids.map (·.database)
  let tables := names ++ session.ids.map (·.name)
  ⟨(databases.map Text.lowerCase).eraseDups, (tables.map Text.lowerCase).eraseDups⟩

end TextTables
