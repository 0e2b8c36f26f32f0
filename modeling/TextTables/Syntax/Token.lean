import TextTables.Text.Case
/-!
Tokens of the statement language: keywords, names, literals and symbols.
-/

namespace TextTables

/-! ## Keywords -/

/-- The reserved words. -/
inductive Keyword where
  | create | drop | database | table | use | alter | add
  | select | from | where | on | left | right | inner | outer | join | and | or
  | insert | into | values | update | set | delete
  | begin | transaction | commit
deriving Repr, DecidableEq

/-- Every keyword. -/
def Keyword.all : List Keyword :=
  [.create, .drop, .database, .table, .use, .alter, .add,
   .select, .from, .where, .on, .left, .right, .inner, .outer, .join, .and, .or,
   .insert, .into, .values, .update, .set, .delete,
   .begin, .transaction, .commit]

/-- The upper-case spelling of a keyword. -/
def Keyword.spelling : Keyword → String
  | .create => "CREATE"
  | .drop => "DROP"
  | .database => "DATABASE"
  | .table => "TABLE"
  | .use => "USE"
  | .alter => "ALTER"
  | .add => "ADD"
  | .select => "SELECT"
  | .from => "FROM"
  | .where => "WHERE"
  | .on => "ON"
  | .left => "LEFT"
  | .right => "RIGHT"
  | .inner => "INNER"
  | .outer => "OUTER"
  | .join => "JOIN"
  | .and => "AND"
  | .or => "OR"
  | .insert => "INSERT"
  | .into => "INTO"
  | .values => "VALUES"
  | .update => "UPDATE"
  | .set => "SET"
  | .delete => "DELETE"
  | .begin => "BEGIN"
  | .transaction => "TRANSACTION"
  | .commit => "COMMIT"

/-- The keyword that a word spells, in any case. -/
def Keyword.ofWord? (word : String) : Option Keyword :=
  let word := Text.upperCase word
  Keyword.all.find? fun k => k.spelling == word

/-! ## Tokens -/

/-- A lexical unit of a statement. -/
inductive Token where
  | keyword (k : Keyword)
  | name (s : String)
  | text (s : String)
  | number (s : String)
  | openParen | closeParen | comma | semicolon | period
  | asterisk | plus | minus | slash
  | equal | notEqual | less | lessOrEqual | greater | greaterOrEqual
deriving Repr, DecidableEq

/-- The form in which messages show a token. -/
def Token.render : Token → String
  | .keyword k => k.spelling
  | .name s => s
  | .text s => s
  | .number s => s
  | .openParen => "("
  | .closeParen => ")"
  | .comma => ","
  | .semicolon => ";"
  | .period => "."
  | .asterisk => "*"
  | .plus => "+"
  | .minus => "-"
  | .slash => "/"
  | .equal => "="
  | .notEqual => "!="
  | .less => "<"
  | .lessOrEqual => "<="
  | .greater => ">"
  | .greaterOrEqual => ">="

end TextTables
