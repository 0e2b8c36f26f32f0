/-!
Lock lines. The first line of a table file may name the transaction that holds the table: it starts
with an ampersand, and the rest of it is the transaction's ticket.
-/

namespace TextTables

/-- What identifies a transaction. -/
structure Ticket where
  text : String
deriving Repr, DecidableEq

/-- The two hexadecimal digits of a byte. -/
def hexPair (byte : UInt8) : List Char := [byte.toNat / 16, byte.toNat % 16].map Nat.digitChar

/-- The bytes with one of them put between two bounds, which marks what the bytes are. -/
def markByte (bytes : List UInt8) (index : Nat) (low size : Nat) : List UInt8 :=
  bytes.modify index fun byte => UInt8.ofNat (low + byte.toNat % size)

/-- The ticket of sixteen bytes: their digits in groups of 8, 4, 4, 4 and 12. The seventh and the
ninth byte are marked as those of random identifiers are. -/
def Ticket.ofBytes (bytes : List UInt8) : Ticket :=
  let marked := markByte (markByte bytes 6 0x40 0x10) 8 0x80 0x40
  let digits (start count : Nat) := ((marked.drop start).take count).flatMap hexPair
  ⟨String.ofList (List.intercalate ['-']
    [digits 0 4, digits 4 2, digits 6 2, digits 8 2, digits 10 6])⟩

/-- Whether a line starts with the character of lock lines. -/
def isLockLine (line : String) : Bool := line.toList.head? == some '&'

/-- The lock line of a ticket. -/
def Ticket.lockLine (ticket : Ticket) : String := "&" ++ ticket.text

/-- The ticket of a lock line. -/
def Ticket.ofLine? (line : String) : Option Ticket :=
  match line.toList with
  | '&' :: rest => some ⟨String.ofList rest⟩
  | _ => none

/-- The ticket at the top of some lines. -/
def holder? (lines : List String) : Option Ticket := lines.head?.bind Ticket.ofLine?

/-- The lines with a ticket's lock line at the top, in place of any other lock line there. -/
def putLock (ticket : Ticket) : List String → List String
  | [] => [ticket.lockLine]
  | first :: rest =>
    if isLockLine first then ticket.lockLine :: rest else ticket.lockLine :: first :: rest

/-- The lines without the lock line at the top. -/
def dropLock : List String → List String
  | [] => []
  | first :: rest => if isLockLine first then rest else first :: rest

end TextTables
