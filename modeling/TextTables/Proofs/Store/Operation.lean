import TextTables.Proofs.Store.Action
/-!
# Operations of a store

The operations of a store as data, with what they answer, so that what holds after any number of them can
be said of a list.
-/

namespace TextTables

/-- What an operation answers: the lines of a file, whether something is so or was done, or nothing. -/
inductive Answer where
  | lines (lines : Option (List String))
  | flag (flag : Bool)
  | done
deriving Repr, DecidableEq

/-- An operation of a store. -/
inductive Operation where
  | read (path : Path)
  | fileExists (path : Path)
  | directoryExists (path : Path)
  | write (path : Path) (lines : List String)
  | append (path : Path) (line : String)
  | createFile (path : Path)
  | deleteFile (path : Path)
  | createDirectory (path : Path)
  | deleteDirectory (path : Path)
deriving Repr, DecidableEq

namespace Operation

variable {σ : Type} [Storage σ]

/-- The operation on a store. -/
def run : Operation → Action σ Answer
  | .read path => do return .lines (← Action.ask (Storage.read? path))
  | .fileExists path => do return .flag (Storage.fileExists path (← get))
  | .directoryExists path => do return .flag (Storage.directoryExists path (← get))
  | .write path lines => do
    Storage.write path lines
    return .done
  | .append path line => do
    Storage.append path line
    return .done
  | .createFile path => do return .flag (← Storage.createFile path)
  | .deleteFile path => do return .flag (← Storage.deleteFile path)
  | .createDirectory path => do return .flag (← Storage.createDirectory path)
  | .deleteDirectory path => do return .flag (← Storage.deleteDirectory path)

/-- The path of the file that an operation reads or changes; other operations are about directories. -/
def file? : Operation → Option Path
  | .read path | .fileExists path | .write path _ | .append path _ | .createFile path | .deleteFile path => some path
  | .directoryExists _ | .createDirectory _ | .deleteDirectory _ => none

/-- The lines that an operation hands to the store. -/
def handed : Operation → List String
  | .write _ lines => lines
  | .append _ line => [line]
  | _ => []

/-- The store after an operation is the store after its action, which gives no more than the answer. -/
theorem after_run (operation : Operation) (s : σ) : Action.after operation.run s =
    match operation with
    | .read _ | .fileExists _ | .directoryExists _ => s
    | .write path lines => Action.after (Storage.write path lines) s
    | .append path line => Action.after (Storage.append path line) s
    | .createFile path => Action.after (Storage.createFile path) s
    | .deleteFile path => Action.after (Storage.deleteFile path) s
    | .createDirectory path => Action.after (Storage.createDirectory path) s
    | .deleteDirectory path => Action.after (Storage.deleteDirectory path) s := by
  cases operation <;> simp only [run, Action.after_bind_pure]
  case read path => exact Action.after_ask _ s
  all_goals rfl

/-- The store after some operations, of which some may have failed. -/
def after (operations : List Operation) (s : σ) : σ :=
  operations.foldl (fun s operation => Action.after operation.run s) s

theorem after_cons (operation : Operation) (operations : List Operation) (s : σ) :
    after (operation :: operations) s = after operations (Action.after operation.run s) := rfl

/-- What holds at first and is kept by each of some operations holds after all of them. -/
theorem after_induction {I : σ → Prop} {operations : List Operation} {s : σ} (hs : I s)
    (hstep : ∀ operation ∈ operations, ∀ s, I s → I (Action.after operation.run s)) : I (after operations s) :=
  List.foldlRecOn operations _ hs fun s hs operation hoperation => hstep operation hoperation s hs

end Operation

end TextTables
