import TextTables.Execution
/-!
Several sessions over one store. A session is opened by its first statement and can be closed and
opened anew; `Server.run` takes any interleaving of the statements and closings of all sessions.
-/

namespace TextTables

/-- The open sessions, by name, and the store that they share. -/
structure Server (σ : Type) where
  sessions : List (String × Session)
  store : σ

/-- What a session does. -/
inductive Event where
  /-- a statement; a transaction that it starts takes the given ticket -/
  | statement (session : String) (text : String) (ticket : Ticket)
  | close (session : String)
deriving Repr, DecidableEq

namespace Server

variable {σ : Type}

/-- The server without sessions. -/
def start (store : σ) : Server σ := ⟨[], store⟩

/-- An open session. -/
def session? (server : Server σ) (name : String) : Option Session := server.sessions.lookup name

/-- The server with the state of a session replaced. -/
def put (server : Server σ) (name : String) (session : Session) : Server σ :=
  { server with
    sessions := (name, session) :: server.sessions.filter fun entry => entry.1 != name }

/-- The server without a session. -/
def remove (server : Server σ) (name : String) : Server σ :=
  { server with sessions := server.sessions.filter fun entry => entry.1 != name }

variable [Storage σ] (files : Catalog)

/-- The state of a session, which is opened if it is not open. -/
def enter (name : String) : Action (Server σ) Session := fun server =>
  match server.session? name with
  | some session => .ok session server
  | none =>
    match files.init server.store with
    | .ok _ store => .ok .start ({ server with store }.put name .start)
    | .error e store => .error e { server with store }

/-- Executes a statement in a session. -/
def execute (name : String) (text : String) (ticket : Ticket) : Action (Server σ) Outcome := do
  let session ← enter files name
  fun server =>
    match Connection.execute files ticket text ⟨session, server.store⟩ with
    | .ok outcome c => .ok outcome ({ server with store := c.store }.put name c.toSession)
    | .error e c => .error e ({ server with store := c.store }.put name c.toSession)

/-- Closes a session, if it is open. -/
def close (name : String) (server : Server σ) : Server σ :=
  match server.session? name with
  | some session =>
    { server with store := Connection.close files ⟨session, server.store⟩ }.remove name
  | none => server

/-- The server after an event. -/
def step (server : Server σ) : Event → Server σ
  | .statement name text ticket =>
    match execute files name text ticket server with
    | .ok _ server => server
    | .error _ server => server
  | .close name => close files name server

/-- The server after some events, in order. -/
def run (server : Server σ) (events : List Event) : Server σ := events.foldl (step files) server

end Server

end TextTables
