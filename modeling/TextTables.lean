import TextTables.Main
import TextTables.Proofs.Evaluation.Typing
import TextTables.Proofs.File.RoundTrip
import TextTables.Proofs.Relation.CrossProduct
import TextTables.Proofs.Relation.Mirror
import TextTables.Proofs.Relation.Projection
import TextTables.Proofs.Schema.Lines
import TextTables.Proofs.Server.Altering
import TextTables.Proofs.Server.Atomicity
import TextTables.Proofs.Server.Dropping
import TextTables.Proofs.Server.Inserting
import TextTables.Proofs.Server.Reloading
import TextTables.Proofs.Server.Spelling
import TextTables.Proofs.Server.Untouched
import TextTables.Proofs.Server.WellFormed
import TextTables.Proofs.Server.WrittenBack
import TextTables.Proofs.Session.Agreement
import TextTables.Proofs.Session.CommitPoints
import TextTables.Proofs.Session.Ended
import TextTables.Proofs.Session.FilesAfter
import TextTables.Proofs.Session.Managers
import TextTables.Proofs.Session.Rollback
import TextTables.Proofs.Shell.Comments
import TextTables.Proofs.Shell.Fragments
import TextTables.Proofs.Shell.Running
import TextTables.Proofs.Store.Apart
import TextTables.Proofs.Store.Handed
import TextTables.Proofs.Store.Locking
import TextTables.Proofs.Store.Tree
import TextTables.Proofs.Syntax.Grammar
import TextTables.Proofs.Syntax.ReadBack
import TextTables.Server
import TextTables.Store.Memory
