import PayloadAtlas.Main
import PayloadAtlas.Store.Memory
import PayloadAtlas.Proofs.Shape.Identity
import PayloadAtlas.Proofs.Shape.Build
import PayloadAtlas.Proofs.Drift
import PayloadAtlas.Proofs.Drift.Display
import PayloadAtlas.Proofs.Store.Conversation
import PayloadAtlas.Proofs.Sync.Course
import PayloadAtlas.Proofs.Sync.Row
import PayloadAtlas.Proofs.Sync.Isolation
import PayloadAtlas.Proofs.Store.Memory
import PayloadAtlas.Proofs.Sync.Stored
import PayloadAtlas.Proofs.Sync.Repetition
import PayloadAtlas.Proofs.Store.Keys
import PayloadAtlas.Proofs.Store.Interleaving
import PayloadAtlas.Proofs.Sync.Concurrent
import PayloadAtlas.Proofs.Sync.Discovery
import PayloadAtlas.Proofs.Decimal.Shortest
import PayloadAtlas.Proofs.Decimal.Rounding
import PayloadAtlas.Proofs.Decimal.Value
import PayloadAtlas.Proofs.Json.Numeral
import PayloadAtlas.Proofs.Json.Written
import PayloadAtlas.Proofs.Json.Reread
import PayloadAtlas.Proofs.Json.Members
import PayloadAtlas.Proofs.Json.Decode
import PayloadAtlas.Proofs.Json.Read
import PayloadAtlas.Proofs.Json.Range
import PayloadAtlas.Proofs.Summary.Codec
import PayloadAtlas.Proofs.Tree.Bare
import PayloadAtlas.Proofs.Python.Trivia
import PayloadAtlas.Proofs.Tree.Order
import PayloadAtlas.Proofs.Python.Extraction
import PayloadAtlas.Proofs.Model.History
import PayloadAtlas.Proofs.Disk.Path
import PayloadAtlas.Proofs.Disk.Growth
import PayloadAtlas.Proofs.Disk.Reading
import PayloadAtlas.Proofs.Disk.Directory
import PayloadAtlas.Proofs.Disk.Fault
import PayloadAtlas.Proofs.Scan.Summary
import PayloadAtlas.Proofs.Scan.Artifacts
import PayloadAtlas.Proofs.Scan.Baseline
import PayloadAtlas.Proofs.Disk.Removal
import PayloadAtlas.Proofs.Path
import PayloadAtlas.Proofs.Scan.Failure
import PayloadAtlas.Proofs.Scan.Walk
import PayloadAtlas.Proofs.Scan.Visits
import PayloadAtlas.Proofs.Scan.Repetition
import PayloadAtlas.Proofs.Scan.Omission
import PayloadAtlas.Proofs.Scan.Accounting
import PayloadAtlas.Proofs.Python.Escape
import PayloadAtlas.Proofs.Python.Precedence
import PayloadAtlas.Proofs.Text.Capitals
import PayloadAtlas.Proofs.Shape.Registered
import PayloadAtlas.Proofs.Model.Collision
import PayloadAtlas.Proofs.Grammar.Outline
import PayloadAtlas.Proofs.Grammar.Read
import PayloadAtlas.Proofs.Python.Fields
import PayloadAtlas.Proofs.Python.Parameters
import PayloadAtlas.Proofs.Sync.Qualified
import PayloadAtlas.Proofs.Sync.RowOrder
import PayloadAtlas.Proofs.Store.Upsert
import PayloadAtlas.Proofs.Sync.ReviewLogs
import PayloadAtlas.Proofs.Shape.FileOrder
import PayloadAtlas.Proofs.Drift.Symmetry
import PayloadAtlas.Proofs.Sync.DocumentNames
import PayloadAtlas.Proofs.Scan.Files
import PayloadAtlas.Proofs.Scan.Exactness
import PayloadAtlas.Proofs.Scan.Bystanders
import PayloadAtlas.Proofs.Python.LineEnd
import PayloadAtlas.Proofs.Text.LowerCase
import PayloadAtlas.Proofs.Sync.TableRoutes
import PayloadAtlas.Proofs.Rest.Place
import PayloadAtlas.Proofs.Json.Layout
import PayloadAtlas.Proofs.Summary.Page
import PayloadAtlas.Proofs.Summary.Markdown
import PayloadAtlas.Proofs.Shape.Signature
import PayloadAtlas.Proofs.Shape.Example
import PayloadAtlas.Proofs.Tree.Fault
import PayloadAtlas.Proofs.Python.Fault
