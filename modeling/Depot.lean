import Depot.Main
import Depot.Proofs.Json.Numeral
import Depot.Proofs.Files.Change
import Depot.Proofs.HashSpec
import Depot.Proofs.Json.RoundTrip
import Depot.Proofs.Text.Split
import Depot.Proofs.Store.Atomicity
import Depot.Proofs.Store.BlobSnapshot
import Depot.Proofs.Store.FileRecord
import Depot.Proofs.Store.Handles
import Depot.Proofs.Store.History
import Depot.Proofs.Store.Publishing
import Depot.Proofs.Store.Verified
import Depot.Proofs.Path
import Depot.Proofs.Relpath
import Depot.Proofs.Store.Cacheable
import Depot.Proofs.Store.Apart
import Depot.Proofs.Store.PlainCommits
import Depot.Proofs.Store.Refresh
import Depot.Proofs.Store.Overtaking
import Depot.Proofs.Files.Nested
import Depot.Proofs.CommandLine.Confinement
import Depot.Proofs.Store.Fetching
import Depot.Proofs.Indexing.Document
import Depot.Proofs.CommandLine.Bookkeeping
import Depot.Proofs.Store.Delivery
import Depot.Proofs.Store.Failing
import Depot.Proofs.Store.Copies
import Depot.Proofs.Store.Realizable
import Depot.Proofs.Store.Restarts
import Depot.Proofs.Store.Listing
import Depot.Proofs.Store.Mapping
import Depot.Proofs.Store.Collisions
import Depot.Proofs.Store.Uploads
import Depot.Proofs.Project.Sorting
import Depot.Proofs.Indexing.Identity
import Depot.Proofs.CommandLine.Indexing
import Depot.Proofs.Indexing.Offline
import Depot.Proofs.HashSpec.Spelling
import Depot.Proofs.Link.Marks
import Depot.Proofs.Link.RoundTrip
import Depot.Proofs.Link.Sharing
import Depot.Proofs.Project.Spelling
import Depot.Proofs.Store.Lookups
