import ExternalSort.Fault.Wording
import ExternalSort.Group.Operation
import ExternalSort.Group.Resident
import ExternalSort.Json.Check
import ExternalSort.Proofs.Batch.Loss
import ExternalSort.Proofs.Batch.Matching
import ExternalSort.Proofs.Batch.Transfer
import ExternalSort.Proofs.Column.Loss
import ExternalSort.Proofs.Config.Document
import ExternalSort.Proofs.Config.Variables
import ExternalSort.Proofs.Frame.Reading
import ExternalSort.Proofs.Frame.Row
import ExternalSort.Proofs.Group.Fitting
import ExternalSort.Proofs.Group.Likeness
import ExternalSort.Proofs.Group.Memory
import ExternalSort.Proofs.Group.Selecting
import ExternalSort.Proofs.Group.Sorting
import ExternalSort.Proofs.Run.Acceptance
import ExternalSort.Proofs.Run.Accounts
import ExternalSort.Proofs.Run.Apart
import ExternalSort.Proofs.Run.Company
import ExternalSort.Proofs.Run.Contents
import ExternalSort.Proofs.Run.Course
import ExternalSort.Proofs.Run.Damage
import ExternalSort.Proofs.Run.Ending
import ExternalSort.Proofs.Run.Exhaustion
import ExternalSort.Proofs.Run.Fullness
import ExternalSort.Proofs.Run.Life
import ExternalSort.Proofs.Run.LifeCycle
import ExternalSort.Proofs.Run.Loading
import ExternalSort.Proofs.Run.Neighbourhood
import ExternalSort.Proofs.Run.Pointer
import ExternalSort.Proofs.Run.Refusal
import ExternalSort.Proofs.Run.Teardown
import ExternalSort.Proofs.Run.Timing
import ExternalSort.Proofs.Run.Upkeep
import ExternalSort.Proofs.Storage.Cleaning
import ExternalSort.Proofs.Storage.Freshness
import ExternalSort.Proofs.Storage.Metered
import ExternalSort.Proofs.Storage.Narrow
import ExternalSort.Proofs.Storage.Subdirectory
import ExternalSort.Proofs.Storage.Territory
import ExternalSort.Proofs.Storage.Watched
import ExternalSort.Proofs.Stream.Cut
import ExternalSort.Run.Closing
import ExternalSort.Run.Life
import ExternalSort.Run.Neighbourhood
import ExternalSort.Run.Operation
import ExternalSort.Storage.Faulty
import ExternalSort.Storage.Watched
import ExternalSort.Trace
