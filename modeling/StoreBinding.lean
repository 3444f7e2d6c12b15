import StoreBinding.OrderedMap
import StoreBinding.Text.Quoted
import StoreBinding.Text.Utf8
import StoreBinding.Text.JsonString
import StoreBinding.Numeral.Decimal
import StoreBinding.Numeral.Fixed
import StoreBinding.Document
import StoreBinding.Durability
import StoreBinding.Duration
import StoreBinding.Params
import StoreBinding.Config
import StoreBinding.Failure
import StoreBinding.Log
import StoreBinding.Log.Clock
import StoreBinding.Template
import StoreBinding.Cluster.Requirement
import StoreBinding.Settings
import StoreBinding.Backend
import StoreBinding.Client
import StoreBinding.FaultScript
import StoreBinding.Memory
import StoreBinding.World
import StoreBinding.Cluster
import StoreBinding.Command
import StoreBinding.Main
import StoreBinding.Durability.Check
import StoreBinding.Log.Record
import StoreBinding.Proofs.Account
import StoreBinding.Proofs.Lifecycle
import StoreBinding.Proofs.Chronicle
import StoreBinding.Proofs.References
import StoreBinding.Proofs.Resolution
import StoreBinding.Proofs.FatalStart
import StoreBinding.Proofs.Calls
import StoreBinding.Proofs.Borrowing
import StoreBinding.Proofs.Document
import StoreBinding.Proofs.Records
import StoreBinding.Proofs.Acceptance
import StoreBinding.Proofs.Requests
import StoreBinding.Proofs.Deployment
import StoreBinding.Proofs.Threads
import StoreBinding.Proofs.Sharing
import StoreBinding.Proofs.Locality
import StoreBinding.Proofs.Schedule
import StoreBinding.Proofs.Handback
import StoreBinding.Proofs.Containment
import StoreBinding.Proofs.Clusters
import StoreBinding.Proofs.Independence
import StoreBinding.Proofs.Interchange
import StoreBinding.Proofs.CountsKept
import StoreBinding.Proofs.Redaction
import StoreBinding.Proofs.PasswordUnseen
import StoreBinding.Proofs.Discretion
import StoreBinding.Proofs.Turns
import StoreBinding.Proofs.Tasks
import StoreBinding.Proofs.RecordLives
import StoreBinding.Proofs.CleanSlate
import StoreBinding.Proofs.Deeds
import StoreBinding.Proofs.ExitStatus
import StoreBinding.Proofs.Interrupts
import StoreBinding.Proofs.Refusals
import StoreBinding.Proofs.Demands
import StoreBinding.Proofs.EarlierLog
import StoreBinding.Proofs.Retry
import StoreBinding.Proofs.EnvironmentFile
import StoreBinding.Proofs.Provenance
import StoreBinding.Proofs.IntegerTexts
import StoreBinding.Proofs.Selections
import StoreBinding.Proofs.JsonTexts
import StoreBinding.Proofs.JsonLines
import StoreBinding.Proofs.Reckoning
import StoreBinding.Proofs.Requirements
import StoreBinding.Proofs.Timeouts
import StoreBinding.Proofs.Answers
