import AbcDemo.Foundation.Execution
import AbcDemo.Foundation.StorageMap
import AbcDemo.Foundation.Currency
import AbcDemo.Foundation.Blake2b
import AbcDemo.Foundation.Commutation
import AbcDemo.Foundation.Scale
import AbcDemo.Foundation.Locking
import AbcDemo.Pallet.History
import AbcDemo.Pallet.Events
import AbcDemo.Pallet.Observer
import AbcDemo.Pallet.Verdicts
import AbcDemo.Pallet.Runtime
import AbcDemo.Pallet.ErrandText
import AbcDemo.Registry.Delegates
import AbcDemo.Registry.Authority
import AbcDemo.Registry.Ownership
import AbcDemo.Registry.Names
import AbcDemo.Registry.Applications
import AbcDemo.Registry.Rollback
import AbcDemo.Tasks.Atomicity
import AbcDemo.Tasks.WellFormed
import AbcDemo.Tasks.Startable
import AbcDemo.Errands.Provenance
import AbcDemo.Errands.Lifecycle
import AbcDemo.Errands.Quorum
import AbcDemo.Errands.Results
import AbcDemo.Errands.Agreement
import AbcDemo.Errands.Reordering
import AbcDemo.Errands.LateVotes
import AbcDemo.Payments.FeeLedger
import AbcDemo.Payments.Settlement
import AbcDemo.Payments.Payouts
import AbcDemo.Offchain.Handoff
import AbcDemo.Offchain.Credentials
import AbcDemo.Offchain.Refunds
import AbcDemo.Offchain.Answers
import AbcDemo.Foundation.Evidence
import AbcDemo.Foundation.Monitor
import AbcDemo.Foundation.Solo
import AbcDemo.Worker.Obedience
import AbcDemo.Worker.Locks
import AbcDemo.Worker.Progress
import AbcDemo.Worker.Posts
import AbcDemo.Worker.Refinement
import AbcDemo.Network.Causes
import AbcDemo.Network.Nodes
import AbcDemo.Network.Provenance
import AbcDemo.Network.Posts
