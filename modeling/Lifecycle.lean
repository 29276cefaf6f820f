import Lifecycle.Declared.Draft
import Lifecycle.Document.Assign
import Lifecycle.Main
import Lifecycle.Storage.Outage
import Lifecycle.Types.Named
import Lifecycle.Proofs.Drafts
import Lifecycle.Proofs.Foresight
import Lifecycle.Proofs.Received
import Lifecycle.Proofs.Linear
import Lifecycle.Proofs.Preserved
import Lifecycle.Proofs.Reload
import Lifecycle.Proofs.Standard.Returns
import Lifecycle.Proofs.Standard.Rounds
import Lifecycle.Proofs.Tracking
import Lifecycle.Proofs.Unsaved
import Lifecycle.Proofs.Console.Commands
import Lifecycle.Proofs.Console.Stored
import Lifecycle.Proofs.Console.Escapes
import Lifecycle.Proofs.OnDisk
import Lifecycle.Proofs.Resumption
import Lifecycle.Proofs.Retrying
import Lifecycle.Proofs.Branching
import Lifecycle.Proofs.Breakdown.Publishing
import Lifecycle.Proofs.Rejection
import Lifecycle.Proofs.Standard.Leaving
import Lifecycle.Proofs.Coherent
import Lifecycle.Proofs.Separate
import Lifecycle.Proofs.Slug
import Lifecycle.Proofs.Linked
import Lifecycle.Proofs.Lawful
import Lifecycle.Proofs.Composed
import Lifecycle.Proofs.Settings
import Lifecycle.Proofs.Naming
import Lifecycle.Proofs.Table
