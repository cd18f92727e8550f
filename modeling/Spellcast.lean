import Spellcast.Main
import Spellcast.Session
import Spellcast.Session.Document
import Spellcast.Proofs.Idle
import Spellcast.Proofs.Lineage.History
import Spellcast.Proofs.Ownership.Strict
import Spellcast.Proofs.Runaway
import Spellcast.Proofs.Budget.Lockstep
import Spellcast.Proofs.Isolation
import Spellcast.Proofs.Suspension.Delay
import Spellcast.Proofs.Interrupt
import Spellcast.Proofs.Outcome
import Spellcast.Proofs.Observers.Run
import Spellcast.Proofs.Codec.Decoding
import Spellcast.Proofs.Codec.RoundTrip
import Spellcast.Proofs.Act
import Spellcast.Proofs.Accounting
import Spellcast.Proofs.Active
import Spellcast.Proofs.Standard.Contexts
import Spellcast.Proofs.Motion
import Spellcast.Proofs.Marks
import Spellcast.Proofs.Driving
import Spellcast.Proofs.CommandLine.Enrollment
import Spellcast.Proofs.CommandLine
import Spellcast.Proofs.Asking
import Spellcast.Proofs.Duplication
import Spellcast.Proofs.Log.History
import Spellcast.Proofs.Progress
import Spellcast.Proofs.Forks
import Spellcast.Proofs.Echo
import Spellcast.Proofs.Identifier.Grammar
import Spellcast.Proofs.Attachment.History
import Spellcast.Proofs.Ancestry
