import GuestXml.Machine.Build
import GuestXml.Main
import GuestXml.Proofs.Command.Settings
import GuestXml.Proofs.Cursor.Queues
import GuestXml.Proofs.Document.BackingChain
import GuestXml.Proofs.Document.Depth
import GuestXml.Proofs.Document.Grammar
import GuestXml.Proofs.Document.Leftover
import GuestXml.Proofs.Document.RoundTrip
import GuestXml.Proofs.Document.Saving
import GuestXml.Proofs.Document.Text
import GuestXml.Proofs.Machine.Acceptance
import GuestXml.Proofs.Machine.Disks
import GuestXml.Proofs.Reading.Reordering
import GuestXml.Proofs.Reading.Repetition
import GuestXml.Proofs.Scalar.Law
import GuestXml.Proofs.Scalar.Uuid
import GuestXml.Proofs.Writing.Layout
