import Interconnect.NameTable.Session
import Interconnect.Main
import Interconnect.Proofs.Check.Readers
import Interconnect.Proofs.Check.Supply
import Interconnect.Proofs.Check.Masking
import Interconnect.Proofs.Resolution.Denotation
import Interconnect.Proofs.Check.Lifting
import Interconnect.Proofs.Component.Place
import Interconnect.Proofs.Expansion.Subtrees
import Interconnect.Proofs.Resolution.Template
import Interconnect.Proofs.Design.Soundness
import Interconnect.Proofs.Design.FirstDefect
import Interconnect.Proofs.Design.Numbering
import Interconnect.Proofs.Check.Locality
import Interconnect.Proofs.Check.Levels
import Interconnect.Proofs.Run.Outcome
import Interconnect.Proofs.Resolution.Capture
import Interconnect.Proofs.Resolution.Direction
import Interconnect.Proofs.Run.Selection
import Interconnect.Proofs.Expansion.Preorder
import Interconnect.Proofs.Expansion.FullName
import Interconnect.Proofs.NameTable.Lookup
import Interconnect.Proofs.Toml.Places
import Interconnect.Proofs.Manifest.Places
import Interconnect.Proofs.Run.Labels
import Interconnect.Proofs.Manifest.Constants
import Interconnect.Proofs.Connector.Memory
