import Classpath.Assembly
import Classpath.Command.Line
import Classpath.Command.Run
import Classpath.Main
import Classpath.Model.Stored
import Classpath.Plan.Replay
import Classpath.Proofs.Assembly.Deployment
import Classpath.Proofs.Assembly.Exclusion
import Classpath.Proofs.Assembly.Identity
import Classpath.Proofs.Assembly.Merging
import Classpath.Proofs.Key.Canonical
import Classpath.Proofs.Model.Transport
import Classpath.Proofs.Plan.Replay
import Classpath.Proofs.Document
import Classpath.Proofs.Model.Identity
import Classpath.Proofs.Toml.Order
import Classpath.Proofs.Model.Version
import Classpath.Proofs.Respelling
import Classpath.Proofs.Model.Respelling
import Classpath.Proofs.Files.Replace
import Classpath.Proofs.Plan.Deployment
import Classpath.Proofs.Command.Handoff
import Classpath.Proofs.Assembly.Versions
import Classpath.Proofs.Model.Fingerprint
import Classpath.Proofs.Plan.Roundtrip
import Classpath.Proofs.Properties.Rendering
import Classpath.Proofs.Model.SearchOrder
import Classpath.Proofs.Properties.Unicode
import Classpath.Proofs.Command.Strictness
import Classpath.Proofs.Properties.Continuation
import Classpath.Proofs.Artifact.Tokens
import Classpath.Proofs.Assembly.Batches
import Classpath.Proofs.Files.Atomic
import Classpath.Proofs.Files.Frame
import Classpath.Proofs.Failure.Wrapping
