import Interop.Batch
import Interop.Form.TypeForm
import Interop.Managed.TypeStore
import Interop.Proofs.Isolation
import Interop.Proofs.Requirements
import Interop.Proofs.Constructed
import Interop.Proofs.LocalNames
import Interop.Proofs.NativeNames
import Interop.Proofs.Overriding
import Interop.Proofs.Describable
import Interop.Proofs.Locality
import Interop.Proofs.FilledPatterns
import Interop.Proofs.TidyDescriptions
import Interop.Proofs.ConvertedParameters
import Interop.Proofs.CheckedCalls
import Interop.Proofs.BoxedClosures
import Interop.Proofs.Stability
import Interop.Proofs.SpokenDefaults
import Interop.Proofs.ByRefFeature
import Interop.Proofs.BothHosts
import Interop.Proofs.Convertible
import Interop.Proofs.ConventionalLayer
import Interop.Proofs.WellFormedTemplates
import Interop.Proofs.HostNames
import Interop.Proofs.Calls
import Interop.Proofs.RequestOrder
import Interop.Proofs.MissingNames
import Interop.Proofs.OverriddenTypes
import Interop.Proofs.PlaceTypes
import Interop.Proofs.ShadowedParameters
import Interop.Proofs.Crossable
import Interop.Proofs.Splicing
import Interop.Proofs.PositionalArguments
import Interop.Proofs.CutLoops
import Interop.Proofs.InjectedHoles
import Interop.Proofs.JoinedNames
import Interop.Proofs.DocumentForms
import Interop.Proofs.FreeCandidates
import Interop.Proofs.SingleHoles
import Interop.Proofs.ConversionTables
import Interop.Proofs.OverrideChains
