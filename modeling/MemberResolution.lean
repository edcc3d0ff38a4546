import MemberResolution.Main
import MemberResolution.Proofs.CacheHistory
import MemberResolution.Proofs.Containment
import MemberResolution.Proofs.ConversionProxies
import MemberResolution.Proofs.CrossReferences
import MemberResolution.Proofs.Decorations
import MemberResolution.Proofs.DepthLimit
import MemberResolution.Proofs.Dispatch
import MemberResolution.Proofs.DocumentOrder
import MemberResolution.Proofs.DocumentRoundTrip
import MemberResolution.Proofs.EmittedBodies
import MemberResolution.Proofs.ExitCode
import MemberResolution.Proofs.Failure
import MemberResolution.Proofs.FrozenTable
import MemberResolution.Proofs.IgnoredOwner
import MemberResolution.Proofs.IgnoredType
import MemberResolution.Proofs.InertProxies
import MemberResolution.Proofs.Layering
import MemberResolution.Proofs.Layout
import MemberResolution.Proofs.MessageText
import MemberResolution.Proofs.NestedNames
import MemberResolution.Proofs.OrderIndependence
import MemberResolution.Proofs.OwnedNames
import MemberResolution.Proofs.ParameterNames
import MemberResolution.Proofs.PlainProxies
import MemberResolution.Proofs.RecordedFaults
import MemberResolution.Proofs.Renames
import MemberResolution.Proofs.ReportContents
import MemberResolution.Proofs.ReportLookup
import MemberResolution.Proofs.Surroundings
