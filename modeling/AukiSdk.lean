import AukiSdk.Authority.BrowserSafety
import AukiSdk.Authority.HonestAuthentication
import AukiSdk.Authority.HonestRotation
import AukiSdk.Authority.RevisionSafety
import AukiSdk.Authority.TokenStoreRun
import AukiSdk.Booking.Release
import AukiSdk.Booking.RenewalTiming
import AukiSdk.Coordinator.FencedCatalogSafety
import AukiSdk.Discovery.AccessibleDomainsSafety
import AukiSdk.Discovery.CanonicalRoutes
import AukiSdk.Discovery.PaginationSafety
import AukiSdk.Discovery.ProtocolGrammar
import AukiSdk.Discovery.PublishedRoutes
import AukiSdk.Discovery.PublisherRun
import AukiSdk.Domain.Multipart
import AukiSdk.Geometry.ObjMesh
import AukiSdk.Geometry.RigidMotion
import AukiSdk.Identity.DerivedChild
import AukiSdk.Identity.IdentityStore
import AukiSdk.Identity.SeedFile
import AukiSdk.Logs.Decoders
import AukiSdk.Logs.Reopen
import AukiSdk.Logs.TailFraming
import AukiSdk.Machine.StopFence
import AukiSdk.Machine.Waiters
import AukiSdk.Mappers.Persistence
import AukiSdk.Mappers.VoxelAddress
import AukiSdk.Mappers.WorkerFailure
import AukiSdk.Maps.Checkpoint
import AukiSdk.Net.SystemDns
import AukiSdk.Peer.ProtocolFence
import AukiSdk.Protocols.BlobTransfer
import AukiSdk.Protocols.CatalogWire
import AukiSdk.Protocols.MessageDelivery
import AukiSdk.Protocols.StreamDelivery
import AukiSdk.Recording.Subscription
import AukiSdk.Registry.AtomicWrite
import AukiSdk.Registry.MeshConfinement
import AukiSdk.Registry.PeerRun
import AukiSdk.Relay.ClientStamping
import AukiSdk.Relay.Fencing
import AukiSdk.Ros.CloudMeaning
import AukiSdk.Routing.StatusWatch
import AukiSdk.Tasks.AccessFence
import AukiSdk.Tasks.LeaseRun
import AukiSdk.Tasks.RobotAccess
import AukiSdk.Transport.AdmissionCacheSafety
import AukiSdk.Transport.CircuitHopOwners
import AukiSdk.Transport.CircuitHopRun
import AukiSdk.Transport.InboundFence
import AukiSdk.Transport.ObservationReplay
import AukiSdk.Transport.RelayProgress
import AukiSdk.Transport.TargetedStreamRun
import AukiSdk.Urdf.ForwardKinematics
import AukiSdk.Zitadel.Rotation
