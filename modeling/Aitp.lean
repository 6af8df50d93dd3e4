import Aitp.Core.EnvelopeWire
import Aitp.Crypto.RoundTrip
import Aitp.Core.NonceStoreRuns
import Aitp.Delegation.Lookups
import Aitp.Delegation.Parity
import Aitp.Manifest.Builder
import Aitp.Crypto.Toy
import Aitp.Crypto.Backend
import Aitp.Foundation.Tickets
import Aitp.Json.RoundTrip
import Aitp.Handshake.AdmissionRuns
import Aitp.Tct.RevocationWire
import Aitp.Tct.StrictProfile
import Aitp.Transport.ReplayRuns
import Aitp.Transport.RevocationAge
import Aitp.Handshake.Completion
import Aitp.Handshake.Failure
import Aitp.Manifest.RoundTrip
import Aitp.SessionBundle.Wire
import Aitp.SessionBundle.Membership
import Aitp.Core.EnvelopeSign
import Aitp.SessionBundle.RoundTrip
import Aitp.Delegation.SelfDelegation
import Aitp.Transport.HelloHandler
import Aitp.Handshake.Facade
import Aitp.Handshake.PopMessages
import Aitp.Renewal.IssuerRuns
import Aitp.Transport.SourceIp
import Aitp.Transport.RateLimit
import Aitp.Transport.ReplayMemory
import Aitp.Transport.KeyResolution
import Aitp.Transport.KeyDiscovery
import Aitp.Transport.ManifestFetch
import Aitp.Renewal.Lifetime
import Aitp.Renewal.EffectiveGrants
import Aitp.Handshake.Issuance
import Aitp.Transport.Agreement
import Aitp.Transport.SessionRuns
import Aitp.Transport.ReplayWindows
import Aitp.Core.NonceStoreBound
import Aitp.Core.NonceStoreCapacity
import Aitp.Handshake.DenyListRuns
import Aitp.Handshake.AdmissionParity
import Aitp.Handshake.RateLimiterRuns
import Aitp.Core.DuplicateKeys
import Aitp.Crypto.CompactForm
import Aitp.Crypto.AidConstructors
import Aitp.Spiffe.ProofInput
import Aitp.Spiffe.TrustDomain
import Aitp.Spiffe.BundleOrder
import Aitp.A2a.Binding
import Aitp.Tct.Store
import Aitp.Transport.KidHint
import Aitp.Transport.NetGuard
import Aitp.Core.NonceShardRuns
import Aitp.Transport.TrustedProxy
import Aitp.Tct.Freshness
import Aitp.Transport.RsaFloor
import Aitp.Core.Ids
import Aitp.Renewal.Authority
import Aitp.Transport.WireHandshake
import Aitp.Foundation.EvictionQueue
import Aitp.Interop.EnrolledKeys
import Aitp.Interop.EnrolRuns
import Aitp.Interop.EchoRuns
import Aitp.Transport.RevocationReach
import Aitp.Renewal.ServerRuns
import Aitp.SessionBundle.Server
import Aitp.Spiffe.Peers
