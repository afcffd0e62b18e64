import PeerTrust.Handshake
import PeerTrust.Main
import PeerTrust.Proofs.Results
import PeerTrust.Proofs.Path
import PeerTrust.Proofs.PeerAcceptance
import PeerTrust.Proofs.Der
import PeerTrust.Proofs.OcspAcceptance
import PeerTrust.Proofs.SourceOrder
import PeerTrust.Proofs.CacheContents
import PeerTrust.Proofs.CrlAcceptance
import PeerTrust.Proofs.Evidence
import PeerTrust.Proofs.AnswerLog
import PeerTrust.Proofs.Threads
import PeerTrust.Proofs.OcspThreads
import PeerTrust.Proofs.KeptAnswers
import PeerTrust.Proofs.CrlThreads
import PeerTrust.Proofs.KeptCrls
import PeerTrust.Proofs.Serials
import PeerTrust.Proofs.CrlsAtHand
import PeerTrust.Proofs.PemBlocks
import PeerTrust.Proofs.CrlFiles
import PeerTrust.Proofs.ListedNumbers
import PeerTrust.Proofs.CrlScope
import PeerTrust.Proofs.PathCompleteness
import PeerTrust.Proofs.PeerTraffic
import PeerTrust.Proofs.CrlTransparency
import PeerTrust.Proofs.StoreBlocks
import PeerTrust.Proofs.SealedContainers
import PeerTrust.Proofs.SealedStores
import PeerTrust.Proofs.TrustAnchors
import PeerTrust.Proofs.StapleConfinement
import PeerTrust.Proofs.HandshakeAgreement
import PeerTrust.Proofs.Eviction
import PeerTrust.Proofs.PathSoundness
import PeerTrust.Proofs.Loading
import PeerTrust.Proofs.Construction
import PeerTrust.Proofs.CalendarTimes
import PeerTrust.Proofs.Instants
import PeerTrust.Proofs.AnswerLifetime
import PeerTrust.Proofs.ResponderTurns
import PeerTrust.Proofs.CrlAgreement
import PeerTrust.Proofs.KeyDerivation
import PeerTrust.Proofs.IdentitySelection
import PeerTrust.Proofs.DelegateCandidates
import PeerTrust.Proofs.JsonTexts
import PeerTrust.Proofs.Configuration
import PeerTrust.Proofs.DerReaders
import PeerTrust.Proofs.OcspRequests
import PeerTrust.Proofs.PathOrder
import PeerTrust.Proofs.Fetches
import PeerTrust.Proofs.AddressTexts
import PeerTrust.Proofs.Hosts
import PeerTrust.Proofs.RequestTargets
import PeerTrust.Proofs.Looks
import PeerTrust.Proofs.Accounting
