import RezSdk.Core.LTS
import RezSdk.Core.Proc
import RezSdk.Core.Monitor
import RezSdk.Core.Pool
import RezSdk.Core.Solo
import RezSdk.Core.Object
import RezSdk.L1Records.Basic
import RezSdk.L1Records.Records
import RezSdk.L1Records.DeviceSets
import RezSdk.L1Records.Messages
import RezSdk.Core.PromiseLock
import RezSdk.L2Storage.Machine
import RezSdk.L2Storage.Stores
import RezSdk.L2Storage.SessionIndex
import RezSdk.L3Service.DeviceSessions
import RezSdk.L3Service.Commit
import RezSdk.L3Service.Messages
import RezSdk.L3Service.AccountKeys
import RezSdk.L3Service.Invites
import RezSdk.L3Service.Handshake
import RezSdk.L3Service.Relationships
import RezSdk.L4Runs.CommitDurability
import RezSdk.L3Service.Calls
import RezSdk.L3Service.Counting
import RezSdk.L3Service.DeviceSets
import RezSdk.L3Service.Footprints
import RezSdk.L3Service.Refusals
import RezSdk.L3Service.Alone
import RezSdk.L3Service.Blocks
import RezSdk.Core.Lineage
import RezSdk.L4Runs.Ratchet
import RezSdk.L4Runs.LegacyRatchet
import RezSdk.L4Runs.Mutex
import RezSdk.L4Runs.DeviceCalls
import RezSdk.L4Runs.DeviceRatchet
import RezSdk.L4Runs.InviteCalls
import RezSdk.L4Runs.InviteLimit
import RezSdk.L4Runs.DecryptCalls
import RezSdk.L4Runs.DecryptLoss
import RezSdk.L4Runs.Filing
import RezSdk.L4Runs.AckNonce
import RezSdk.L4Runs.RejectRace
import RezSdk.L4Runs.LinkPeers
import RezSdk.L4Runs.HandshakeAuth
import RezSdk.L4Runs.PreKeys
import RezSdk.L4Runs.Reestablish
import RezSdk.L4Runs.AckSession
import RezSdk.L4Runs.HandshakeAlone
import RezSdk.L4Runs.Refusal
import RezSdk.L4Runs.Redelivery
import RezSdk.L4Runs.SessionCalls
import RezSdk.L4Runs.SessionHomes
import RezSdk.L4Runs.TrialFrame
import RezSdk.L4Runs.DhRotation
import RezSdk.L4Runs.NestedLocks
import RezSdk.L4Runs.SetFloor
import RezSdk.L4Runs.InitiatorHandshakes
import RezSdk.L4Runs.PreKeyWindow
import RezSdk.L4Runs.ResponderPreKey
import RezSdk.L4Runs.Windows
import RezSdk.L4Runs.EventLog
import RezSdk.L4Runs.LinkStore
import RezSdk.L4Runs.DeviceRecords
import RezSdk.L4Runs.IdentityKeys
import RezSdk.L3Service.DeviceLinkApprover
import RezSdk.L4Runs.RegistrationFirst
import RezSdk.L4Runs.CeremonyEnd
import RezSdk.L4Runs.SingleUse
import RezSdk.L1Records.Json
import RezSdk.L3Service.InboundFrames
import RezSdk.L4Runs.Dedupe
import RezSdk.Core.OrderedMap
import RezSdk.L2Storage.InboxClaimStore
import RezSdk.L4Runs.ClaimShape
import RezSdk.L4Runs.ClaimWrites
import RezSdk.L4Runs.ClaimDurability
import RezSdk.L4Runs.ClaimLineage
import RezSdk.L4Runs.ClaimCalls
import RezSdk.L3Service.UplinkPool
import RezSdk.L4Runs.UplinkCalls
import RezSdk.L4Runs.UplinkMoves
import RezSdk.L4Runs.UplinkSessions
import RezSdk.L4Runs.UplinkHandshakes
import RezSdk.L4Runs.UplinkClose
import RezSdk.L4Runs.UplinkRefusal
import RezSdk.L4Runs.UplinkQuiescent
import RezSdk.L3Service.TransportFrames
import RezSdk.L2Storage.IndexedDb
import RezSdk.L4Runs.OwnerStores
import RezSdk.L2Storage.IndexedDbTransactions
import RezSdk.L4Runs.AckedWrites
import RezSdk.L3Service.ConnectionStateMachine
import RezSdk.L4Runs.StrayReconnects
import RezSdk.L3Service.FileTransfers
import RezSdk.Core.Script
import RezSdk.L4Runs.TransferCalls
import RezSdk.L4Runs.Attribution
import RezSdk.L4Runs.TransferOnce
import RezSdk.L3Service.AuthStateMachine
import RezSdk.L4Runs.AuthSigning
import RezSdk.L3Service.RequestTable
import RezSdk.L3Service.WsTransport
import RezSdk.L3Service.TcpTransport
import RezSdk.L4Runs.RequestSettlement
import RezSdk.L4Runs.Listening
import RezSdk.L4Runs.AuthorityBinding
import RezSdk.Core.Outcomes
import RezSdk.L4Runs.SetOpening
import RezSdk.L2Storage.EventPages
import RezSdk.L4Runs.EventPaging
import RezSdk.Core.Framing
import RezSdk.L3Service.FrameCodec
import RezSdk.L4Runs.TcpFraming
import RezSdk.L4Runs.FailedApproval
import RezSdk.L3Service.Mutexes
import RezSdk.L4Runs.LockChains
import RezSdk.L4Runs.RequestAttempts
import RezSdk.L4Runs.InviteBytes
import RezSdk.L4Runs.SetPublishing
import RezSdk.L4Runs.LinkAgreement
import RezSdk.L4Runs.HandshakeAgreement
import RezSdk.L4Runs.AuthorityStates
import RezSdk.L3Service.IssuedInvites
import RezSdk.L4Runs.InviteAcceptance
