import ConclaveFormal.Lib.Bytes
import ConclaveFormal.Lib.DataStream
import ConclaveFormal.Lib.Attempt
import ConclaveFormal.Mail.Protocol
import ConclaveFormal.Mail.Header
import ConclaveFormal.Mail.EncryptingStream
import ConclaveFormal.Mail.EncryptedPackets
import ConclaveFormal.Mail.DecryptingStream
import ConclaveFormal.Mail.PacketReader
import ConclaveFormal.Mail.Delivery
import ConclaveFormal.Mail.MailSize
import ConclaveFormal.Mail.Padding
import ConclaveFormal.Mail.RoundTrip
import ConclaveFormal.Mail.PostOffice
import ConclaveFormal.Mail.UserBytes
import ConclaveFormal.Mail.Containment
import ConclaveFormal.Lib.Framing
import ConclaveFormal.Mail.Authenticity
import ConclaveFormal.Mail.FailStop
import ConclaveFormal.Enclave.MailOrdering
import ConclaveFormal.Enclave.OrderingInvariant
import ConclaveFormal.Host.Transaction
import ConclaveFormal.Lib.Codec
import ConclaveFormal.Mail.StateIdHeader
import ConclaveFormal.Enclave.SealedState
import ConclaveFormal.Client.EnclaveClient
import ConclaveFormal.Enclave.ReceiveContext
import ConclaveFormal.Client.AdversarialHost
import ConclaveFormal.Client.RollbackDetection
import ConclaveFormal.Host.HonestHost
import ConclaveFormal.Host.RollbackAlarms
import ConclaveFormal.Attestation.JsonTypes
import ConclaveFormal.Attestation.QuoteVerifier
import ConclaveFormal.Enclave.MailConsumption
import ConclaveFormal.Lib.Decimal
import ConclaveFormal.Common.EnclaveConstraint
import ConclaveFormal.Client.Lifecycle
import ConclaveFormal.Client.SavedState
import ConclaveFormal.Client.FailedStart
import ConclaveFormal.Client.SequenceAgreement
import ConclaveFormal.Filesystem.PersistentDisk
import ConclaveFormal.Filesystem.ReadAfterWrite
import ConclaveFormal.Filesystem.InitialisationVectors
import ConclaveFormal.Calls.CallInterface
import ConclaveFormal.Calls.NativeFrames
import ConclaveFormal.Calls.SocketMessage
import ConclaveFormal.Calls.SocketProtocol
import ConclaveFormal.Calls.SocketReplies
import ConclaveFormal.Calls.SocketLostCalls
import ConclaveFormal.Calls.Sanitising
import ConclaveFormal.Lib.OrderedMap
import ConclaveFormal.Memory.MemoryManager
import ConclaveFormal.Memory.PageModel
import ConclaveFormal.Memory.ManagerRuns
import ConclaveFormal.Memory.Allocations
import ConclaveFormal.Memory.Frees
import ConclaveFormal.Filesystem.FileManager
import ConclaveFormal.Filesystem.HandleTables
import ConclaveFormal.Filesystem.RenameGuard
import ConclaveFormal.Filesystem.Descriptors
import ConclaveFormal.Lib.Utf8
import ConclaveFormal.Lib.ByteBuffer
import ConclaveFormal.Enclave.SealedBlob
import ConclaveFormal.Lib.LockedStacks
import ConclaveFormal.Enclave.Handlers
import ConclaveFormal.Enclave.HandlerSteps
import ConclaveFormal.Enclave.HandlerInvariant
import ConclaveFormal.Enclave.PendingMail
import ConclaveFormal.Enclave.PostOffices
import ConclaveFormal.Enclave.Quiescence
import ConclaveFormal.Enclave.StartFailure
import ConclaveFormal.Lib.Struct
import ConclaveFormal.Attestation.SgxTypes
import ConclaveFormal.Attestation.Attestation
import ConclaveFormal.Attestation.EnclaveInstanceInfo
import ConclaveFormal.Common.MailKeyDerivation
import ConclaveFormal.Common.KeyDerivationHeader
import ConclaveFormal.Enclave.KdsPrivateKey
import ConclaveFormal.Host.KdsCache
import ConclaveFormal.Host.ClientInbox
import ConclaveFormal.Host.CommandsCallback
import ConclaveFormal.Host.CallbackSteps
import ConclaveFormal.Host.SerialCallbacks
import ConclaveFormal.Lib.Der
import ConclaveFormal.Lib.Fallible
import ConclaveFormal.Lib.FirstMatch
import ConclaveFormal.Common.SGXExtensionASN1Parser
import ConclaveFormal.Common.SGXExtensionSafety
import ConclaveFormal.Common.SGXExtension
import ConclaveFormal.Attestation.EnclaveReport
import ConclaveFormal.Attestation.TcbEvaluation
import ConclaveFormal.Lib.JobQueue
import ConclaveFormal.Threads.EnclaveThread
import ConclaveFormal.Threads.ThreadInvariant
import ConclaveFormal.Threads.JoinState
import ConclaveFormal.Threads.StartStatus
import ConclaveFormal.Threads.FactoryShutdown
import ConclaveFormal.Calls.UserCalls
import ConclaveFormal.Calls.CallDiscipline
import ConclaveFormal.Common.ConstraintText
import ConclaveFormal.Enclave.PersistencePolicy
import ConclaveFormal.Enclave.KdsPersistenceKey
import ConclaveFormal.Common.ThrowableDeserialisation
import ConclaveFormal.Lib.Cycles
import ConclaveFormal.Common.ThrowableSizes
import ConclaveFormal.Common.ThrowableGraph
import ConclaveFormal.Filesystem.HandleRanges
import ConclaveFormal.Filesystem.SectorShuffling
import ConclaveFormal.Filesystem.HandleAllocation
import ConclaveFormal.Filesystem.DriveRegistry
import ConclaveFormal.Filesystem.InMemoryDisk
import ConclaveFormal.Lib.PathResolution
import ConclaveFormal.Filesystem.PathRouting
import ConclaveFormal.Lib.Frame
import ConclaveFormal.Filesystem.DirectoryStreams
import ConclaveFormal.Filesystem.FileObject
import ConclaveFormal.Filesystem.OpenFiles
import ConclaveFormal.Filesystem.Positions
import ConclaveFormal.Filesystem.BadDescriptors
import ConclaveFormal.Enclave.TrustedTime
import ConclaveFormal.Mail.MinSizePolicy
import ConclaveFormal.Lib.BufferView
import ConclaveFormal.Common.Encoder
import ConclaveFormal.Common.StructTypes
import ConclaveFormal.Common.StructEncodings
import ConclaveFormal.Common.Cursor
import ConclaveFormal.Common.StructViews
import ConclaveFormal.Attestation.QuoteStructs
import ConclaveFormal.Lib.Mutex
import ConclaveFormal.Filesystem.FileOperations
import ConclaveFormal.Filesystem.LockDiscipline
import ConclaveFormal.Lib.Limbs
import ConclaveFormal.Lib.LittleEndian
import ConclaveFormal.NoiseCrypto.ChaChaCore
import ConclaveFormal.NoiseCrypto.Poly1305
import ConclaveFormal.NoiseCrypto.Poly1305Polynomial
import ConclaveFormal.NoiseProtocol.Algorithms
import ConclaveFormal.NoiseProtocol.ChaChaPoly
import ConclaveFormal.NoiseProtocol.CipherState
import ConclaveFormal.NoiseProtocol.SymmetricState
import ConclaveFormal.NoiseProtocol.Pattern
import ConclaveFormal.NoiseProtocol.HandshakeState
import ConclaveFormal.NoiseProtocol.Readiness
import ConclaveFormal.NoiseProtocol.Agreement
import ConclaveFormal.NoiseProtocol.Messages
import ConclaveFormal.NoiseProtocol.Start
import ConclaveFormal.NoiseProtocol.Preparation
import ConclaveFormal.NoiseProtocol.Conversation
import ConclaveFormal.NoiseProtocol.Transport
import ConclaveFormal.NoiseProtocol.Fallback
import ConclaveFormal.Mail.NoiseX
import ConclaveFormal.Lib.HashChain
import ConclaveFormal.NoiseProtocol.Absorption
import ConclaveFormal.NoiseProtocol.Calls
import ConclaveFormal.NoiseProtocol.Transcript
import ConclaveFormal.Filesystem.FatChains
import ConclaveFormal.NoiseCrypto.Blake2
import ConclaveFormal.NoiseCrypto.Sha2
import ConclaveFormal.NoiseProtocol.Hashing
