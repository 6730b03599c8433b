import Tpmkit.CheckedProgram
import Tpmkit.ByteBitmap
import Tpmkit.AscendingSet
import Tpmkit.ByteStrings
import Tpmkit.HashAlgorithm
import Tpmkit.PcrValues
import Tpmkit.TssTypes
import Tpmkit.PcrMarshalling
import Tpmkit.PcrValidation
import Tpmkit.SelectionCodec
import Tpmkit.ResponseParsers
import Tpmkit.DigestCodec
import Tpmkit.RequestEncoding
import Tpmkit.LogRecords
import Tpmkit.ErrorTranslation
import Tpmkit.EsysWorld
import Tpmkit.EsysPcrProvider
import Tpmkit.ProviderRuns
import Tpmkit.PcrReadRefinement
import Tpmkit.StrongSafety
import Tpmkit.DispatchFidelity
import Tpmkit.CallSeries
import Tpmkit.ProviderExchange
import Tpmkit.ObserverFidelity
import Tpmkit.PreparedRequests
import Tpmkit.AlgorithmGate
import Tpmkit.LogSecrecy
import Tpmkit.TctiLoader
import Tpmkit.TpmContext
import Tpmkit.ContextRuns
import Tpmkit.OwnedTctiDisposal
import Tpmkit.Attempts
import Tpmkit.ContextCreation
import Tpmkit.CreationProtocol
import Tpmkit.CreationSecrecy
import Tpmkit.ErrorCategories
import Tpmkit.FailureRecords
import Tpmkit.UniqueOwnership
import Tpmkit.ContextLifecycle
import Tpmkit.PageLocks
import Tpmkit.SecretBuffer
import Tpmkit.SecretWiping
import Tpmkit.FifoHistory
import Tpmkit.FakeTcti
import Tpmkit.ScriptedDelivery
import Tpmkit.FixedDigits
import Tpmkit.ReturnCodes
import Tpmkit.BackendDescriptions
import Tpmkit.CivilTime
import Tpmkit.CleanLines
import Tpmkit.DigestObjects
import Tpmkit.EventDigests
import Tpmkit.FakeTpmContext
import Tpmkit.IndexRange
import Tpmkit.SpdlogLogger
import Tpmkit.ExtendRegisters
import Tpmkit.MeasuringTpm
import Tpmkit.MeasurementReplay
import Tpmkit.ContextSessions
import Tpmkit.OwnedSessions
import Tpmkit.ClientSessions
import Tpmkit.ConcurrentLogging
import Tpmkit.RecordingLogger
import Tpmkit.LendingLedger
import Tpmkit.ResponseBuffers
import Tpmkit.BankScans
import Tpmkit.DebugPrograms
