import CanDfu.Bench
import CanDfu.Cli.Run
import CanDfu.Device.Faulty
import CanDfu.Main
import CanDfu.Transport.Scripted
import CanDfu.Proofs.CallHistory
import CanDfu.Proofs.Conformance
import CanDfu.Proofs.LayoutBounds
import CanDfu.Proofs.ChunkLayout
import CanDfu.Proofs.UploadParts
import CanDfu.Proofs.UploadCourse
import CanDfu.Proofs.CallDiscipline
import CanDfu.Proofs.FlashContents
import CanDfu.Proofs.SimulatedRun
import CanDfu.Proofs.SimulatedUpload
import CanDfu.Proofs.UploadOutcomes
import CanDfu.Proofs.BusProtocol
import CanDfu.Proofs.NodeOnBus
import CanDfu.Proofs.SessionRefinement
import CanDfu.Proofs.StageSteps
import CanDfu.Proofs.FirstRun
import CanDfu.Proofs.StageAgreement
import CanDfu.Proofs.CommitReports
import CanDfu.Proofs.SingleUse
import CanDfu.Proofs.AddressSafety
import CanDfu.Proofs.ProgressReports
import CanDfu.Proofs.TruthfulReports
import CanDfu.Proofs.Arrivals
import CanDfu.Proofs.HostFrameCodec
import CanDfu.Proofs.RequestFrames
import CanDfu.Proofs.LateAnswers
import CanDfu.Proofs.SentFrames
import CanDfu.Proofs.DamageWarnings
import CanDfu.Proofs.Compositional
import CanDfu.Proofs.HostExchanges
import CanDfu.Proofs.BulkTransfers
import CanDfu.Proofs.ChannelStopped
import CanDfu.Proofs.RefusedInputs
import CanDfu.Proofs.TransmitEchoes
import CanDfu.Proofs.SavedConfigs
import CanDfu.Proofs.ResponseWaits
import CanDfu.Proofs.NvmRoundTrip
import CanDfu.Proofs.ChunkWrites
import CanDfu.Proofs.SkippedChunks
import CanDfu.Proofs.LostStagings
import CanDfu.Proofs.FirstDifference
import CanDfu.Proofs.BitTimingSearch
import CanDfu.Proofs.BitTimingOverflow
import CanDfu.Proofs.RecoveryAttempts
import CanDfu.Proofs.OverriddenConfigs
import CanDfu.Proofs.ChunkIteration
import CanDfu.Proofs.StageRequests
import CanDfu.Proofs.FlashHistory
import CanDfu.Proofs.CutOff
import CanDfu.Proofs.LiveBuses
import CanDfu.Proofs.LiveHosts
