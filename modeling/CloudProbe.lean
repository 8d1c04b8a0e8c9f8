import CloudProbe.Daemon.GracefulExit
import CloudProbe.Daemon.ManagerErrors
import CloudProbe.Daemon.PipeWriter
import CloudProbe.Daemon.Recovery
import CloudProbe.Daemon.RingEstimate
import CloudProbe.Daemon.StrategyItems
import CloudProbe.Daemon.SyncLog
import CloudProbe.Daemon.Watched
import CloudProbe.Golib.Stats
import CloudProbe.Golib.UnixSerial
import CloudProbe.Tools.RecvSafe
import CloudProbe.Worker.Affinity
import CloudProbe.Worker.Capture
import CloudProbe.Worker.ChecksumCores
import CloudProbe.Worker.ConfigWf
import CloudProbe.Worker.Exclusion
import CloudProbe.Worker.ExtractChecked
import CloudProbe.Worker.FilterBuffer
import CloudProbe.Worker.Mempool
import CloudProbe.Worker.NicNames
import CloudProbe.Worker.NoDuplicates
import CloudProbe.Worker.OutputRuns
import CloudProbe.Worker.ParseChecked
import CloudProbe.Worker.PipelineMemory
import CloudProbe.Worker.RateBound
import CloudProbe.Worker.Reversal
import CloudProbe.Worker.Shutdown
import CloudProbe.Worker.SplitStream
import CloudProbe.Worker.UnixRecv
import CloudProbe.Worker.UnixSend
import CloudProbe.Worker.Uuid
import CloudProbe.Worker.ZmqInvariants
import CloudProbe.Worker.ZmqWire
