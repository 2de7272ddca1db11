import FrameProcessor.Foundations.Machine
import FrameProcessor.Foundations.Pool
import FrameProcessor.Foundations.Turns
import FrameProcessor.Utils.Types
import FrameProcessor.Utils.Fifo
import FrameProcessor.Utils.Simdjson
import FrameProcessor.Utils.Environment
import FrameProcessor.StreamIo.Manager
import FrameProcessor.StreamIo.Reconciliation
import FrameProcessor.StreamIo.Interference
import FrameProcessor.StreamIo.DeadReaders
import FrameProcessor.StreamIo.ReaderThreads
import FrameProcessor.ConfigManager.ApiMerge
import FrameProcessor.Foundations.Residues
import FrameProcessor.ConfigManager.Parse
import FrameProcessor.ConfigManager.Whitelist
import FrameProcessor.ConfigManager.ConfiguredIntegers
import FrameProcessor.ConfigManager.HorizontalScaling
import FrameProcessor.ConfigManager.Reload
import FrameProcessor.Utils.AVFrame
import FrameProcessor.Foundations.Teardown
import FrameProcessor.StreamIo.FilterGraph
import FrameProcessor.StreamIo.Sampling
import FrameProcessor.StreamIo.SelectInterval
import FrameProcessor.StreamIo.Connecting
import FrameProcessor.StreamIo.Pacing
import FrameProcessor.StreamIo.RetryBudget
import FrameProcessor.Worker.Processing
import FrameProcessor.Worker.Pool
import FrameProcessor.Worker.Shutdown
import FrameProcessor.Worker.Turns
import FrameProcessor.Foundations.ByteBuffer
import FrameProcessor.Foundations.Table
import FrameProcessor.Publisher.Serialization
import FrameProcessor.Publisher.RowCopies
import FrameProcessor.Publisher.PixelFormats
import FrameProcessor.Publisher.WholePicture
import FrameProcessor.Publisher.Batching
import FrameProcessor.Publisher.Partition
import FrameProcessor.Publisher.RoundTrip
import FrameProcessor.Publisher.Threads
import FrameProcessor.Publisher.Delivery
import FrameProcessor.Publisher.Shutdown
import FrameProcessor.Publisher.Conservation
import FrameProcessor.Publisher.Turns
import FrameProcessor.Publisher.SingleThread
import FrameProcessor.Core.AppLogic
import FrameProcessor.Core.Shutdown
import FrameProcessor.Core.Pipeline
import FrameProcessor.Core.FrameOrder
import FrameProcessor.Core.DisabledPublisher
import FrameProcessor.ConfigManager.StreamCap
import FrameProcessor.ConfigManager.ApiSafety
import FrameProcessor.ConfigManager.ApiFetch
import FrameProcessor.Foundations.Histories
import FrameProcessor.Foundations.Condvar
import FrameProcessor.Utils.Linearizable
import FrameProcessor.Utils.Wakeup
import FrameProcessor.Foundations.Decimals
import FrameProcessor.Worker.CacheTransparency
import FrameProcessor.Worker.ContextKeys
import FrameProcessor.Utils.FrameSaver
import FrameProcessor.Utils.DirectoryCreation
import FrameProcessor.Worker.FrameSaving
import FrameProcessor.Utils.Logger
import FrameProcessor.Core.ChangeDetection
import FrameProcessor.Foundations.Processes
import FrameProcessor.Core.Supervisor
import FrameProcessor.Core.SignalTargets
import FrameProcessor.Core.OneChild
import FrameProcessor.Foundations.Fairness
import FrameProcessor.Worker.Termination
import FrameProcessor.Publisher.Termination
import FrameProcessor.StreamIo.Termination
import FrameProcessor.StreamIo.CallsReturn
import FrameProcessor.Foundations.Ownership
import FrameProcessor.Utils.JpegEncoding
import FrameProcessor.StreamIo.GraphObjects
import FrameProcessor.StreamIo.ReaderObjects
import FrameProcessor.Utils.FilterPads
import FrameProcessor.Worker.ContextObjects
import FrameProcessor.Publisher.ConnectionObjects
import FrameProcessor.Utils.WaitProgress
import FrameProcessor.Core.ShutdownReturns
import FrameProcessor.Core.SupervisorReturns
import FrameProcessor.Core.Relaunching
import FrameProcessor.Core.ReloadSettles
import FrameProcessor.Foundations.Contributions
import FrameProcessor.Publisher.Redelivery
import FrameProcessor.Foundations.Consumers
import FrameProcessor.Core.Flow
import FrameProcessor.Core.Consumption
import FrameProcessor.Core.Arrival
import FrameProcessor.Foundations.Projection
import FrameProcessor.Core.ServicesStop
import FrameProcessor.Core.Storing
import FrameProcessor.Core.Startup
import FrameProcessor.Core.CrashLoop
