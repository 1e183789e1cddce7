import Eece315.HeapChain
import Eece315.DispatcherQueue
import Eece315.DispatcherQueueFifo
import Eece315.DispatcherPushback
import Eece315.SegmentTable
import Eece315.DispatcherResources
import Eece315.DispatcherGrants
import Eece315.DispatcherFirstFit
import Eece315.DispatcherSystem
import Eece315.DispatcherAbstract
import Eece315.DispatcherRuns
import Eece315.DispatcherLedger
import Eece315.DispatcherLoss
import Eece315.DispatcherClasses
import Eece315.DispatcherSelection
import Eece315.DispatcherOwnership
import Eece315.DispatcherOwnershipRuns
import Eece315.SingleProcessor
import Eece315.DispatcherRuntime
import Eece315.DispatcherGlobals
import Eece315.DispatcherFile
import Eece315.DispatcherLines
import Eece315.DispatcherReachable
import Eece315.DispatcherShapes
import Eece315.DispatcherShutdown
import Eece315.DispatcherMemory
import Eece315.DispatcherTime
import Eece315.DispatcherCompletion
import Eece315.Sieve
import Eece315.DispatcherOffers
import Eece315.DispatcherRollback
import Eece315.DispatcherSlices
import Eece315.DispatcherStarvation
import Eece315.AgedTable
import Eece315.PagerSystem
import Eece315.PagerHistory
import Eece315.PagerCoherence
import Eece315.PagerWindows
import Eece315.PagerAddresses
import Eece315.StepRuns
import Eece315.PagerThreads
import Eece315.PagerIntegrity
import Eece315.Blocks
import Eece315.PagerMemory
import Eece315.PagerFaults
import Eece315.PagerShortStore
import Eece315.LockPrograms
import Eece315.PhilosophersBasic
import Eece315.PhilosophersAnimated
import Eece315.PhilosophersHistory
import Eece315.ForkJoin
import Eece315.SudokuGrid
import Eece315.SudokuChecker
import Eece315.SudokuGenerator
import Eece315.SudokuSymmetry
import Eece315.SudokuRemoval
import Eece315.SudokuBounds
import Eece315.Words
import Eece315.Numerals
import Eece315.Lines
import Eece315.ShellCommand
import Eece315.ShellGrammar
import Eece315.ShellDispatch
import Eece315.ShellLookup
import Eece315.ShellBuffers
import Eece315.ShellNames
import Eece315.ShellStdin
import Eece315.ShellStream
import Eece315.ShellChildren
import Eece315.CallPrograms
import Eece315.SocketsPrograms
import Eece315.SocketsCleanup
import Eece315.SocketsSession
import Eece315.SocketsBuffers
import Eece315.MonitorFiles
import Eece315.Descriptors
import Eece315.ShellOutput
import Eece315.ShellTerminal
import Eece315.ShellSessions
import Eece315.ShellStdout
import Eece315.PipesPrograms
import Eece315.PipesMoves
import Eece315.PipesSession
import Eece315.PipesCompletion
