import OrmBenchmark.Lib.Lts
import OrmBenchmark.Lib.Separated
import OrmBenchmark.Ref.Executor
import OrmBenchmark.Ref.Delivery
import OrmBenchmark.Ref.Activity
import OrmBenchmark.Proofs.ExecutorPhase
import OrmBenchmark.Proofs.Protocol
import OrmBenchmark.Proofs.Csv
import OrmBenchmark.Proofs.SystemInv
import OrmBenchmark.Proofs.Idle
import OrmBenchmark.Proofs.OneRun
import OrmBenchmark.Lib.Clock
import OrmBenchmark.Proofs.Averages
import OrmBenchmark.Proofs.Background
import OrmBenchmark.Proofs.ClockToCsv
import OrmBenchmark.Ref.SQLiteCommon
import OrmBenchmark.Ref.Sqlite
import OrmBenchmark.Ref.NativeConnection
import OrmBenchmark.Proofs.NativeStatements
import OrmBenchmark.Proofs.NativeCalls
import OrmBenchmark.Proofs.NativeExecute
import OrmBenchmark.Proofs.NativeOwnership
import OrmBenchmark.Proofs.NativeLifecycle
import OrmBenchmark.Lib.TxStore
import OrmBenchmark.Ref.Android
import OrmBenchmark.Ref.Adapters
import OrmBenchmark.Proofs.Sessions
import OrmBenchmark.Proofs.Databases
import OrmBenchmark.Proofs.NoOrmStore
import OrmBenchmark.Proofs.TransactionBracket
import OrmBenchmark.Proofs.NativeResults
import OrmBenchmark.Proofs.NativeArguments
import OrmBenchmark.Proofs.AdapterContracts
import OrmBenchmark.Proofs.OrmLiteContract
import OrmBenchmark.Proofs.OnePass
import OrmBenchmark.Proofs.PassIsolation
import OrmBenchmark.Proofs.HandleBalance
import OrmBenchmark.Proofs.FailedWork
import OrmBenchmark.Lib.Progress
import OrmBenchmark.Proofs.Quiescence
import OrmBenchmark.Proofs.ResultsList
import OrmBenchmark.Proofs.Recreation
import OrmBenchmark.Proofs.SharedProcess
import OrmBenchmark.Proofs.Noninterference
import OrmBenchmark.Proofs.TaskRefinement
import OrmBenchmark.Ref.JniHelp
import OrmBenchmark.Proofs.JniHelp
import OrmBenchmark.Lib.Returning
import OrmBenchmark.Proofs.NativeCallbacks
import OrmBenchmark.Ref.NativeCallbacks
import OrmBenchmark.Proofs.NativeObjects
import OrmBenchmark.Proofs.FaultFree
import OrmBenchmark.Proofs.Recovery
import OrmBenchmark.Proofs.HelperHistory
