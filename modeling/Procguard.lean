import Procguard.Retry
import Procguard.Process
import Procguard.ThrottleControl
import Procguard.WaitRules
import Procguard.Timing
import Procguard.Verdict
import Procguard.Ledger
import Procguard.Supervision
import Procguard.Guarantees
import Procguard.Completion
import Procguard.RetryLoop
import Procguard.Grace
import Procguard.Registration
import Procguard.Passthrough
import Procguard.Descriptors
import Procguard.PipeContract
import Procguard.Aliasing
import Procguard.Duration
import Procguard.Options
import Procguard.Operands
import Procguard.Values
import Procguard.Resolve
import Procguard.EnvFallback
import Procguard.Json
import Procguard.Report
import Procguard.ReportRules
import Procguard.Main
import Procguard.Decimal
import Procguard.DurationRules
import Procguard.MainRules
import Procguard.Output
import Procguard.Quiet
import Procguard.LimitRules
import Procguard.Forked
import Procguard.ThrottleBudget
import Procguard.Backoff
import Procguard.Expansion
import Procguard.HookRules
import Procguard.Spellings
import Procguard.FileWait
import Procguard.CommandOrigin
import Procguard.Separator
import Procguard.ExecFailure
import Procguard.ZeroLimits
import Procguard.AtomicOnce
import Procguard.Interrupts
import Procguard.SignalPipe
import Procguard.SignalNames
import Procguard.WallClock
import Procguard.KqueueRelease
import Procguard.StdinErrors
import Procguard.ByteText
import Procguard.ByteArgs
import Procguard.Household
import Procguard.OwnProcesses
import Procguard.Handler
import Procguard.Launch
import Procguard.Duties
import Procguard.Pacing
import Procguard.ZeroTimeout
import Procguard.CommandLine
import Procguard.HookOrder
import Procguard.Format
import Procguard.ReportReader
import Procguard.LittleEndian
import Procguard.RusageBuffer
import Procguard.SpawnAttrs
import Procguard.RetryPause
