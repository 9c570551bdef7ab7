import FanatecWheel.Foundation.Words
import FanatecWheel.Foundation.ShiftRegister
import FanatecWheel.Foundation.Trace
import FanatecWheel.Foundation.DoubleBuffer
import FanatecWheel.Foundation.Queue
import FanatecWheel.Foundation.TwoWire
import FanatecWheel.Foundation.Counter
import FanatecWheel.Foundation.ByteOrder
import FanatecWheel.Foundation.RingLog
import FanatecWheel.Foundation.Delayable
import FanatecWheel.Foundation.Pattern
import FanatecWheel.Foundation.Signal
import FanatecWheel.Foundation.InsertionSort
import FanatecWheel.Foundation.CommonSubsequence
import FanatecWheel.Foundation.Fields
import FanatecWheel.Foundation.Extremes
import FanatecWheel.Rimlink.Crc8
import FanatecWheel.Rimlink.Frame
import FanatecWheel.Rimlink.Capture
import FanatecWheel.Properties.CaptureRing
import FanatecWheel.Rimlink.Link
import FanatecWheel.Rimlink.TxMailbox
import FanatecWheel.Properties.Transmit
import FanatecWheel.Properties.PostMortem
import FanatecWheel.Rimlink.Handoff
import FanatecWheel.Rimlink.Counters
import FanatecWheel.Properties.RxHandoff
import FanatecWheel.Host.FrameModel
import FanatecWheel.Properties.FrameCheck
import FanatecWheel.Properties.FrameCodec
import FanatecWheel.App.Boot
import FanatecWheel.Properties.BootOrder
import FanatecWheel.App.Health
import FanatecWheel.Properties.HealthTotals
import FanatecWheel.App.Printf
import FanatecWheel.App.Seg7
import FanatecWheel.App.OutputSvc
import FanatecWheel.App.Tm1637
import FanatecWheel.App.Switches
import FanatecWheel.App.Encoder
import FanatecWheel.App.Clutch
import FanatecWheel.App.RimSettings
import FanatecWheel.App.LedSvc
import FanatecWheel.App.LraSvc
import FanatecWheel.App.PowerMgr
import FanatecWheel.App.SettingsStore
import FanatecWheel.App.InputSvc
import FanatecWheel.App.CycleClock
import FanatecWheel.App.Latency
import FanatecWheel.App.LinkSpi
import FanatecWheel.App.InputShell
import FanatecWheel.BaseSim.Main
import FanatecWheel.BaseSim.IdealLink
import FanatecWheel.Properties.SimReconcile
import FanatecWheel.Properties.EncoderDelivery
import FanatecWheel.Properties.Quadrature
import FanatecWheel.Properties.DpadHysteresis
import FanatecWheel.Properties.FunkySwitch
import FanatecWheel.Properties.ClutchStages
import FanatecWheel.Properties.ClutchRange
import FanatecWheel.Properties.ClutchSafety
import FanatecWheel.Properties.ClutchEndpoints
import FanatecWheel.Properties.ComposedButtons
import FanatecWheel.Properties.ChangePublishing
import FanatecWheel.Properties.LiveInput
import FanatecWheel.Properties.WireCurrency
import FanatecWheel.Properties.LatencyPercentile
import FanatecWheel.Properties.HapticsGate
import FanatecWheel.Properties.LaunchHold
import FanatecWheel.Properties.LedConvergence
import FanatecWheel.Properties.RailSequencing
import FanatecWheel.Properties.DisplayText
import FanatecWheel.Properties.DisplayMirror
import FanatecWheel.Properties.DisplayBus
import FanatecWheel.BaseSim.Panel
import FanatecWheel.Properties.PanelRefinement
import FanatecWheel.App.OutputSide
import FanatecWheel.Properties.IsolationPosture
import FanatecWheel.App.DiagSvc
import FanatecWheel.Host.SoakRunner
import FanatecWheel.Host.StatScan
import FanatecWheel.Host.ConsoleText
import FanatecWheel.Host.RingDiff
import FanatecWheel.Host.SoakLoop
import FanatecWheel.Host.LinkStats
import FanatecWheel.Host.LaDecode
import FanatecWheel.Host.FieldActivity
import FanatecWheel.Properties.CsGap
import FanatecWheel.App.LinkThread
import FanatecWheel.Properties.LinkTransfers
import FanatecWheel.Properties.CaptureDump
import FanatecWheel.Properties.SequenceDiff
import FanatecWheel.Properties.RingReconcile
import FanatecWheel.Properties.FieldReport
import FanatecWheel.Properties.SoakVerdict
import FanatecWheel.Properties.SettingsPersistence
import FanatecWheel.App.Lifetime
import FanatecWheel.Properties.LifetimeTotals
import FanatecWheel.App.Shell
import FanatecWheel.BaseSim.Console
import FanatecWheel.BaseSim.SimThread
import FanatecWheel.Properties.SimRuns
import FanatecWheel.Properties.ShellRuns
import FanatecWheel.Properties.SoakRuns
