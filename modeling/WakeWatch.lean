import WakeWatch.Support.Outcome
import WakeWatch.Support.ByteSlice
import WakeWatch.Support.Fields
import WakeWatch.Support.Utf16
import WakeWatch.Support.Utf8
import WakeWatch.Support.Text
import WakeWatch.Support.Tally
import WakeWatch.Support.Components
import WakeWatch.Support.NamedObjects
import WakeWatch.Support.Run
import WakeWatch.Power
import WakeWatch.PowerFormat
import WakeWatch.QueryProofs
import WakeWatch.ReaderProofs
import WakeWatch.DecodeProofs
import WakeWatch.PositionProofs
import WakeWatch.EncodeProofs
import WakeWatch.SnapshotProofs
import WakeWatch.DevPath
import WakeWatch.TranslateProofs
import WakeWatch.RoundTripProofs
import WakeWatch.Model
import WakeWatch.Poll
import WakeWatch.GroupingProofs
import WakeWatch.ColourProofs
import WakeWatch.TruncationProofs
import WakeWatch.SafetyProofs
import WakeWatch.DescribeProofs
import WakeWatch.PartitionProofs
import WakeWatch.OrderProofs
import WakeWatch.ComposeProofs
import WakeWatch.CollapseProofs
import WakeWatch.LabelProofs
import WakeWatch.TooltipProofs
import WakeWatch.SummaryProofs
import WakeWatch.Menu
import WakeWatch.MenuProofs
import WakeWatch.Tray
import WakeWatch.TrayProofs
import WakeWatch.SettleProofs
import WakeWatch.AutostartProofs
import WakeWatch.Task
import WakeWatch.Main
import WakeWatch.MainProofs
import WakeWatch.LastPollProofs
import WakeWatch.ReportProofs
import WakeWatch.ItemProofs
import WakeWatch.TaskProofs
import WakeWatch.PlainProofs
import WakeWatch.ThrottleProofs
import WakeWatch.FailureProofs
import WakeWatch.Single
import WakeWatch.SingleProofs
import WakeWatch.Desktop
import WakeWatch.DesktopProofs
