import TuyaBle.Lib.Run
import TuyaBle.Lib.Ranking
import TuyaBle.Lib.Dict
import TuyaBle.Protocol.Frame
import TuyaBle.Protocol.Reassembler
import TuyaBle.Commands.DataPoints
import TuyaBle.Commands.DataPointGrammar
import TuyaBle.Commands.Handshake
import TuyaBle.Commands.TimeReply
import TuyaBle.Commands.TimedReport
import TuyaBle.Protocol.Reassembly
import TuyaBle.Protocol.Fragmentation
import TuyaBle.Protocol.Loss
import TuyaBle.Protocol.FrameRoundTrip
import TuyaBle.Protocol.FrameGrammar
import TuyaBle.Protocol.Checksum
import TuyaBle.Client.State
import TuyaBle.Client.Notification
import TuyaBle.Client.Session
import TuyaBle.Client.Machine
import TuyaBle.FakeDevice.Recording
import TuyaBle.FakeDevice
import TuyaBle.Client.Numbering
import TuyaBle.Client.Keying
import TuyaBle.Lib.History
import TuyaBle.Client.Matching
import TuyaBle.Client.Discipline
import TuyaBle.Client.Teardown
import TuyaBle.Client.ClosingLink
import TuyaBle.Client.Writes
import TuyaBle.Client.Progress
import TuyaBle.Client.Failures
import TuyaBle.Client.Reports
import TuyaBle.Client.Handling
import TuyaBle.Client.Release
import TuyaBle.Client.Replies
import TuyaBle.Client.Classification
import TuyaBle.Cloud.Rejections
import TuyaBle.Cloud.Client
import TuyaBle.Protocol.VarintCodec
import TuyaBle.Commands.TimestampGrammar
import TuyaBle.Commands.LocalClock
import TuyaBle.Cli
import TuyaBle.Cli.ReadCommand
import TuyaBle.Cloud.Tasks
import TuyaBle.Cloud.Isolation
import TuyaBle.Cloud.Sessions
import TuyaBle.Cloud.Served
import TuyaBle.Cli.Credentials
import TuyaBle.Cloud.SignString
import TuyaBle.Cloud.Devices
import TuyaBle.FakeDevice.FakeBleakClient
import TuyaBle.System
import TuyaBle.System.Stages
import TuyaBle.System.Joint
import TuyaBle.System.Steps
import TuyaBle.System.Outcome
import TuyaBle.System.Ending
