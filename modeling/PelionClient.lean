import PelionClient.Lib.Run
import PelionClient.Lib.Slots
import PelionClient.Lib.EventQueue
import PelionClient.Lib.Trace
import PelionClient.Beacon.Table
import PelionClient.Beacon.Allocation
import PelionClient.Beacon.Scan
import PelionClient.Beacon.Admission
import PelionClient.Beacon.Cloud
import PelionClient.Gap.Device
import PelionClient.Gap.Cycles
import PelionClient.Gap.Progress
import PelionClient.Blink.Pattern
import PelionClient.Blink.Machine
import PelionClient.Blink.InFlight
import PelionClient.Blink.Cursor
import PelionClient.Blink.Stop
import PelionClient.Platform.Setup
import PelionClient.Platform.Mounted
import PelionClient.Platform.Format
import PelionClient.Platform.Reformat
import PelionClient.App.Fcc
import PelionClient.App.Credentials
import PelionClient.App.Balance
import PelionClient.App.Recovery
import PelionClient.Client.Register
import PelionClient.Beacon.Contract
import PelionClient.Beacon.Schedule
import PelionClient.Beacon.Parsing
import PelionClient.Platform.Success
import PelionClient.Platform.Ranges
import PelionClient.Blink.Fields
import PelionClient.Blink.Playback
import PelionClient.Lib.Keyed
import PelionClient.Client.Resource
import PelionClient.Blink.Width
import PelionClient.Blink.Advance
import PelionClient.Update.Progress
import PelionClient.Gap.Chain
import PelionClient.Gap.Lifetime
import PelionClient.Beacon.View
import PelionClient.Main.ScanLoop
import PelionClient.Blink.Encode
import PelionClient.Client.Value
import PelionClient.Main.Resources
import PelionClient.Main.Exit
import PelionClient.Main.DummyLoop
import PelionClient.Update.Session
import PelionClient.Main.Ends
import PelionClient.Main.Boot
