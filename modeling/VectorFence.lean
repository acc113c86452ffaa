import VectorFence.Eeprom
import VectorFence.FieldPara
import VectorFence.Lib.Ring
import VectorFence.Lib.Pager
import VectorFence.Lib.Run
import VectorFence.Lib.Interleave
import VectorFence.Lib.Segments
import VectorFence.Lib.Ends
import VectorFence.Log.Basic
import VectorFence.Log.History
import VectorFence.Log.Walk
import VectorFence.Log.Paging
import VectorFence.Log.Cursor
import VectorFence.Log.Undo
import VectorFence.Log.PageText
import VectorFence.Log.Browsers
import VectorFence.Log.PowerLoss
import VectorFence.Log.Clear
import VectorFence.Adc
import VectorFence.Alarm.Basic
import VectorFence.Device
import VectorFence.Alarm.Siren
import VectorFence.Alarm.Debounce
import VectorFence.Lcd.Basic
import VectorFence.Lcd.MainTask
import VectorFence.Lcd.Access
import VectorFence.Station
import VectorFence.Alarm.Latch
import VectorFence.Alarm.Edges
import VectorFence.Alarm.Sounding
import VectorFence.Tcp.Message
import VectorFence.Tcp.Paras
import VectorFence.Tcp.Server
import VectorFence.Tcp.Segmentation
import VectorFence.Calibration
import VectorFence.CString
import VectorFence.Iic.Basic
import VectorFence.Iic.Mutex
import VectorFence.Web.Control
import VectorFence.AutoCalibration
import VectorFence.Lcd.Editors
import VectorFence.Lcd.Editing
import VectorFence.Requests
import VectorFence.Shutdown
import VectorFence.Switches
import VectorFence.Alarm.Pins
import VectorFence.ZoneRanges
import VectorFence.Web.Address
import VectorFence.Lwip
import VectorFence.Settings
import VectorFence.Web.Network
import VectorFence.Web.Uri
import VectorFence.Web.Ssi
import VectorFence.Web.Forms
import VectorFence.Web.Insert
import VectorFence.Lcd.Commit
import VectorFence.Lcd.Cancel
import VectorFence.Lcd.Address
import VectorFence.Lcd.Reopen
import VectorFence.Lib.Layout
import VectorFence.Areas
import VectorFence.Restart
import VectorFence.Tcp.Durable
import VectorFence.Log.Accesses
import VectorFence.Web.Indices
import VectorFence.Alarm.LineOrder
import VectorFence.Alarm.Confirmed
import VectorFence.Scaling
import VectorFence.Log.FastClear
import VectorFence.Iic.Transfer
import VectorFence.Lib.Calendar
import VectorFence.Clock.Basic
import VectorFence.Clock.Tokens
import VectorFence.Clock.RoundTrip
import VectorFence.Clock.Failure
import VectorFence.Clock.Requests
import VectorFence.Lcd.DateTime
import VectorFence.Lcd.AlarmList
import VectorFence.Log.Growing
import VectorFence.Lib.Memory
import VectorFence.Tcp.Receive
import VectorFence.Lcd.LineTables
import VectorFence.Lcd.Buffers
import VectorFence.Lcd.Limits
import VectorFence.Lcd.Printing
import VectorFence.Log.Race
import VectorFence.Log.Turns
import VectorFence.Log.Overlap
import VectorFence.Log.RaceEnds
import VectorFence.Lib.Weave
import VectorFence.Lib.Slots
import VectorFence.Web.Files
import VectorFence.Web.Send
import VectorFence.Web.Tags
import VectorFence.Web.Request
import VectorFence.Web.Served
import VectorFence.Web.Delivery
import VectorFence.Web.Connections
import VectorFence.Web.Pbufs
import VectorFence.Lib.Blocks
import VectorFence.Malloc
import VectorFence.Lib.TwoWire
import VectorFence.Iic.Pins
import VectorFence.Iic.Chip
import VectorFence.Iic.Wired
import VectorFence.Lib.Handover
import VectorFence.Ethernet.Receive
import VectorFence.Ethernet.Transmit
import VectorFence.Lib.Bitmap
import VectorFence.Lib.Fifo
import VectorFence.Os.Delivery
import VectorFence.Os.Ticks
import VectorFence.Lib.Delta
import VectorFence.Os.Timers
