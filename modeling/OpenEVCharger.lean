import OpenEVCharger.Safety.Thermal
import OpenEVCharger.Ui.IoTask
import OpenEVCharger.Safety.FirstRaised
import OpenEVCharger.Safety.Sessions
import OpenEVCharger.Safety.AcAbsent
import OpenEVCharger.Safety.Authorization
import OpenEVCharger.Safety.DerateStart
import OpenEVCharger.Safety.Dwell
import OpenEVCharger.Companion.ConfigRoundTrip
import OpenEVCharger.Companion.Transports
import OpenEVCharger.Companion.WebBody
import OpenEVCharger.Safety.Pause
import OpenEVCharger.Comms.Fc41d
import OpenEVCharger.Safety.Replug
import OpenEVCharger.Companion.MqttClient
import OpenEVCharger.Persist.BootConfig
import OpenEVCharger.Persist.OtaChunks
import OpenEVCharger.Companion.Telemetry
import OpenEVCharger.Companion.Meter
import OpenEVCharger.Core.RfidStream
import OpenEVCharger.Core.History
import OpenEVCharger.Persist.Setters
import OpenEVCharger.Persist.Interrupted
import OpenEVCharger.Persist.CrashLoop
import OpenEVCharger.Persist.Lifetime
import OpenEVCharger.Persist.CpSlope
import OpenEVCharger.Persist.AuthlistChanges
import OpenEVCharger.Persist.FaultLog
import OpenEVCharger.Persist.RingReadback
import OpenEVCharger.Comms.Receiver
import OpenEVCharger.Persist.FlashMap
import OpenEVCharger.Persist.BootCount
import OpenEVCharger.Ota.Pending
import OpenEVCharger.Ota.PowerLoss
import OpenEVCharger.Ota.Link
import OpenEVCharger.Companion.CardReader
import OpenEVCharger.Companion.CardStream
import OpenEVCharger.Lib.RingBuffer
import OpenEVCharger.Hal.RxRing
import OpenEVCharger.Hal.Printk
import OpenEVCharger.Hal.PrintkLine
import OpenEVCharger.Companion.PilotAdc
import OpenEVCharger.Core.RfidEdges
import OpenEVCharger.Companion.WebBase64
import OpenEVCharger.Companion.WebForm
import OpenEVCharger.Companion.MqttPublish
import OpenEVCharger.Companion.MeterPublish
import OpenEVCharger.Safety.WeldSettle
import OpenEVCharger.Comms.Resync
import OpenEVCharger.Companion.ConfigJson
import OpenEVCharger.Companion.JsonBodies
import OpenEVCharger.Companion.LogJson
import OpenEVCharger.Companion.Discovery
import OpenEVCharger.Companion.JsonEmitted
import OpenEVCharger.Companion.WebRollback
import OpenEVCharger.Lib.Json
import OpenEVCharger.Lib.JsonDoc
import OpenEVCharger.Comms.Requests
import OpenEVCharger.Comms.Events
import OpenEVCharger.Tasks.Reports
import OpenEVCharger.Tasks.Enrolment
import OpenEVCharger.Tasks.Flash
import OpenEVCharger.Tasks.Restart
