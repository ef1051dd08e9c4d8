import KartFirmware.Mealy
import KartFirmware.RateLimit
import KartFirmware.RateArrival
import KartFirmware.RateOrder
import KartFirmware.RadialMap
import KartFirmware.Edges
import KartFirmware.RingIndex
import KartFirmware.LittleEndian
import KartFirmware.ByteReader
import KartFirmware.PbDecode
import KartFirmware.PbWire
import KartFirmware.PbMessage
import KartFirmware.NorFlash
import KartFirmware.CFloat
import KartFirmware.ControlTypes
import KartFirmware.ConfigParams
import KartFirmware.ControlMath
import KartFirmware.ControllerCore
import KartFirmware.Arming
import KartFirmware.ArmingPress
import KartFirmware.DeadMan
import KartFirmware.ExactControl
import KartFirmware.Symmetry
import KartFirmware.RampLimits
import KartFirmware.CachedPort
import KartFirmware.Hardware
import KartFirmware.RampArrival
import KartFirmware.Binary32
import KartFirmware.Binary32Int
import KartFirmware.Binary32Grid
import KartFirmware.Binary32Eq
import KartFirmware.ConfigClamp
import KartFirmware.Config
import KartFirmware.Saturation
import KartFirmware.MixFallback
import KartFirmware.ConfigRoundTrip
import KartFirmware.Input
import KartFirmware.Status
import KartFirmware.EvLog
import KartFirmware.EventRing
import KartFirmware.EvFlash
import KartFirmware.NorDriver
import KartFirmware.Recovery
import KartFirmware.FlashFaults
import KartFirmware.Controller
import KartFirmware.ArmingEvents
import KartFirmware.Ota
import KartFirmware.Collection
import KartFirmware.CollectionSteps
import KartFirmware.WebServer
import KartFirmware.ArmedDevice
import KartFirmware.DeviceLog
import KartFirmware.PbRequest
import KartFirmware.RequestRange
import KartFirmware.StickResponse
import KartFirmware.SquareMap
import KartFirmware.StickArith
import KartFirmware.StickScale
import KartFirmware.Varint
import KartFirmware.ProtoEncode
import KartFirmware.ConfigReply
import KartFirmware.WebFrames
import KartFirmware.WifiCredentials
import KartFirmware.Strip
import KartFirmware.Leds
import KartFirmware.BootNumbers
import KartFirmware.EvlogReply
import KartFirmware.TornRecords
import KartFirmware.Haptics
import KartFirmware.RumbleRelay
import KartFirmware.LinkQuality
import KartFirmware.StationRetry
import KartFirmware.Vehicle
import KartFirmware.Rollover
import KartFirmware.Simulation
import KartFirmware.Mirror
import KartFirmware.MirrorRun
import KartFirmware.CInt
import KartFirmware.HistoryRing
import KartFirmware.HistoryChart
import KartFirmware.PbJs
import KartFirmware.PbFields
import KartFirmware.PageReplies
import KartFirmware.EvlogStats
