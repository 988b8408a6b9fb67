import CommunicationCenter.SystemState.WireInterlock
import CommunicationCenter.HttpServer.ScheduleSafety
import CommunicationCenter.MqttBroker.Auth
import CommunicationCenter.MqttBroker.AirQuality
import CommunicationCenter.System.Interlock
import CommunicationCenter.System.Publication
import CommunicationCenter.System.ManualControl
import CommunicationCenter.System.Responsibility
import CommunicationCenter.System.ScheduleHistory
import CommunicationCenter.System.SensorReport
import CommunicationCenter.System.Uninterrupted
import CommunicationCenter.SystemState.Outages
import CommunicationCenter.System.SelectedMode
import CommunicationCenter.System.StoredSchedule
import CommunicationCenter.System.StatusReport
import CommunicationCenter.HttpServer.Fragments
import CommunicationCenter.Json.Consumption
import CommunicationCenter.HttpServer.AllOrNothing
import CommunicationCenter.System.ScheduleRoundTrip
import CommunicationCenter.System.SensorsJson
import CommunicationCenter.SystemState.Repetition
import CommunicationCenter.SystemState.FanLatch
import CommunicationCenter.SystemState.ScheduleMatch
import CommunicationCenter.System.IntermittentData
import CommunicationCenter.SystemState.TruthfulStatus
import CommunicationCenter.HttpServer.EscapedChunks
import CommunicationCenter.MqttBroker.Decoding
import CommunicationCenter.System.MalformedReports
import CommunicationCenter.System.ScheduleListing
import CommunicationCenter.HttpServer.BodyMembers
import CommunicationCenter.HttpServer.MemberSearch
import CommunicationCenter.HttpServer.ActuatorsBody
import CommunicationCenter.HttpServer.PeriodObjects
import CommunicationCenter.HttpServer.MemberOrder
import CommunicationCenter.MqttBroker.LongMessages
import CommunicationCenter.Selection.FirstMatch
import CommunicationCenter.SystemState.ScheduleOrder
import CommunicationCenter.HttpServer.ListingBuffer
import CommunicationCenter.HttpServer.StatusText
import CommunicationCenter.System.ResponseBuffers
import CommunicationCenter.Libc.Buffer
import CommunicationCenter.SystemStatus.Buffers
import CommunicationCenter.SystemStatus.BoundedTexts
import CommunicationCenter.SystemStatus.Refinement
import CommunicationCenter.Bitmap.Pages
import CommunicationCenter.Bitmap.Painting
import CommunicationCenter.OledStatus.Glyphs
import CommunicationCenter.OledStatus.Drawing
import CommunicationCenter.Trie.Tree
import CommunicationCenter.Trie.Forest
import CommunicationCenter.Wildcard.Matching
import CommunicationCenter.Mosquitto.Topics
import CommunicationCenter.Mosquitto.TopicMatch
import CommunicationCenter.Mosquitto.Security
import CommunicationCenter.Mosquitto.Subs
import CommunicationCenter.Mosquitto.SubSearch
import CommunicationCenter.Mosquitto.SubTrees
import CommunicationCenter.Mosquitto.SubLeaves
import CommunicationCenter.Mosquitto.SubTable
import CommunicationCenter.Mosquitto.Subscribers
import CommunicationCenter.Mosquitto.Routing
import CommunicationCenter.Mosquitto.SubMemory
import CommunicationCenter.Mosquitto.Retain
import CommunicationCenter.Mosquitto.RetainTable
import CommunicationCenter.Trie.Descendants
import CommunicationCenter.Encoding.Varint
import CommunicationCenter.Mosquitto.Utf8
import CommunicationCenter.Mosquitto.PacketData
import CommunicationCenter.Mosquitto.PacketRead
import CommunicationCenter.Mosquitto.Connection
import CommunicationCenter.Mosquitto.Properties
import CommunicationCenter.Mosquitto.Publish
import CommunicationCenter.Mosquitto.Replica
import CommunicationCenter.Mosquitto.Subscribe
import CommunicationCenter.System.Boards
import CommunicationCenter.Handshake.Session
import CommunicationCenter.Handshake.ExactlyOnce
import CommunicationCenter.Handshake.Progress
import CommunicationCenter.Mosquitto.Incoming
import CommunicationCenter.Mosquitto.Publisher
import CommunicationCenter.Mosquitto.PublishedOnce
import CommunicationCenter.Mosquitto.Outgoing
import CommunicationCenter.Mosquitto.Recipient
