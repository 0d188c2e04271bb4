import EnosDeviceSdk.Library.Run
import EnosDeviceSdk.Library.Framing
import EnosDeviceSdk.Library.Walk
import EnosDeviceSdk.Library.Outbox
import EnosDeviceSdk.Library.WrapCounter
import EnosDeviceSdk.Library.Reading
import EnosDeviceSdk.Library.Keyed
import EnosDeviceSdk.Library.LinkRing
import EnosDeviceSdk.Library.BoundedQueue
import EnosDeviceSdk.Library.Decimal
import EnosDeviceSdk.Infra.State
import EnosDeviceSdk.Infra.Memory
import EnosDeviceSdk.Infra.Strtok
import EnosDeviceSdk.Infra.Timer
import EnosDeviceSdk.Infra.Cjson
import EnosDeviceSdk.Infra.JsonText
import EnosDeviceSdk.Infra.CjsonCursor
import EnosDeviceSdk.Infra.CjsonEntries
import EnosDeviceSdk.Infra.CjsonContract
import EnosDeviceSdk.Infra.CjsonAccess
import EnosDeviceSdk.Infra.CjsonComplete
import EnosDeviceSdk.Infra.CjsonAcceptance
import EnosDeviceSdk.Infra.CjsonDocument
import EnosDeviceSdk.Infra.CjsonListing
import EnosDeviceSdk.Infra.CjsonMembers
import EnosDeviceSdk.Infra.CjsonPath
import EnosDeviceSdk.Infra.Printf
import EnosDeviceSdk.Mqtt.Packet
import EnosDeviceSdk.Mqtt.Deserialize
import EnosDeviceSdk.Mqtt.Topic
import EnosDeviceSdk.Mqtt.TopicRules
import EnosDeviceSdk.Mqtt.Transport
import EnosDeviceSdk.Mqtt.Serialize
import EnosDeviceSdk.Mqtt.Client
import EnosDeviceSdk.Mqtt.Publish
import EnosDeviceSdk.Mqtt.Subscription
import EnosDeviceSdk.Mqtt.Api
import EnosDeviceSdk.Mqtt.PacketId
import EnosDeviceSdk.Mqtt.RecvPublish
import EnosDeviceSdk.Mqtt.Deliver
import EnosDeviceSdk.Mqtt.Receive
import EnosDeviceSdk.Mqtt.Session
import EnosDeviceSdk.Mqtt.SessionSteps
import EnosDeviceSdk.Mqtt.Inbound
import EnosDeviceSdk.Mqtt.Outbound
import EnosDeviceSdk.Mqtt.PubWaitAck
import EnosDeviceSdk.Mqtt.WriteBuffer
import EnosDeviceSdk.Mqtt.PublishRoundTrip
import EnosDeviceSdk.Mqtt.Threads
import EnosDeviceSdk.Mqtt.Handshake
import EnosDeviceSdk.Mqtt.LossEvents
import EnosDeviceSdk.Mqtt.SubscribeSync
import EnosDeviceSdk.DevModel.MessageCache
import EnosDeviceSdk.DevModel.Completion
import EnosDeviceSdk.DevModel.ReplyRace
import EnosDeviceSdk.DevModel.Ipc
import EnosDeviceSdk.DevModel.Manager
import EnosDeviceSdk.DevModel.Connection
import EnosDeviceSdk.DevModel.CommandList
import EnosDeviceSdk.DevModel.UpstreamSync
import EnosDeviceSdk.DevModel.SubdevSync
import EnosDeviceSdk.DevModel.GatewayReply
import EnosDeviceSdk.DevModel.RegisterReply
import EnosDeviceSdk.DevModel.Lifecycle
import EnosDeviceSdk.DevModel.ReplyEvents
import EnosDeviceSdk.Infra.CjsonTruncated
import EnosDeviceSdk.Infra.JsonUnique
import EnosDeviceSdk.DevModel.CommandChain
import EnosDeviceSdk.Mqtt.PacketLen
import EnosDeviceSdk.Mqtt.TopicCheck
import EnosDeviceSdk.Mqtt.ReadBuffer
import EnosDeviceSdk.Mqtt.SessionFrame
import EnosDeviceSdk.Mqtt.ConnectInterval
import EnosDeviceSdk.Mqtt.SubscribeRun
import EnosDeviceSdk.Mqtt.KeepaliveProbes
import EnosDeviceSdk.DevModel.YieldHandshake
import EnosDeviceSdk.DevModel.CmYield
import EnosDeviceSdk.Library.ProbeRow
import EnosDeviceSdk.Wrappers.HalKv
import EnosDeviceSdk.Library.Handles
import EnosDeviceSdk.DevModel.Unwind
import EnosDeviceSdk.DevModel.UnwindMarks
import EnosDeviceSdk.DevModel.UnwindThreads
import EnosDeviceSdk.DevModel.CommandDelivery
import EnosDeviceSdk.DevModel.CommandEvents
import EnosDeviceSdk.Mqtt.SubackEvent
import EnosDeviceSdk.Library.FirstPlace
import EnosDeviceSdk.Infra.JsonValue
import EnosDeviceSdk.Infra.JsonParser
import EnosDeviceSdk.Infra.JsonMembers
import EnosDeviceSdk.Infra.JsonUnescaped
import EnosDeviceSdk.Mqtt.IdentityResponse
import EnosDeviceSdk.DevModel.Uri
import EnosDeviceSdk.DevModel.RawData
import EnosDeviceSdk.DevModel.Management
import EnosDeviceSdk.DevModel.CopyRoom
import EnosDeviceSdk.DevModel.Messages
import EnosDeviceSdk.DevModel.TextBuffer
import EnosDeviceSdk.DevModel.BatchReply
import EnosDeviceSdk.DevModel.ThingReply
import EnosDeviceSdk.Library.Shown
import EnosDeviceSdk.DevModel.BatchLogin
import EnosDeviceSdk.Infra.Countdown
import EnosDeviceSdk.Mqtt.SendVerdict
import EnosDeviceSdk.DevModel.ClientSubscribe
import EnosDeviceSdk.Library.BubblePass
import EnosDeviceSdk.Infra.MemSort
import EnosDeviceSdk.Infra.MemStats
import EnosDeviceSdk.DevSign.SignMqtt
import EnosDeviceSdk.Activate.WaitLoop
import EnosDeviceSdk.Activate.SecretTopic
import EnosDeviceSdk.DevModel.BatchEntries
import EnosDeviceSdk.DevModel.BatchSigns
import EnosDeviceSdk.Library.BlockHash
import EnosDeviceSdk.Infra.Sha256Standard
import EnosDeviceSdk.Infra.Sha256
import EnosDeviceSdk.Infra.Sha256Stream
import EnosDeviceSdk.Library.Attempt
import EnosDeviceSdk.Library.BlockHeap
import EnosDeviceSdk.Infra.CjsonPrint
import EnosDeviceSdk.Infra.CjsonPrintRoom
import EnosDeviceSdk.Infra.CjsonPrinted
import EnosDeviceSdk.Infra.CjsonPrintContract
import EnosDeviceSdk.Infra.CjsonPrintDocument
import EnosDeviceSdk.Infra.CjsonPrintReadBack
import EnosDeviceSdk.Library.StreamReader
import EnosDeviceSdk.Mqtt.ControlPacket
import EnosDeviceSdk.Mqtt.ControlRoundTrip
import EnosDeviceSdk.Mqtt.LevelPatterns
import EnosDeviceSdk.DevModel.Dispatch
