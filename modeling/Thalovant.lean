import Thalovant.Api.Admission
import Thalovant.Api.AdmissionSafety
import Thalovant.Api.ConfigUpdate
import Thalovant.Api.ConfigUpdateSafety
import Thalovant.Api.DevicePolls
import Thalovant.Api.DevicePollsSafety
import Thalovant.Api.Http
import Thalovant.Api.NativeSignIn
import Thalovant.Api.NativeSignInSafety
import Thalovant.Api.Provisioning
import Thalovant.Api.ProvisioningCalls
import Thalovant.Api.ProvisioningInvariant
import Thalovant.Api.ProvisioningSafety
import Thalovant.Api.RuntimeConfig
import Thalovant.Api.SignIn
import Thalovant.Api.SignInSafety
import Thalovant.Basic
import Thalovant.Client.AskCollector
import Thalovant.Client.AskForeign
import Thalovant.Client.AskOutcome
import Thalovant.Client.AskStop
import Thalovant.Client.AskTaken
import Thalovant.Client.AskUnheard
import Thalovant.Client.Attribution
import Thalovant.Client.ConversationGroups
import Thalovant.Client.ConversationStore
import Thalovant.Client.Conversations
import Thalovant.Client.Correlation
import Thalovant.Client.QueryCollector
import Thalovant.Client.Replies
import Thalovant.ClientKey
import Thalovant.Duration
import Thalovant.Error
import Thalovant.Event
import Thalovant.HiveMessage
import Thalovant.Home.References
import Thalovant.Home.Response
import Thalovant.Home.Within
import Thalovant.IdentityDebug
import Thalovant.IdentityRoundTrip
import Thalovant.IdentityValue
import Thalovant.Intents.Definition
import Thalovant.Intents.DescribeEnds
import Thalovant.Intents.DescribeMany
import Thalovant.Intents.DescribeManySafety
import Thalovant.Intents.DescribeManySteps
import Thalovant.Intents.DescribeRun
import Thalovant.Intents.DescribeWindow
import Thalovant.Intents.Inventory
import Thalovant.Intents.InventoryListing
import Thalovant.Intents.InventoryPhrases
import Thalovant.Intents.InventoryRows
import Thalovant.Intents.InventorySafety
import Thalovant.Intents.Speakable
import Thalovant.Inventory.Cache
import Thalovant.Inventory.CacheLoads
import Thalovant.Inventory.CacheSafety
import Thalovant.Inventory.Json
import Thalovant.Inventory.JsonRoundTrip
import Thalovant.Inventory.Names
import Thalovant.Lib.Async
import Thalovant.Lib.Bits
import Thalovant.Lib.Clock
import Thalovant.Lib.Directory
import Thalovant.Lib.Fallible
import Thalovant.Lib.FormUrlencoded
import Thalovant.Lib.GroupedCache
import Thalovant.Lib.Json.Codec
import Thalovant.Lib.Json.Path
import Thalovant.Lib.Json.Text
import Thalovant.Lib.Json.Value
import Thalovant.Lib.Machine
import Thalovant.Lib.Regex
import Thalovant.Lib.Reservation
import Thalovant.Lib.Rewriting
import Thalovant.Lib.Runs
import Thalovant.Lib.Scan
import Thalovant.Lib.SortedMap
import Thalovant.Lib.Trim
import Thalovant.Lib.Zlib
import Thalovant.Noise.Adoption
import Thalovant.Noise.Canonical
import Thalovant.Noise.Duplex
import Thalovant.Noise.Framing
import Thalovant.Noise.Handshake
import Thalovant.Noise.Pins
import Thalovant.Noise.PskCache
import Thalovant.Noise.Reassembly
import Thalovant.Noise.Session
import Thalovant.Noise.Store
import Thalovant.Noise.StoreFiles
import Thalovant.Noise.StoreFilesSafety
import Thalovant.Noise.StoreFilesSteps
import Thalovant.Protocols
import Thalovant.Redact
import Thalovant.Refusal
import Thalovant.ReplyAudio
import Thalovant.Rich.Chunks
import Thalovant.Rich.ChunksSafety
import Thalovant.Rich.Markup
import Thalovant.Session.Handlers
import Thalovant.Session.HandlersSafety
import Thalovant.Session.Hub
import Thalovant.Session.HubSafety
import Thalovant.Session.HubSteps
import Thalovant.Session.LinkSupervisor
import Thalovant.Stream.EventStream
import Thalovant.Stream.EventStreamSafety
import Thalovant.Stream.EventStreamSteps
import Thalovant.Text
import Thalovant.Transport.Channel
import Thalovant.Transport.ChannelSafety
import Thalovant.Transport.ChannelSteps
import Thalovant.Transport.Connect
import Thalovant.Transport.ConnectSteps
import Thalovant.Transport.ConnectTrust
import Thalovant.Transport.Control
import Thalovant.Transport.ControlSafety
import Thalovant.Transport.ControlSteps
import Thalovant.Transport.Delivery
import Thalovant.Transport.Http
import Thalovant.Transport.HttpAdmission
import Thalovant.Transport.HttpSafety
import Thalovant.Transport.Link
import Thalovant.Transport.Mqtt
import Thalovant.Transport.MqttBooks
import Thalovant.Transport.MqttDelivery
import Thalovant.Transport.MqttInvariant
import Thalovant.Transport.MqttOrder
import Thalovant.Transport.MqttReads
import Thalovant.Transport.MqttTopics
import Thalovant.Transport.PskFrames
import Thalovant.Transport.PskHealing
import Thalovant.Transport.Wss
import Thalovant.Transport.WssCounter
import Thalovant.Transport.WssDelivery
import Thalovant.Transport.WssInvariant
import Thalovant.Transport.WssLink
import Thalovant.Transport.WssOrder
import Thalovant.Transport.WssReads
import Thalovant.Transport.WssSafety
import Thalovant.Transport.WssVerdict
import Thalovant.Url
import Thalovant.Value
import Thalovant.Wire.Frame
import Thalovant.Wire.Layout
import Thalovant.Wire.RoundTrip
