import RbiProxy.Reach
import RbiProxy.Indexed
import RbiProxy.PacketFilter
import RbiProxy.GoString
import RbiProxy.GoUtf8
import RbiProxy.GoLower
import RbiProxy.HtmlScript
import RbiProxy.GoQuote
import RbiProxy.ConfList
import RbiProxy.GoMap
import RbiProxy.WorkList
import RbiProxy.GoSlice
import RbiProxy.GoHeap
import RbiProxy.GoHeader
import RbiProxy.StoredDeflate
import RbiProxy.GoConn
import RbiProxy.GoReader
import RbiProxy.SettingsStore
import RbiProxy.GoNet
import RbiProxy.Base64
import RbiProxy.Cfb
import RbiProxy.JsonLex
import RbiProxy.JsonParse
import RbiProxy.JsonText
import RbiProxy.JsonDecode
import RbiProxy.HttpMessage
import RbiProxy.JsonMap
import RbiProxy.JsonObjects
import RbiProxy.JsonStream
import RbiProxy.Framing
import RbiProxy.Controller
import RbiProxy.ControllerGc
import RbiProxy.ControllerHost
import RbiProxy.ControllerShutdown
import RbiProxy.ClientHello
import RbiProxy.HelloStages
import RbiProxy.HelloFault
import RbiProxy.HelloHost
import RbiProxy.QtHello
import RbiProxy.QtHelloSafe
import RbiProxy.HelloAgree
import RbiProxy.HelloCodec
import RbiProxy.QtConnection
import RbiProxy.ConnectLine
import RbiProxy.QtStream
import RbiProxy.QtSafety
import RbiProxy.SubjectAltName
import RbiProxy.ProxyAuth
import RbiProxy.CredentialsCache
import RbiProxy.ServeHTTP
import RbiProxy.SslBump
import RbiProxy.HopByHop
import RbiProxy.CertificateCache
import RbiProxy.ValidCert
import RbiProxy.BumpCertificate
import RbiProxy.Relay
import RbiProxy.Duplex
import RbiProxy.WsRelay
import RbiProxy.DirectRelay
import RbiProxy.Users
import RbiProxy.UserNames
import RbiProxy.UserEdits
import RbiProxy.Traffic
import RbiProxy.AuthSound
import RbiProxy.Credentials
import RbiProxy.UserRequests
import RbiProxy.FilterPolicy
import RbiProxy.KeywordScore
import RbiProxy.KeywordPadding
import RbiProxy.FilterFiles
import RbiProxy.TimeWindow
import RbiProxy.HostPolicy
import RbiProxy.AdminRequests
import RbiProxy.ResponsePath
import RbiProxy.Representation
import RbiProxy.RbiSession
import RbiProxy.KioskHost
import RbiProxy.ContainerEgress
import RbiProxy.ViewerScript
import RbiProxy.RbiStep
import RbiProxy.RbiBase
import RbiProxy.RbiViewers
import RbiProxy.RbiGrace
import RbiProxy.RbiRemoval
import RbiProxy.RbiLaunch
import RbiProxy.RbiOrphans
import RbiProxy.DnsFilter
import RbiProxy.Blocklist
import RbiProxy.DnsServer
import RbiProxy.DnsEntries
import RbiProxy.AdminServer
import RbiProxy.AdminAuth
import RbiProxy.DnsRefresh
import RbiProxy.DnsThread
import RbiProxy.CamRelay
import RbiProxy.CamFrames
import RbiProxy.ControlChannel
import RbiProxy.MediaSignals
import RbiProxy.CameraBridge
import RbiProxy.WarmCamera
import RbiProxy.LogEntries
import RbiProxy.Stats
import RbiProxy.Storage
import RbiProxy.StorageLoad
import RbiProxy.MapStore
