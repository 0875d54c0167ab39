import Gateway.Auth.CacheRuns
import Gateway.Dispatch.BlobUpload
import Gateway.Dispatch.Reconnect
import Gateway.Forwarder.Completion
import Gateway.Forwarder.ExactUsage
import Gateway.Forwarder.FailoverBudget
import Gateway.Forwarder.Keepalives
import Gateway.Forwarder.LineOutcomes
import Gateway.Forwarder.PassedAccounts
import Gateway.Forwarder.PolicyEvents
import Gateway.Forwarder.StreamBrackets
import Gateway.Forwarder.TestedConversion
import Gateway.Protocol.ExtraMembers
import Gateway.Protocol.MultipartForms
import Gateway.Protocol.ToolLinkage
import Gateway.Server.AttemptTraces
import Gateway.Server.BatchItems
import Gateway.Server.HttpServer
import Gateway.Server.Pauses
import Gateway.Server.ProxyCredentials
import Gateway.Server.QueryStrings
import Gateway.Server.RealtimeSettlement
import Gateway.Server.Replay
import Gateway.Server.Router
import Gateway.Server.UpstreamStreams
import Gateway.Server.WebSocket
import Gateway.Usage.EvidenceHistory
import Gateway.Usage.MemoryQueue
