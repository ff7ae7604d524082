import Sweety.AccessControl
import Sweety.AccessDecision
import Sweety.AccessLog
import Sweety.AcmeDns01
import Sweety.AcmeHttp01
import Sweety.AcmeOrder
import Sweety.AddressReading
import Sweety.AdminDisable
import Sweety.AlignedPool
import Sweety.AtomicProgram
import Sweety.AuthTarget
import Sweety.BackendHeaders
import Sweety.Base64
import Sweety.BodyIntegrity
import Sweety.BodyLimit
import Sweety.BodyPaths
import Sweety.BodyChannel
import Sweety.BrokenReading
import Sweety.CacheBound
import Sweety.CacheBudget
import Sweety.CacheFreshness
import Sweety.CacheIsolation
import Sweety.CachePrivacy
import Sweety.CacheTransparency
import Sweety.CertificateSelection
import Sweety.CgiNames
import Sweety.ChunkedAgreement
import Sweety.ChunkedEnd
import Sweety.ChunkedGrammar
import Sweety.ChunkedRoundTrip
import Sweety.CidrAgreement
import Sweety.CircuitBreaker
import Sweety.CircuitBreakerProbe
import Sweety.CircuitBreakerRun
import Sweety.CircularCells
import Sweety.ClientAddress
import Sweety.CodingCuts
import Sweety.CodingRoundTrip
import Sweety.ConditionalRequests
import Sweety.ConfigEdits
import Sweety.ConfigModel
import Sweety.ConfigRoundTrip
import Sweety.ConfigSerde
import Sweety.ConfigTree
import Sweety.ConfigValidity
import Sweety.ConnPool
import Sweety.Connection
import Sweety.ConnectionLimits
import Sweety.ConnectionReuse
import Sweety.ConnectionRuns
import Sweety.ContentCoding
import Sweety.ConnectionTimers
import Sweety.CookieRewriting
import Sweety.CountedTasks
import Sweety.DefaultCertificate
import Sweety.DnsProviders
import Sweety.DocumentRoot
import Sweety.EncodingChoice
import Sweety.EntityTags
import Sweety.EntryCodec
import Sweety.EscapedText
import Sweety.FairPicks
import Sweety.FastCgi
import Sweety.FastCgiBody
import Sweety.FastCgiCuts
import Sweety.FastCgiRecords
import Sweety.FastCgiRelease
import Sweety.FastCgiRequest
import Sweety.FcgiWire
import Sweety.FileCacheHits
import Sweety.FilePaths
import Sweety.FileTree
import Sweety.FirstMaximum
import Sweety.FirstOccurrence
import Sweety.ForwardRequest
import Sweety.ForwardedChain
import Sweety.ForwardedLines
import Sweety.H1Connection
import Sweety.H2Pool
import Sweety.H2Response
import Sweety.H3Admission
import Sweety.H3Response
import Sweety.HeaderLoss
import Sweety.HotReload
import Sweety.HttpText
import Sweety.ItemMachine
import Sweety.JsonPlaces
import Sweety.KeyedTable
import Sweety.LeadingBits
import Sweety.LexicalWalk
import Sweety.LineBreaks
import Sweety.LocationOrder
import Sweety.LogReading
import Sweety.LogTemplates
import Sweety.MarkedNames
import Sweety.MultiMap
import Sweety.NodeLoad
import Sweety.NodePaths
import Sweety.NotifyQueue
import Sweety.Noninterference
import Sweety.OffsetReads
import Sweety.PairReplacement
import Sweety.PercentText
import Sweety.PipedBody
import Sweety.PipelinedWrites
import Sweety.PoolIdentity
import Sweety.PoolLimits
import Sweety.PrefixParser
import Sweety.ProxyAdmission
import Sweety.ProxyCache
import Sweety.ProxyHeaderReading
import Sweety.ProxyHeaderRoundTrip
import Sweety.ProxyLineGrammar
import Sweety.ProxyListener
import Sweety.ProxyProtocol
import Sweety.ProxyResponse
import Sweety.RangeParsing
import Sweety.RateBound
import Sweety.RateIsolation
import Sweety.RateLevel
import Sweety.RateLimit
import Sweety.ReadModifyWrite
import Sweety.RealIp
import Sweety.RecordChanges
import Sweety.Redirects
import Sweety.RefillBudget
import Sweety.RegistryAgreement
import Sweety.RegistryUpdates
import Sweety.RequestCounting
import Sweety.RequestFraming
import Sweety.RequestHead
import Sweety.ResolverReload
import Sweety.ResponseReading
import Sweety.RetryLoop
import Sweety.RetryPolicy
import Sweety.Rewrite
import Sweety.RewriteHonoured
import Sweety.RewriteTemplates
import Sweety.Rfc7230
import Sweety.RingBuffer
import Sweety.Router
import Sweety.RuntimeResources
import Sweety.SavedCertificate
import Sweety.ScriptPaths
import Sweety.ScriptSplit
import Sweety.SegmentedReader
import Sweety.SensitivePath
import Sweety.SerdeDerive
import Sweety.SharedFileReads
import Sweety.SilentUpstream
import Sweety.SingleDelivery
import Sweety.SiteHandler
import Sweety.SniResolver
import Sweety.StableSort
import Sweety.StaleFiles
import Sweety.StaticCache
import Sweety.StepRun
import Sweety.TransferCoding
import Sweety.TruncatedBody
import Sweety.Truncation
import Sweety.TryFilesServed
import Sweety.UpstreamH2
import Sweety.UpstreamPick
import Sweety.UpstreamPool
import Sweety.UpstreamResponse
import Sweety.UpstreamViews
import Sweety.VHost
import Sweety.VHostLookup
import Sweety.WeightUpdates
import Sweety.WeightedIntervals
import Sweety.WholeBodies
import Sweety.WriteBuffers
import Sweety.WsProxy
import Sweety.WsRegistry
import Sweety.WsRelay
import Sweety.WsWaking
