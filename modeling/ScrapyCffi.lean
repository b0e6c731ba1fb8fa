import ScrapyCffi.Base.Machine
import ScrapyCffi.Base.Tiling
import ScrapyCffi.ClientHints.Isolation
import ScrapyCffi.Dupefilter.Agreement
import ScrapyCffi.Dupefilter.CanonicalUrl
import ScrapyCffi.Dupefilter.Exactness
import ScrapyCffi.Dupefilter.NoFalseNegatives
import ScrapyCffi.Engine.Acknowledge
import ScrapyCffi.Engine.Completion
import ScrapyCffi.Engine.Ownership
import ScrapyCffi.Ffmpeg.Outcome
import ScrapyCffi.Interceptors.SpiderOutput
import ScrapyCffi.Kafka.Offsets
import ScrapyCffi.Media.Completeness
import ScrapyCffi.Monitoring.Counts
import ScrapyCffi.Monitoring.Replay
import ScrapyCffi.Platform.Protobuf
import ScrapyCffi.Requests.RoundTrip
import ScrapyCffi.Resources.Service
import ScrapyCffi.Resources.Slot
import ScrapyCffi.Responses.Decoding
import ScrapyCffi.Scheduler.Cancellation
import ScrapyCffi.Scheduler.Identity
import ScrapyCffi.Scheduler.Leases
import ScrapyCffi.Scheduler.Settlement
import ScrapyCffi.Sessions.Balance
import ScrapyCffi.Sessions.Delivery
import ScrapyCffi.Sessions.Messages
import ScrapyCffi.Tasks.Accounting
import ScrapyCffi.Crawler.Resumption
import ScrapyCffi.Downloader.Deadline
import ScrapyCffi.Sessions.PendingClose
import ScrapyCffi.Tasks.Waiters
import ScrapyCffi.Kafka.FailedCommit
import ScrapyCffi.Spiders.Ingestion
import ScrapyCffi.Sessions.Restoring
import ScrapyCffi.Sessions.Unread
import ScrapyCffi.Sessions.CloseEvent
import ScrapyCffi.Sessions.RoundTrip
import ScrapyCffi.Resources.Retry
import ScrapyCffi.Downloader.Spacing
import ScrapyCffi.Requests.Acceptance
import ScrapyCffi.Responses.SizeBound
import ScrapyCffi.Robots.Groups
import ScrapyCffi.Robots.Matching
import ScrapyCffi.Dupefilter.Routing
import ScrapyCffi.Downloader.Streams
import ScrapyCffi.Extensions.Draining
import ScrapyCffi.Ffmpeg.Capacity
import ScrapyCffi.JsonScan.Finding
import ScrapyCffi.Monitoring.Retention
import ScrapyCffi.Profiles.Registry
import ScrapyCffi.Rabbitmq.Dequeue
import ScrapyCffi.Requests.JsonBody
import ScrapyCffi.Settings.Environment
import ScrapyCffi.Settings.Overlay
import ScrapyCffi.Engine.Overload
import ScrapyCffi.Protobuf.Packed
import ScrapyCffi.Protobuf.Endless
import ScrapyCffi.Protobuf.Declared
import ScrapyCffi.Protobuf.Grpc
import ScrapyCffi.Cpy.Agreement
import ScrapyCffi.Repo.Delivery
import ScrapyCffi.Settings.Layers
import ScrapyCffi.Ffmpeg.Tails
import ScrapyCffi.Robots.Guard
