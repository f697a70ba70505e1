import Nerea.Shared.Segments
import Nerea.Shared.Utf8Lossy
import Nerea.Shared.Whitespace
import Nerea.Shared.CausalMap
import Nerea.Shared.MaskedSoftmax
import Nerea.Shared.Json
import Nerea.Shared.Dart
import Nerea.Shared.Utf16
import Nerea.Shared.PosixTree
import Nerea.Shared.Run
import Nerea.Shared.InTurn
import Nerea.Shared.BoundedLog
import Nerea.Shared.Xorshift
import Nerea.Shared.Overwrite
import Nerea.Shared.DirEntry
import Nerea.Shared.Hex
import Nerea.Shared.Download
import Nerea.Agents.KeyVault
import Nerea.Agents.History
import Nerea.Agents.Tools
import Nerea.Agents.Sandbox
import Nerea.Agents.Manager
import Nerea.Agents.LoopFrame
import Nerea.Agents.PermissionSafety
import Nerea.Agents.LoopUniqueness
import Nerea.Agents.StopFinal
import Nerea.Agents.DeadMarks
import Nerea.Agents.KeyRejection
import Nerea.Agents.HistoryWindow
import Nerea.Agents.OrphanTools
import Nerea.Agents.ExitState
import Nerea.Agents.HybridMemory
import Nerea.Laurelia.Config
import Nerea.Laurelia.Rope
import Nerea.Laurelia.Attention
import Nerea.Laurelia.Model
import Nerea.Laurelia.CacheEquivalence
import Nerea.Laurelia.ChunkCausality
import Nerea.Iroh.ChatFraming
import Nerea.Iroh.ChatChannels
import Nerea.Colab.Frames
import Nerea.Colab.Runtime
import Nerea.Colab.RuntimeSteps
import Nerea.Colab.Attribution
import Nerea.Colab.DeadRequests
import Nerea.Colab.Resubmission
import Nerea.Colab.Connection
import Nerea.Colab.Threads
import Nerea.Colab.Lifecycle
import Nerea.Colab.KeepAlive
import Nerea.Colab.Auth
import Nerea.Colab.Logout
import Nerea.Dht.Engine
import Nerea.Dht.EngineLoops
import Nerea.Dht.EngineErrors
import Nerea.Dht.MetaLoop
import Nerea.Dht.IndexBounds
import Nerea.Dht.Announcements
import Nerea.ToolSec.Keystream
import Nerea.ToolSec.CryptoVault
import Nerea.Nostr.SharedKeyChat
import Nerea.Nostr.NostrKeys
import Nerea.Services.Stores
import Nerea.Services.LastSave
import Nerea.Services.NatService
import Nerea.Services.Downloads
import Nerea.Services.Loading
import Nerea.Services.LoadKeeps
import Nerea.Agents.ReviveKeys
import Nerea.Services.AgentRecords
import Nerea.Colab.BinaryFrames
import Nerea.Colab.PocketQueue
import Nerea.Services.ColabService
import Nerea.Dht.CaptureRing
import Nerea.Dht.MotorDht
import Nerea.Dht.Magnet
import Nerea.Services.DhtInstance
import Nerea.Shared.PairRotation
import Nerea.ToolSec.Streaming
import Nerea.Laurelia.RotaryRelative
import Nerea.Shared.CumulativeDraw
import Nerea.Laurelia.Sampling
import Nerea.Laurelia.SamplingLaw
import Nerea.Laurelia.Generation
import Nerea.Laurelia.LoadedModel
import Nerea.Torrent.Session
import Nerea.Shared.SealedFile
import Nerea.Nostr.AccountFile
import Nerea.Pkarr.KeyFile
import Nerea.Services.SettingsMigration
import Nerea.Shared.Cursor
import Nerea.Browser.Tabs
import Nerea.Shared.Projection
import Nerea.Nostr.Replaceable
import Nerea.Shared.Narrowing
import Nerea.Nostr.Event
import Nerea.Nostr.Feed
import Nerea.Nostr.Envelope
import Nerea.Nostr.BackDated
import Nerea.Shared.XorMetric
import Nerea.Shared.Crc
import Nerea.Shared.BinarySearch
import Nerea.Shared.Lru
import Nerea.Shared.Bencode
import Nerea.Shared.Tally
import Nerea.Mainline.Id
import Nerea.Mainline.Node
import Nerea.Mainline.RoutingTable
import Nerea.Mainline.RoutingTableRuns
import Nerea.Mainline.ClosestNodes
import Nerea.Mainline.Messages
import Nerea.Mainline.Wire
import Nerea.Mainline.Items
import Nerea.Mainline.Tokens
import Nerea.Mainline.Server
import Nerea.Mainline.ServerRuns
import Nerea.Mainline.ServerPeers
import Nerea.Mainline.ServerKept
import Nerea.Mainline.Socket
import Nerea.Mainline.SocketRuns
import Nerea.Mainline.PutQuery
import Nerea.Mainline.IterativeQuery
import Nerea.Mainline.Rpc
import Nerea.Mainline.RpcChanges
import Nerea.Mainline.RpcRuns
import Nerea.Mainline.RpcQueries
import Nerea.Mainline.RpcPuts
import Nerea.Shared.Waiters
import Nerea.Mainline.Dht
