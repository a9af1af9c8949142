import QinDB.Index.BucketPrograms
import QinDB.Index.HashDirectory
import QinDB.Index.HashPins
import QinDB.Storage.Commit
import QinDB.Storage.DiskManager
import QinDB.Executor.Restart
import QinDB.Storage.WalBackend
import QinDB.Cache.TableCacheRuns
import QinDB.Cache.Mutexes
import QinDB.Cache.QueryCacheRuns
import QinDB.Network.DecodingCost
import QinDB.Auth.Blake2bStandard
import QinDB.Client.Fingerprints
import QinDB.Index.DocumentRuns
import QinDB.Server.Whitelist
import QinDB.Server.DatabaseFiles
import QinDB.Server.Registry
import QinDB.Executor.PageImages
import QinDB.Parser.LexerCoverage
import QinDB.Query.Clauses
import QinDB.Query.FullText
import QinDB.Query.Rewriting
import QinDB.Query.TableScan
import QinDB.Network.ConnectionStringParser
import QinDB.Utils.ResultExporter
import QinDB.Server.AuthenticationGate
import QinDB.Index.NodeCodec
import QinDB.Auth.EncodedHash
import QinDB.Index.KeyHash
import QinDB.Auth.LongHash
import QinDB.Auth.BlockMixing
import QinDB.Storage.Clock
import QinDB.Server.Isolation
