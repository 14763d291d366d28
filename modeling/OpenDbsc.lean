import OpenDbsc.KeyTypes
import OpenDbsc.Lifetime
import OpenDbsc.Pinning
import OpenDbsc.Refresh
import OpenDbsc.Replay
import OpenDbsc.Registration
import OpenDbsc.RedisTermination
import OpenDbsc.RedisIndex
import OpenDbsc.RedisRoundTrip
import OpenDbsc.RedisDeleted
import OpenDbsc.RedisIndexPool
import OpenDbsc.Interchange
import OpenDbsc.SqliteCleanup
import OpenDbsc.Noninterference
import OpenDbsc.RedisWrites
import OpenDbsc.Announcements
import OpenDbsc.SignedBytes
import OpenDbsc.HttpEnds
import OpenDbsc.SqliteChanges
import OpenDbsc.OdbcSql
import OpenDbsc.WholeRecords
import OpenDbsc.Base64url
import OpenDbsc.RejectedProof
import OpenDbsc.Cookies
import OpenDbsc.InstructionJson
import OpenDbsc.HeaderAmbiguity
import OpenDbsc.SkippedRoundTrip
import OpenDbsc.SkippedList
import OpenDbsc.SqliteListing
import OpenDbsc.InstructionArrays
import OpenDbsc.OdbcText
import OpenDbsc.OdbcRun
import OpenDbsc.PoolOverlap
import OpenDbsc.HeapLeaks
import OpenDbsc.HeaderScanners
import OpenDbsc.TwoPassSerializers
