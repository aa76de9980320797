import PgLance.Arrow
import PgLance.Postgres
import PgLance.Library.Chunks
import PgLance.Library.Run
import PgLance.Library.Upsert
import PgLance.Lance
import PgLance.Write.PgToArrow
import PgLance.Write.Batches
import PgLance.Write.Chunking
import PgLance.Write.Storage
import PgLance.Write.Append
import PgLance.Write.AppendRuns
import PgLance.Write.AppendLaws
import PgLance.Write.MergeInsert
import PgLance.Write.MergeRuns
import PgLance.Write.MergeLaws
import PgLance.Write.Datums
import PgLance.Fdw.Convert
import PgLance.Fdw.Scan
import PgLance.Fdw.TypeMapping
import PgLance.Library.Reader
import PgLance.Library.Separator
import PgLance.Library.RunningBest
import PgLance.Library.Decimal
import PgLance.Fdw.ScanRuns
import PgLance.Fdw.DeclaredLaws
import PgLance.Fdw.ConvertLaws
import PgLance.Fdw.Ddl
import PgLance.Fdw.DdlLaws
import PgLance.Fdw.TypeStrings
import PgLance.Fdw.LocalCatalog
import PgLance.Fdw.Namespace
import PgLance.Fdw.Attach
import PgLance.Fdw.Drift
import PgLance.Fdw.Sync
import PgLance.Fdw.LocalTables
import PgLance.Fdw.SyncRuns
import PgLance.Fdw.SyncLaws
import PgLance.Fdw.SyncDrops
import PgLance.Fdw.SyncFailures
import PgLance.Fdw.SyncStable
import PgLance.Fdw.DriftLaws
import PgLance.Fdw.DdlOrder
import PgLance.Fdw.NamespaceLaws
import PgLance.Fdw.MappingLaws
import PgLance.Fdw.AttachLaws
import PgLance.Fdw.DateLaws
import PgLance.Fdw.Decoded
import PgLance.Fdw.TimestampLaws
import PgLance.Fdw.JsonLaws
import PgLance.Fdw.JsonKeeps
import PgLance.Fdw.EncodingLaws
import PgLance.Fdw.DriftScan
import PgLance.Fdw.SanitizeLaws
import PgLance.Write.Aggregate
import PgLance.Write.AggregateLaws
import PgLance.Write.Cleanup
import PgLance.Write.BuilderLaws
import PgLance.Fdw.QuoteLaws
import PgLance.Fdw.Composites
import PgLance.Fdw.CompositeRuns
import PgLance.Fdw.OptionRuns
import PgLance.Fdw.CreatedScans
import PgLance.Fdw.SyncMirror
import PgLance.Library.UpsertMap
import PgLance.Write.MergeCalls
import PgLance.Write.AppendCalls
import PgLance.Fdw.WrittenCells
import PgLance.Fdw.WrittenScans
import PgLance.Library.Outline
import PgLance.Write.TableFields
import PgLance.Write.ExtremumScans
import PgLance.Write.Fragments
