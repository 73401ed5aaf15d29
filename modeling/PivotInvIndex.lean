import PivotInvIndex.Basic
import PivotInvIndex.Encoding.Defs
import PivotInvIndex.Encoding.Index
import PivotInvIndex.Encoding.Permutation
import PivotInvIndex.Encoding.CombIds
import PivotInvIndex.Encoding.Keys
import PivotInvIndex.Encoding.Encoder
import PivotInvIndex.Params.Defs
import PivotInvIndex.Search.Defs
import PivotInvIndex.Search.Postings
import PivotInvIndex.Search.Counting
import PivotInvIndex.Search.PriorQueue
import PivotInvIndex.Search.Merge
import PivotInvIndex.Search.Agreement
import PivotInvIndex.Params.QueryTime
import PivotInvIndex.Search.GenSearch
import PivotInvIndex.Build.Defs
import PivotInvIndex.Build.Steps
import PivotInvIndex.Build.Safety
import PivotInvIndex.Build.OneWorker
import PivotInvIndex.Build.Conservation
import PivotInvIndex.Build.Progress
import PivotInvIndex.Build.Staging
import PivotInvIndex.EndToEnd
import PivotInvIndex.ParallelBuild
