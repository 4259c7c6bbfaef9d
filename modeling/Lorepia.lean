import Lorepia.Lib.Tx
import Lorepia.Lib.Table
import Lorepia.Lib.Runs
import Lorepia.Lib.Forest
import Lorepia.Lib.Interrupt
import Lorepia.Lib.Concurrent
import Lorepia.Storage.Model
import Lorepia.Storage.Schema
import Lorepia.Storage.Store
import Lorepia.Storage.Effects
import Lorepia.Storage.Journal
import Lorepia.Storage.Permanence
import Lorepia.Storage.Liveness
import Lorepia.Storage.Tree
import Lorepia.Storage.Rebuild
import Lorepia.Backup.Model
import Lorepia.Backup.Restore
import Lorepia.Backup.Copying
import Lorepia.Backup.Recovery
import Lorepia.Backup.Calls
import Lorepia.Stream.Model
import Lorepia.Stream.Persistence
import Lorepia.Stream.Tasks
import Lorepia.Stream.Conservation
import Lorepia.Lib.Code
import Lorepia.Tools.Json
import Lorepia.Tools.Approval
import Lorepia.Tools.Runtime
import Lorepia.Tools.Canonical
import Lorepia.Lib.Alone
import Lorepia.Assets.Model
import Lorepia.Assets.Store
import Lorepia.Assets.Copy
import Lorepia.Assets.Jpeg
import Lorepia.Assets.Ledger
import Lorepia.Assets.Quota
import Lorepia.Assets.Alone
import Lorepia.Assets.Quarantine
import Lorepia.Assets.Crashes
import Lorepia.Assets.Shard
import Lorepia.Lorebook.Model
import Lorepia.Lib.Filter
import Lorepia.Lorebook.Engine
import Lorepia.Lorebook.Naive
import Lorepia.Lorebook.Index
import Lorepia.Lib.Memo
import Lorepia.Lorebook.Cache
import Lorepia.Lorebook.Transfer
import Lorepia.Providers.Config
import Lorepia.Providers.Validate
import Lorepia.Providers.Compile
import Lorepia.Lib.Budget
import Lorepia.Memory.Budget
import Lorepia.Memory.Summary
import Lorepia.Memory.Retrieval
import Lorepia.Memory.Selection
import Lorepia.Memory.Lineage
import Lorepia.Prompt.Regex
import Lorepia.Prompt.Replacement
import Lorepia.Prompt.Template
import Lorepia.Prompt.Compile
import Lorepia.Prompt.Sendable
import Lorepia.Prompt.Rendering
import Lorepia.Lib.Lines
import Lorepia.ProviderRuntime.Decode
import Lorepia.ProviderRuntime.Consume
import Lorepia.ProviderRuntime.Discipline
import Lorepia.ProviderRuntime.Chunking
import Lorepia.Storage.Paging
import Lorepia.Lib.Keyset
import Lorepia.Storage.Listing
import Lorepia.Import.Model
import Lorepia.Lib.Extents
import Lorepia.Import.Archive
import Lorepia.Import.Service
import Lorepia.Import.Bounds
import Lorepia.Assets.Holdings
import Lorepia.Import.AllOrNothing
import Lorepia.Stream.History
import Lorepia.ProviderRuntime.Deltas
import Lorepia.ProviderRuntime.RoundTrip
import Lorepia.ProviderRuntime.Usage
import Lorepia.Providers.Accepted
import Lorepia.Providers.Conversation
import Lorepia.Lib.Url
import Lorepia.ProviderRuntime.Addresses
import Lorepia.ProviderRuntime.Endpoint
import Lorepia.Memory.Words
import Lorepia.Memory.Order
import Lorepia.Lorebook.Order
import Lorepia.Stream.Fragments
import Lorepia.Stream.Forwardable
import Lorepia.Persona.Catalog
