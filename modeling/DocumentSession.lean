import DocumentSession.Json.Parser
import DocumentSession.Json.Printer
import DocumentSession.Session.Load
import DocumentSession.Session.Save
import DocumentSession.Session.Flush
import DocumentSession.Session.Local
import DocumentSession.Session.Store
import DocumentSession.Session.Describe
import DocumentSession.Session.Rule
import DocumentSession.Entity.Shop
import DocumentSession.Script.Call
import DocumentSession.Script.Instance
import DocumentSession.Proofs.Change
import DocumentSession.Proofs.Consistent.Basic
import DocumentSession.Proofs.Consistent.Reads
import DocumentSession.Proofs.SessionReads
import DocumentSession.Proofs.Consistent.Save
import DocumentSession.Proofs.Reachable
import DocumentSession.Proofs.Frame
import DocumentSession.Proofs.Run
import DocumentSession.Proofs.SaveAgain
import DocumentSession.Proofs.Forest
import DocumentSession.Proofs.LiveEntities
import DocumentSession.Proofs.Orderly
import DocumentSession.Proofs.PendingWork
import DocumentSession.Proofs.ExactPlan
import DocumentSession.Proofs.FailedSave
import DocumentSession.Proofs.Versions
import DocumentSession.Proofs.SettledVersions
import DocumentSession.Proofs.ShownVersions
import DocumentSession.Proofs.LazyAnswers
import DocumentSession.Proofs.LoadAgain
import DocumentSession.Proofs.LazyValues
import DocumentSession.Proofs.LiveWrapper
import DocumentSession.Proofs.Handles
import DocumentSession.Proofs.Detached
import DocumentSession.Proofs.Untracked
import DocumentSession.Proofs.CacheAlike
import DocumentSession.Proofs.CacheApart
import DocumentSession.Proofs.Query.Grammar
import DocumentSession.Proofs.Query.Unambiguous
import DocumentSession.Proofs.Query.Values
import DocumentSession.Proofs.Query.Preimage
import DocumentSession.Proofs.Metadata.Unchanged
import DocumentSession.Proofs.Refusals
import DocumentSession.Proofs.MalformedReplies
import DocumentSession.Proofs.LazyLoad
import DocumentSession.Proofs.CacheTransparent
import DocumentSession.Proofs.FreshSession
import DocumentSession.Proofs.Preconditions
import DocumentSession.Proofs.Masking
import DocumentSession.Proofs.WronglyMissing
import DocumentSession.Proofs.PendingChanges
import DocumentSession.Proofs.Query.Discipline
import DocumentSession.Proofs.Query.Parameters
import DocumentSession.Proofs.Query.Quoting
import DocumentSession.Proofs.Query.RefusedCalls
import DocumentSession.Proofs.Query.Parts
import DocumentSession.Proofs.LocatedChanges
import DocumentSession.Proofs.ReportedChanges
import DocumentSession.Proofs.Batch
import DocumentSession.Proofs.ScriptResults
import DocumentSession.Proofs.Collisions
import DocumentSession.Proofs.Announcements
import DocumentSession.Proofs.UncachedReads
import DocumentSession.Proofs.Untouched
import DocumentSession.Proofs.StoredAgain
import DocumentSession.Proofs.Metadata.Ancestors
import DocumentSession.Proofs.Metadata.Views
import DocumentSession.Proofs.CacheRecency
import DocumentSession.Proofs.QueryStrings
import DocumentSession.Proofs.Metering
