import ImapSieve.Engine.Queries
import ImapSieve.Executor.Designation
import ImapSieve.Executor.Fallback
import ImapSieve.Executor.Retention
import ImapSieve.Executor.Retry
import ImapSieve.Daemon.Bookmark
import ImapSieve.Daemon.Feedback
import ImapSieve.Daemon.Condstore
import ImapSieve.Daemon.Ownership
import ImapSieve.Daemon.Spacing
import ImapSieve.Daemon.Delays
import ImapSieve.Daemon.StartUid
import ImapSieve.Daemon.Classification
import ImapSieve.Daemon.FirstRun
import ImapSieve.Daemon.Reload
import ImapSieve.Daemon.Prefix
import ImapSieve.Engine.NormalForm
import ImapSieve.Executor.Frame
import ImapSieve.Executor.Flags
import ImapSieve.Executor.Repetition
import ImapSieve.Daemon.Order
import ImapSieve.StateStore
import ImapSieve.StoreFlags
import ImapSieve.Storage.Persist
import ImapSieve.Storage.Crash
import ImapSieve.Storage.Agreement
import ImapSieve.Mail.Rendering
import ImapSieve.Mail.NullSender
import ImapSieve.Mail.Notice
import ImapSieve.AsyncImapClient
import ImapSieve.Text.SequenceSet
import ImapSieve.Daemon.Conservation
import ImapSieve.Daemon.Provenance
import ImapSieve.Daemon.Redelivery
import ImapSieve.System.Outcome
import ImapSieve.System.Wire
import ImapSieve.System.Exit
import ImapSieve.System.Commands
import ImapSieve.System.Leftovers
