import ThreadCache.Action
import ThreadCache.Cache.Database
import ThreadCache.Cache.File
import ThreadCache.Cache.Row
import ThreadCache.Cache.Schema
import ThreadCache.Cache.Table
import ThreadCache.History
import ThreadCache.Inconsistency
import ThreadCache.Json.Basic
import ThreadCache.Json.Document
import ThreadCache.Json.Double
import ThreadCache.Json.Token
import ThreadCache.Main
import ThreadCache.Notice
import ThreadCache.Operation
import ThreadCache.Proofs.Store.Operations
import ThreadCache.Redaction
import ThreadCache.Reduction
import ThreadCache.Replay
import ThreadCache.Report
import ThreadCache.Session
import ThreadCache.Settings
import ThreadCache.Settings.File
import ThreadCache.SortedMap
import ThreadCache.Store.Folding
import ThreadCache.Store.Reconciliation
import ThreadCache.Text.Blank
import ThreadCache.Text.Digit
import ThreadCache.Text.Hidden
import ThreadCache.Text.Inert
import ThreadCache.Text.Quoted
import ThreadCache.Thread
import ThreadCache.Toml.Document
import ThreadCache.Toml.Item
import ThreadCache.Toml.Scalar
import ThreadCache.Toml.Token
import ThreadCache.Update
import ThreadCache.Wire.ActionText
import ThreadCache.Wire.Decoding
import ThreadCache.Wire.Description
import ThreadCache.Wire.Encoding
import ThreadCache.Wire.Error
import ThreadCache.Wire.Format
import ThreadCache.Proofs.Reduction
import ThreadCache.Proofs.Store.Effects
import ThreadCache.Proofs.Store.Provenance
import ThreadCache.Proofs.Json.Text
import ThreadCache.Proofs.Json.Value
import ThreadCache.Proofs.Wire.Spelling
import ThreadCache.Proofs.Wire.Alteration
import ThreadCache.Proofs.Wire.Layout
import ThreadCache.Proofs.Wire.Canonical
import ThreadCache.Proofs.Wire.RoundTrip
import ThreadCache.Proofs.Wire.Format
import ThreadCache.Proofs.Wire.Insertion
import ThreadCache.Proofs.Wire.Types
import ThreadCache.Proofs.Cache.Row
import ThreadCache.Proofs.Cache.Table
import ThreadCache.Proofs.Cache.Database
import ThreadCache.Proofs.Session.Agreement
import ThreadCache.Proofs.Session.Alike
import ThreadCache.Proofs.Session.Turns
import ThreadCache.Proofs.Replay.Restart
import ThreadCache.Proofs.Session.Failure
import ThreadCache.Proofs.Store.Batches
import ThreadCache.Proofs.Store.Independence
import ThreadCache.Proofs.Store.Identity
import ThreadCache.Proofs.Store.Naming
import ThreadCache.Proofs.Session.Ending
import ThreadCache.Proofs.Correction
import ThreadCache.Proofs.Session.History
import ThreadCache.Proofs.Cache.Refinement
import ThreadCache.Proofs.Wire.Skew
import ThreadCache.Proofs.Wire.Rendering
import ThreadCache.Proofs.Redaction
import ThreadCache.Proofs.Session.Cookies
import ThreadCache.Proofs.Store.LastOperation
import ThreadCache.Proofs.Store.Unread
import ThreadCache.Proofs.Store.Effectiveness
import ThreadCache.Proofs.Store.Snapshot
