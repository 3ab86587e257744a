import IdleGame.Action
import IdleGame.Action.Datum
import IdleGame.Action.Json
import IdleGame.Action.Run
import IdleGame.Autoplay
import IdleGame.Autoplay.CommandLine
import IdleGame.Autoplay.Report
import IdleGame.Autoplay.Run
import IdleGame.Binary
import IdleGame.Clock
import IdleGame.Datum
import IdleGame.Decimal
import IdleGame.Decimal.Shortest
import IdleGame.Decimal.Text
import IdleGame.Entity
import IdleGame.Entity.Population
import IdleGame.Expr
import IdleGame.Expr.Datum
import IdleGame.Expr.Eval
import IdleGame.Expr.Json
import IdleGame.Fault
import IdleGame.FileTree
import IdleGame.Game
import IdleGame.Game.Datum
import IdleGame.Game.Draft
import IdleGame.Game.Issue
import IdleGame.Game.Json
import IdleGame.Json
import IdleGame.Json.Access
import IdleGame.Json.Build
import IdleGame.Json.Datum
import IdleGame.Main
import IdleGame.Message
import IdleGame.Message.Template
import IdleGame.Paperclips
import IdleGame.Phase
import IdleGame.Phase.Current
import IdleGame.Project
import IdleGame.Project.Purchase
import IdleGame.Proofs.Action.Alike
import IdleGame.Proofs.Action.Change
import IdleGame.Proofs.Action.Evaluation
import IdleGame.Proofs.Action.Nodes
import IdleGame.Proofs.Entity.Population
import IdleGame.Proofs.Expr.Evaluation
import IdleGame.Proofs.Float.Order
import IdleGame.Proofs.Game.Authored
import IdleGame.Proofs.Game.Issue
import IdleGame.Proofs.Outcome
import IdleGame.Proofs.Phase.Update
import IdleGame.Proofs.Project.Purchase
import IdleGame.Proofs.Random
import IdleGame.Proofs.Rule.Pass
import IdleGame.Proofs.Session.Alike
import IdleGame.Proofs.Session.Change
import IdleGame.Proofs.Session.Evaluation
import IdleGame.Proofs.Session.Fault
import IdleGame.Proofs.Session.History
import IdleGame.Proofs.Session.Invariant
import IdleGame.Proofs.Session.Operation
import IdleGame.Proofs.Session.Resume
import IdleGame.Proofs.Session.Slot
import IdleGame.Proofs.Session.Soundness
import IdleGame.Proofs.Store
import IdleGame.Proofs.Table
import IdleGame.Proofs.World.Alike
import IdleGame.Proofs.World.Change
import IdleGame.Random
import IdleGame.Random.Weighted
import IdleGame.Ron
import IdleGame.Ron.Adjacent
import IdleGame.Ron.Datum
import IdleGame.Ron.Numeral
import IdleGame.Ron.Parse
import IdleGame.Ron.Token
import IdleGame.Ron.Write
import IdleGame.Rule
import IdleGame.Rule.Schedule
import IdleGame.Session
import IdleGame.Session.Play
import IdleGame.Session.Save
import IdleGame.Snapshot
import IdleGame.Snapshot.Ron
import IdleGame.Store
import IdleGame.Store.Any
import IdleGame.Store.Database
import IdleGame.Store.Database.Ron
import IdleGame.Store.Files
import IdleGame.Store.Memory
import IdleGame.Table
import IdleGame.Text.Blank
import IdleGame.Text.Escape
import IdleGame.Text.Identifier
import IdleGame.Text.Ranges
import IdleGame.Text.Unprintable
import IdleGame.Text.Utf8
import IdleGame.Value
import IdleGame.World
import IdleGame.Proofs.Decimal.Digits
import IdleGame.Proofs.Snapshot.Stamp
import IdleGame.Proofs.Rule.Trial
import IdleGame.Proofs.Rule.Spacing
import IdleGame.Proofs.Session.Trial
import IdleGame.Proofs.Ron.Numeral
import IdleGame.Proofs.Snapshot.Counts
import IdleGame.Proofs.Session.Cooldown
import IdleGame.Proofs.Session.Firing
import IdleGame.Proofs.Ron.Spelling
import IdleGame.Proofs.Float.Special
import IdleGame.Proofs.Ron.Datum
import IdleGame.Proofs.Snapshot.Roundtrip
import IdleGame.Proofs.Entity.Edit
import IdleGame.Proofs.Session.Observation
import IdleGame.Proofs.Action.Deed
import IdleGame.Proofs.Session.Deed
import IdleGame.Proofs.Session.Delivery
import IdleGame.Proofs.Session.Lifetime
import IdleGame.Proofs.Session.Outbox
import IdleGame.Proofs.Expr.Nodes
import IdleGame.Proofs.Game.Declaration
import IdleGame.Proofs.Game.WellFormed
import IdleGame.Proofs.Session.Storage
import IdleGame.Proofs.Session.Stretch
import IdleGame.Proofs.Session.Time
import IdleGame.Proofs.Session.Autosave
import IdleGame.Proofs.Session.Schedule
import IdleGame.Proofs.Session.Independence
import IdleGame.Proofs.Session.Second
import IdleGame.Proofs.Session.Sale
import IdleGame.Proofs.Session.Fresh
import IdleGame.Proofs.Session.Sharing
import IdleGame.Proofs.Phase.Entry
import IdleGame.Proofs.Session.Journey
import IdleGame.Proofs.Float.Sum
import IdleGame.Proofs.Random.Weighted
import IdleGame.Proofs.Game.Chance
import IdleGame.Proofs.Expr.Composition
import IdleGame.Proofs.Project.Query
import IdleGame.Proofs.Session.Query
import IdleGame.Proofs.Action.Frame
import IdleGame.Proofs.Action.Mute
import IdleGame.Proofs.Game.Mute
import IdleGame.Proofs.Session.Mute
import IdleGame.Proofs.Session.Bound
import IdleGame.Proofs.FileTree
import IdleGame.Proofs.Store.Files
import IdleGame.Proofs.Store.Interruption
import IdleGame.Proofs.Store.Exchange
import IdleGame.Proofs.Project.Payment
import IdleGame.Proofs.Session.Payment
import IdleGame.Proofs.Session.Kinds
import IdleGame.Proofs.Entity.Listing
import IdleGame.Proofs.Entity.Restoration
import IdleGame.Proofs.Action.Step
import IdleGame.Proofs.Action.Balance
import IdleGame.Proofs.Action.Footprint
import IdleGame.Proofs.Random.Proportion
import IdleGame.Proofs.Float.Exact
import IdleGame.Proofs.Random.Period
import IdleGame.Proofs.Game.Assembly
import IdleGame.Proofs.Game.Function
import IdleGame.Proofs.Text.Sign
import IdleGame.Proofs.Message.Template
import IdleGame.Proofs.Float.Unit
import IdleGame.Proofs.Float.Rounding
import IdleGame.Proofs.Float.Difference
import IdleGame.Proofs.Expr.Comparison
import IdleGame.Proofs.Project.Balance
import IdleGame.Proofs.Store.Path
import IdleGame.Proofs.FileTree.Proper
import IdleGame.Proofs.Store.Archive
import IdleGame.Proofs.Store.Listing
import IdleGame.Proofs.Game.Directory
import IdleGame.Proofs.Message.Log
import IdleGame.Proofs.Session.Logbook
import IdleGame.Proofs.World.Reading
