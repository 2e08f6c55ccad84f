import BugFeed.Metrics.Exposition
import BugFeed.Settings.Load
import BugFeed.Simulation.Consumer
import BugFeed.Wire.Event
import BugFeed.Wire.Settings
import BugFeed.Proofs.Time.Order
import BugFeed.Proofs.Watch.Batch
import BugFeed.Proofs.Watch.Run
import BugFeed.Proofs.Watch.Polls
import BugFeed.Proofs.Watch.Delivery
import BugFeed.Proofs.Watch.Resumption
import BugFeed.Proofs.Time.Calendar
import BugFeed.Proofs.Time.Token
import BugFeed.Proofs.Informer.Run
import BugFeed.Proofs.Store.Contents
import BugFeed.Proofs.Informer.Opening
import BugFeed.Proofs.Informer.Superseded
import BugFeed.Proofs.Informer.Server
import BugFeed.Proofs.Informer.World
import BugFeed.Proofs.Informer.Mirror
import BugFeed.Proofs.Informer.Convergence
import BugFeed.Proofs.Watch.Channel
import BugFeed.Proofs.Watch.Order
import BugFeed.Proofs.Watch.Repeats
import BugFeed.Proofs.Watch.Due
import BugFeed.Proofs.Watch.Ending
import BugFeed.Watch.Task
import BugFeed.Proofs.Watch.Threads
import BugFeed.Proofs.Watch.Cut
import BugFeed.Proofs.Watch.Stream
import BugFeed.Proofs.Watch.Handoff
import BugFeed.Proofs.Informer.Tokens
import BugFeed.Proofs.Informer.NextSearch
import BugFeed.Proofs.Informer.Cycle
import BugFeed.Proofs.Informer.Frame
import BugFeed.Proofs.Watch.Signals
import BugFeed.Proofs.Informer.Sessions
import BugFeed.Proofs.Informer.Shutdown
import BugFeed.Proofs.Watch.Balance
import BugFeed.Proofs.Informer.Counters
import BugFeed.Proofs.Text.Digits
import BugFeed.Proofs.Time.Relaxed
import BugFeed.Proofs.Json.Reading
import BugFeed.Proofs.Json.Decoding
import BugFeed.Proofs.Wire.RoundTrip
import BugFeed.Proofs.Settings.Laying
import BugFeed.Proofs.Settings.Keys
import BugFeed.Proofs.Settings.Assignments
import BugFeed.Proofs.Settings.Layers
import BugFeed.Proofs.Watch.Kinds
import BugFeed.Proofs.Watch.Hiding
import BugFeed.Proofs.Watch.Pacing
import BugFeed.Proofs.Retry.Attempts
import BugFeed.Proofs.Informer.Listing
import BugFeed.Proofs.Retry.Backoff
import BugFeed.Proofs.Time.SecondOfToken
import BugFeed.Proofs.Store.LatestCopy
import BugFeed.Proofs.Store.Lookup
import BugFeed.Proofs.Informer.Copies
import BugFeed.Proofs.Informer.Pauses
import BugFeed.Proofs.Informer.Relists
import BugFeed.Proofs.Watch.NextVisible
import BugFeed.Proofs.Time.DayCount
import BugFeed.Proofs.Time.Spelling
import BugFeed.Proofs.Time.Range
import BugFeed.Proofs.Watch.InRange
import BugFeed.Proofs.Informer.InRange
