import FluidScss.Main
import FluidScss.Watch.Event
import FluidScss.Proofs.Action
import FluidScss.Proofs.FileTree
import FluidScss.Proofs.Workspace
import FluidScss.Proofs.Session
import FluidScss.Proofs.Text
import FluidScss.Proofs.Chunk
import FluidScss.Proofs.Construct
import FluidScss.Proofs.HandWritten
import FluidScss.Proofs.LineScan
import FluidScss.Proofs.OverrideSheet
import FluidScss.Proofs.WriteSafety
import FluidScss.Proofs.Overwrite
import FluidScss.Proofs.SafeWrite
import FluidScss.Proofs.Gather
import FluidScss.Proofs.OwnOutput
import FluidScss.Proofs.Provenance
import FluidScss.Proofs.EntryOutput
import FluidScss.Proofs.Regeneration
import FluidScss.Proofs.EntryBatch
import FluidScss.Proofs.Confined
import FluidScss.Proofs.Convergence
import FluidScss.Proofs.ManagedStamp
import FluidScss.Proofs.CssSync
import FluidScss.Proofs.SyncSafety
import FluidScss.Proofs.SyncAgain
import FluidScss.Proofs.Bootstrap
import FluidScss.Proofs.Regex
import FluidScss.Proofs.Terminals
import FluidScss.Proofs.Lexing
import FluidScss.Proofs.Derivation
import FluidScss.Proofs.Acceptance
import FluidScss.Proofs.JsonRoundTrip
import FluidScss.Proofs.Registration
import FluidScss.Proofs.KitFault
import FluidScss.Proofs.MissingEntry
import FluidScss.Proofs.WatchFilter
import FluidScss.Proofs.SelfContained
import FluidScss.Proofs.MarkerCall
import FluidScss.Proofs.Settings
import FluidScss.Proofs.Stopping
import FluidScss.Proofs.SyncStops
import FluidScss.Proofs.EntryStops
import FluidScss.Proofs.ChangeStops
import FluidScss.Proofs.Merging
import FluidScss.Proofs.Collection
import FluidScss.Proofs.StringEnd
import FluidScss.Proofs.ClampAgain
import FluidScss.Proofs.Boundary
import FluidScss.Proofs.Placement
import FluidScss.Proofs.Ignored
import FluidScss.Proofs.CommentedOut
import FluidScss.Proofs.Concatenation
import FluidScss.Proofs.Written
import FluidScss.Proofs.QuotedCall
import FluidScss.Proofs.AtRuleLines
import FluidScss.Proofs.Setup
import FluidScss.Proofs.SourceComment
import FluidScss.Proofs.Discovery
import FluidScss.Proofs.Spelling
import FluidScss.Proofs.Respelling
import FluidScss.Proofs.SelectorInForce
import FluidScss.Proofs.PixelSizes
import FluidScss.Proofs.Lockstep
import FluidScss.Proofs.Splitting
import FluidScss.Proofs.StackHistory
