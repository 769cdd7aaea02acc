import Stencil.Main
import Stencil.Proofs.Run.Settle
import Stencil.Proofs.Token.Grammar
import Stencil.Trigger.Scripted
import Stencil.Proofs.Project.Regen
import Stencil.Proofs.Run.Plan
import Stencil.Proofs.Run.Stages
import Stencil.Proofs.Run.Bounds
import Stencil.Proofs.Run.Removed
import Stencil.Proofs.Token.RoundTrip
import Stencil.Proofs.Run.FixedPoint
import Stencil.Proofs.Project.Fresh
import Stencil.Proofs.Emit.Emitter
import Stencil.Proofs.Schema.Memo
import Stencil.Proofs.Trigger.Quiet
import Stencil.Proofs.Run.Alone
import Stencil.Proofs.Emit.Key
import Stencil.Proofs.Run.Opened
import Stencil.Proofs.Run.Flushed
import Stencil.Proofs.Run.Refused
import Stencil.Proofs.Run.EachTable
import Stencil.Proofs.Run.MorePasses
import Stencil.Proofs.Disk.Earlier
import Stencil.Proofs.Project.Isolated
import Stencil.Proofs.Project.Settings
import Stencil.Proofs.Disk.Whole
import Stencil.Proofs.Project.Stable
import Stencil.Proofs.Context.Lineage
import Stencil.Proofs.Run.Counted
import Stencil.Proofs.Run.Checked
import Stencil.Proofs.Run.Bound
import Stencil.Proofs.Token.Slice
import Stencil.Proofs.Token.Offsets
import Stencil.Proofs.Token.Spans
import Stencil.Proofs.Run.Sliced
import Stencil.Proofs.Run.Replaced
import Stencil.Proofs.Run.Conditional
import Stencil.Proofs.Run.Substituted
import Stencil.Proofs.Run.Ignored
import Stencil.Proofs.Text.Breaks
import Stencil.Proofs.Emit.Placed
import Stencil.Proofs.Emit.Split
import Stencil.Proofs.Run.Answered
import Stencil.Proofs.Emit.Listed
import Stencil.Proofs.Emit.Aligned
import Stencil.Proofs.Emit.Declared
import Stencil.Proofs.Schema.Shape
import Stencil.Proofs.Emit.Members
import Stencil.Proofs.Naming
import Stencil.Proofs.Emit.Distinct
import Stencil.Proofs.Text.Reading
import Stencil.Proofs.Schema.Lookups
import Stencil.Proofs.Schema.Inserted
import Stencil.Proofs.Project.Outputs
import Stencil.Proofs.Trigger.Registered
import Stencil.Proofs.Path.Below
import Stencil.Proofs.Project.Programs
import Stencil.Proofs.Project.Records
import Stencil.Proofs.Emit.Comments
import Stencil.Proofs.CommandLine.Roles
