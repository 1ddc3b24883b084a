import SourceFlags.Main
import SourceFlags.Project.Located
import SourceFlags.Proofs.Automake.Bindings
import SourceFlags.Proofs.Automake.Expanding
import SourceFlags.Proofs.Automake.Flags
import SourceFlags.Proofs.Automake.Preorder
import SourceFlags.Proofs.BuildDescription.RoundTrip
import SourceFlags.Proofs.Loader.Gate
import SourceFlags.Proofs.Loader.History
import SourceFlags.Proofs.Loader.Reload
import SourceFlags.Proofs.Matcher.Location
import SourceFlags.Proofs.Matcher.Memory
import SourceFlags.Proofs.Project.Calls
import SourceFlags.Proofs.Project.Components
import SourceFlags.Proofs.Project.Mirror
import SourceFlags.Proofs.Registry.Newcomer
import SourceFlags.Proofs.Registry.Ownership
import SourceFlags.Proofs.Registry.Tiers
import SourceFlags.Proofs.Registry.Transferred
import SourceFlags.Proofs.Registry.Uppermost
import SourceFlags.Proofs.SExpr.Grammar
import SourceFlags.Proofs.SExpr.Printing
import SourceFlags.Proofs.Session.Arguments
import SourceFlags.Proofs.Session.Degrading
import SourceFlags.Proofs.Session.Recall
import SourceFlags.Proofs.Toolchain.Configured
import SourceFlags.Proofs.Toolchain.Contained
import SourceFlags.Proofs.Toolchain.Definitions
import SourceFlags.Proofs.Toolchain.Directives
import SourceFlags.Proofs.Toolchain.Learning
import SourceFlags.Proofs.Toolchain.Persistence
import SourceFlags.Proofs.Toolchain.SearchBlock
import SourceFlags.Proofs.Toolchain.Settling
import SourceFlags.Proofs.Toolchain.Sharing
import SourceFlags.Proofs.Toolchain.Transcript
