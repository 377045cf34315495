import Rejoinder.Engine.Operation
import Rejoinder.Main
import Rejoinder.Proofs.Beginnings
import Rejoinder.Proofs.Captures
import Rejoinder.Proofs.CommandLine.Spellings
import Rejoinder.Proofs.Engine.Alternates
import Rejoinder.Proofs.Engine.BotVariables
import Rejoinder.Proofs.Engine.Calls
import Rejoinder.Proofs.Engine.Coherence
import Rejoinder.Proofs.Engine.CurrentTopic
import Rejoinder.Proofs.Engine.DefaultTopic
import Rejoinder.Proofs.Engine.Depth
import Rejoinder.Proofs.Engine.Failures
import Rejoinder.Proofs.Engine.Laziness
import Rejoinder.Proofs.Engine.LoadLockstep
import Rejoinder.Proofs.Engine.LoadLog
import Rejoinder.Proofs.Engine.Loading
import Rejoinder.Proofs.Engine.Lockstep
import Rejoinder.Proofs.Engine.Memory
import Rejoinder.Proofs.Engine.Prepared
import Rejoinder.Proofs.Engine.Programs
import Rejoinder.Proofs.Engine.Reachable
import Rejoinder.Proofs.Engine.Redirects
import Rejoinder.Proofs.Engine.Restart
import Rejoinder.Proofs.Engine.Selection
import Rejoinder.Proofs.Engine.Sinks
import Rejoinder.Proofs.Engine.Unbuilt
import Rejoinder.Proofs.Engine.Users
import Rejoinder.Proofs.Engine.Warnings
import Rejoinder.Proofs.Literal
import Rejoinder.Proofs.Outcome
import Rejoinder.Proofs.Pattern.Derivation
import Rejoinder.Proofs.Pattern.Expansion
import Rejoinder.Proofs.Pattern.Expression
import Rejoinder.Proofs.Pattern.Language
import Rejoinder.Proofs.Pattern.Locality
import Rejoinder.Proofs.Pattern.Meaning
import Rejoinder.Proofs.Pattern.Offsets
import Rejoinder.Proofs.Pattern.Pieces
import Rejoinder.Proofs.Pattern.References
import Rejoinder.Proofs.Pattern.Repair
import Rejoinder.Proofs.Pattern.RoundTrip
import Rejoinder.Proofs.Pattern.Shortest
import Rejoinder.Proofs.Pattern.Tiling
import Rejoinder.Proofs.Pattern.WellFormed
import Rejoinder.Proofs.Regex.Captured
import Rejoinder.Proofs.Regex.Distinct
import Rejoinder.Proofs.Regex.Firsts
import Rejoinder.Proofs.Regex.Normalization
import Rejoinder.Proofs.Regex.Simulation
import Rejoinder.Proofs.Regex.Ways
import Rejoinder.Proofs.Script.Faults
import Rejoinder.Proofs.Table
import Rejoinder.Proofs.Target
import Rejoinder.Proofs.Target.Layout
import Rejoinder.Proofs.Target.Reentry
import Rejoinder.Proofs.Template
import Rejoinder.Proofs.Text.Classes
import Rejoinder.Proofs.Text.Fields
import Rejoinder.Proofs.Text.Lowercase
import Rejoinder.Proofs.Text.Words
import Rejoinder.Proofs.Topic.Build
import Rejoinder.Proofs.Topic.Index
import Rejoinder.Proofs.Topic.Ranking
import Rejoinder.Proofs.Topic.Registration
import Rejoinder.Proofs.Topic.Relabel
