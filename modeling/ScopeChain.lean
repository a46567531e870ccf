import ScopeChain.Cell.Script
import ScopeChain.Proofs.Assignment
import ScopeChain.Proofs.DefinitionOrder
import ScopeChain.Proofs.Reclaiming
import ScopeChain.Proofs.WrittenValues
import ScopeChain.Session.Run
import ScopeChain.Proofs.EnteredScopes
import ScopeChain.Proofs.GuardedStack
import ScopeChain.Proofs.LexicalCalls
import ScopeChain.Proofs.NameIndependence
import ScopeChain.Proofs.ChainShape
import ScopeChain.Proofs.GlobalScopes
import ScopeChain.Proofs.Moments
import ScopeChain.Proofs.Provenance
import ScopeChain.Proofs.Reports
import ScopeChain.Proofs.RunEnding
import ScopeChain.Proofs.ImmutableBindings
import ScopeChain.Proofs.Visibility
import ScopeChain.Proofs.DepthLimit
import ScopeChain.Proofs.StackInvariant
import ScopeChain.Proofs.EventAccounts
import ScopeChain.Proofs.ValueEquality
import ScopeChain.Proofs.Delimited
import ScopeChain.Proofs.Quotation
import ScopeChain.Proofs.ValueText
import ScopeChain.Proofs.ListingText
import ScopeChain.Proofs.Trimming
import ScopeChain.Proofs.Variables
import ScopeChain.Proofs.PolicyNames
import ScopeChain.Proofs.ExactIntegers
import ScopeChain.Proofs.SharedHandles
import ScopeChain.Proofs.CellEffects
import ScopeChain.Proofs.SharedContents
import ScopeChain.Proofs.CellRuns
import ScopeChain.Proofs.CellScripts
import ScopeChain.Proofs.Payloads
import ScopeChain.Proofs.HandleCensus
import ScopeChain.Proofs.WorldParts
import ScopeChain.Proofs.ReclaimedStore
import ScopeChain.Proofs.CarriedValues
import ScopeChain.Proofs.FollowedRuns
import ScopeChain.Proofs.CommandRuns
import ScopeChain.Proofs.ScriptRuns
