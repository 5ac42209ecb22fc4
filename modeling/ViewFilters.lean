import ViewFilters.Main
import ViewFilters.Proofs.Value.Lists
import ViewFilters.Proofs.Filter.ReadBack
import ViewFilters.Proofs.Filter.Empty
import ViewFilters.Proofs.Criteria.ReadBack
import ViewFilters.Proofs.Criteria.LastWins
import ViewFilters.Proofs.Json.ReadBack
import ViewFilters.Proofs.Config.ReadBack
import ViewFilters.Proofs.FetchGate.Trace
import ViewFilters.Proofs.Editor.Outcome
import ViewFilters.Proofs.Editor.Agreement
import ViewFilters.Proofs.Editor.Protection
import ViewFilters.Proofs.Editor.Arrival
import ViewFilters.Proofs.Editor.Reload
import ViewFilters.Proofs.Editor.Opening
import ViewFilters.Proofs.Editor.Hidden
import ViewFilters.Proofs.View.Current
import ViewFilters.Proofs.View.Project
import ViewFilters.Proofs.View.Protection
import ViewFilters.Proofs.View.Scope
import ViewFilters.Proofs.View.Valid
import ViewFilters.Proofs.Cli.Chain
import ViewFilters.Proofs.Filter.WriteBack
import ViewFilters.Proofs.Criteria.Arrival
import ViewFilters.Proofs.Request.Joined
import ViewFilters.Proofs.Editor.Answer
import ViewFilters.Proofs.View.Stale
import ViewFilters.Proofs.Editor.Frame
import ViewFilters.Proofs.View.RawInput
import ViewFilters.Proofs.Editor.Commute
import ViewFilters.Proofs.View.Repeat
import ViewFilters.Proofs.View.Failure
import ViewFilters.Proofs.Filter.Normal
import ViewFilters.Proofs.Request.Tokens
import ViewFilters.Proofs.Cli.SetValues
import ViewFilters.Proofs.Editor.Draft
import ViewFilters.Proofs.History.Trail
import ViewFilters.Proofs.Json.Grammar
import ViewFilters.Proofs.Config.Partial
import ViewFilters.Proofs.Cli.Pagination
