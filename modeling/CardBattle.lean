import CardBattle.Engine
import CardBattle.Format.Operation
import CardBattle.Format.Session
import CardBattle.Proofs.Accepted
import CardBattle.Proofs.AcceptedCalls
import CardBattle.Proofs.Alterations
import CardBattle.Proofs.Atomicity
import CardBattle.Proofs.AttackSpacing
import CardBattle.Proofs.Batches
import CardBattle.Proofs.Blindness
import CardBattle.Proofs.Bookkeeping
import CardBattle.Proofs.CacheHistory
import CardBattle.Proofs.CallLogs
import CardBattle.Proofs.Capabilities
import CardBattle.Proofs.CardForms
import CardBattle.Proofs.CardHistory
import CardBattle.Proofs.Changes
import CardBattle.Proofs.Checks
import CardBattle.Proofs.Conservation
import CardBattle.Proofs.Containment
import CardBattle.Proofs.CopyChanges
import CardBattle.Proofs.CutOffs
import CardBattle.Proofs.Dealing
import CardBattle.Proofs.DeckCopies
import CardBattle.Proofs.DeckOrders
import CardBattle.Proofs.DefinitionLoads
import CardBattle.Proofs.DocumentHistory
import CardBattle.Proofs.DocumentViews
import CardBattle.Proofs.Endings
import CardBattle.Proofs.EnergyLedger
import CardBattle.Proofs.Exchanges
import CardBattle.Proofs.Forms
import CardBattle.Proofs.Formulas
import CardBattle.Proofs.Frames
import CardBattle.Proofs.GameOver
import CardBattle.Proofs.HeedlessPlays
import CardBattle.Proofs.HeedlessScripts
import CardBattle.Proofs.HeedlessUpdates
import CardBattle.Proofs.Histories
import CardBattle.Proofs.Interleaving
import CardBattle.Proofs.LegalAttacks
import CardBattle.Proofs.Lifelines
import CardBattle.Proofs.LogGrowth
import CardBattle.Proofs.NewGames
import CardBattle.Proofs.Observers
import CardBattle.Proofs.OpeningHands
import CardBattle.Proofs.Openings
import CardBattle.Proofs.Orderly
import CardBattle.Proofs.Outcomes
import CardBattle.Proofs.PlayableCards
import CardBattle.Proofs.Playing
import CardBattle.Proofs.QuietTurns
import CardBattle.Proofs.Refusals
import CardBattle.Proofs.Rematches
import CardBattle.Proofs.Rotation
import CardBattle.Proofs.RoundTrips
import CardBattle.Proofs.RulesAsSteps
import CardBattle.Proofs.RunRules
import CardBattle.Proofs.SceneViews
import CardBattle.Proofs.Scopes
import CardBattle.Proofs.ScriptForms
import CardBattle.Proofs.ScriptQueue
import CardBattle.Proofs.Seating
import CardBattle.Proofs.SessionViews
import CardBattle.Proofs.Settling
import CardBattle.Proofs.SiteRuns
import CardBattle.Proofs.Soundness
import CardBattle.Proofs.Starts
import CardBattle.Proofs.StaticSources
import CardBattle.Proofs.StepsAsMotions
import CardBattle.Proofs.Strikes
import CardBattle.Proofs.Sweeps
import CardBattle.Proofs.TargetChoices
import CardBattle.Proofs.Targets
import CardBattle.Proofs.TriggerPasses
import CardBattle.Proofs.TurnSteps
import CardBattle.Proofs.TwoRuns
import CardBattle.Proofs.UnclampedAmounts
import CardBattle.Proofs.Updates
import CardBattle.Proofs.Verdicts
import CardBattle.Proofs.VisibleState
import CardBattle.Proofs.Visits
import CardBattle.Proofs.WellFormed
import CardBattle.Proofs.ZoneRequests
import CardBattle.Session.Invariant
