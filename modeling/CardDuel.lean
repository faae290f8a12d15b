import CardDuel.Codec.Card
import CardDuel.Codec.Match
import CardDuel.Decimal.Literal
import CardDuel.Proofs.Catalog.Lookup
import CardDuel.Proofs.Catalog.Specials
import CardDuel.Proofs.Codec.Fields
import CardDuel.Proofs.Codec.Members
import CardDuel.Proofs.Codec.Order
import CardDuel.Proofs.Codec.RoundTrip
import CardDuel.Proofs.Dice.Labels
import CardDuel.Proofs.Dice.Probability
import CardDuel.Proofs.Dice.StreamSeeds
import CardDuel.Proofs.Engine.Addressed
import CardDuel.Proofs.Engine.Behaviour
import CardDuel.Proofs.Engine.CallProtocol
import CardDuel.Proofs.Engine.Gating
import CardDuel.Proofs.Engine.Occasion
import CardDuel.Proofs.Engine.ReturnContract
import CardDuel.Proofs.Engine.ValidatedOnce
import CardDuel.Proofs.Engine.Visits
import CardDuel.Proofs.Firing.AllyCoherence
import CardDuel.Proofs.Firing.Change
import CardDuel.Proofs.Firing.Confined
import CardDuel.Proofs.Firing.Memory
import CardDuel.Proofs.Firing.Plan
import CardDuel.Proofs.Firing.Target
import CardDuel.Proofs.Firing.Visits
import CardDuel.Proofs.Judge.CatchChance
import CardDuel.Proofs.Judge.NotFinite
import CardDuel.Proofs.Rounding.Arithmetic
import CardDuel.Proofs.Rounding.Basic
import CardDuel.Proofs.Rounding.Floats
import CardDuel.Proofs.Rounding.Infinite
import CardDuel.Proofs.Rounding.Nearest
import CardDuel.Proofs.Rounding.Value
import CardDuel.Proofs.Sandbox.Accumulation
import CardDuel.Proofs.Sandbox.Agreement
import CardDuel.Proofs.Sandbox.Applications
import CardDuel.Proofs.Sandbox.Candidates
import CardDuel.Proofs.Sandbox.Cleansing
import CardDuel.Proofs.Sandbox.DeckPrefix
import CardDuel.Proofs.Sandbox.DrawTally
import CardDuel.Proofs.Sandbox.Draws
import CardDuel.Proofs.Sandbox.EventFrame
import CardDuel.Proofs.Sandbox.Evolution
import CardDuel.Proofs.Sandbox.FreshIds
import CardDuel.Proofs.Sandbox.Independence
import CardDuel.Proofs.Sandbox.Noninterference
import CardDuel.Proofs.Sandbox.Penalties
import CardDuel.Proofs.Sandbox.Play
import CardDuel.Proofs.Sandbox.Records
import CardDuel.Proofs.Sandbox.Replacement
import CardDuel.Proofs.Sandbox.Resistance
import CardDuel.Proofs.Sandbox.Search
import CardDuel.Proofs.Sandbox.Selection
import CardDuel.Proofs.Sandbox.Skipped
import CardDuel.Proofs.Sandbox.Sources
import CardDuel.Proofs.Sandbox.Splitting
import CardDuel.Proofs.Sandbox.Standing
import CardDuel.Proofs.Sandbox.Timeline
import CardDuel.Proofs.Sandbox.TruthfulLog
import CardDuel.Proofs.Sandbox.WellFormed
import CardDuel.Proofs.Script.Lockstep
import CardDuel.Proofs.Script.Moments
import CardDuel.Proofs.Validation.Locality
import CardDuel.Proofs.Validation.Places
import CardDuel.Proofs.Validation.Schema
import CardDuel.Proofs.Validation.Violations
import CardDuel.Rehearsal
