import BoxNewton.CutPolynomial
import BoxNewton.Minimizer
import BoxNewton.Operator
import BoxNewton.Proofs.CurrentPoint
import BoxNewton.Proofs.ModelDecrease
import BoxNewton.Proofs.RadiusUpdate
import BoxNewton.Proofs.Rollback
import BoxNewton.Proofs.RadiusDecrease
import BoxNewton.Proofs.FloatingPoint
import BoxNewton.Proofs.RadiusLaw
import BoxNewton.Proofs.RadiusRange
import BoxNewton.Proofs.ObjectiveChange
import BoxNewton.Proofs.TruncatedRun
import BoxNewton.Proofs.TruncatedDescent
import BoxNewton.Proofs.TruncatedTermination
import BoxNewton.Proofs.SecantUpdate
import BoxNewton.Proofs.SecantHistory
import BoxNewton.Proofs.SecantMatrix
import BoxNewton.Proofs.SecantStore
import BoxNewton.Proofs.EvaluationLog
import BoxNewton.Proofs.Counterparts
import BoxNewton.Proofs.CombinedEvaluation
import BoxNewton.Proofs.FreshSolver
import BoxNewton.Proofs.Chronicle
import BoxNewton.Proofs.Budgets
import BoxNewton.Proofs.CarriedValue
import BoxNewton.Proofs.StepBookkeeping
import BoxNewton.Proofs.ExactIteration
import BoxNewton.Proofs.TrialSteps
import BoxNewton.Proofs.AcceptedSteps
import BoxNewton.Proofs.RefinementTermination
import BoxNewton.Proofs.RefinementBudget
import BoxNewton.Proofs.SearchLength
import BoxNewton.Proofs.CauchyLength
import BoxNewton.Proofs.MeasuredDecrease
import BoxNewton.Proofs.CauchyTermination
import BoxNewton.Proofs.PathBreakpoints
import BoxNewton.Proofs.Stationarity
import BoxNewton.Proofs.Projection
import BoxNewton.Proofs.StepLength
import BoxNewton.Proofs.Restriction
import BoxNewton.Proofs.StoppingCriterion
import BoxNewton.Proofs.Refusal
import BoxNewton.Proofs.BoundaryStep
import BoxNewton.Proofs.BenchmarkDerivatives
import BoxNewton.Proofs.ForwardDifferences
