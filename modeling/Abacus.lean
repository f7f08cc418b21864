import Abacus.Batch.Heard
import Abacus.Main
import Abacus.Proofs.Batch.Continue
import Abacus.Proofs.Batch.Heard
import Abacus.Proofs.Batch.Layout
import Abacus.Proofs.Batch.Misread
import Abacus.Proofs.Batch.Run
import Abacus.Proofs.Binary64.Finite
import Abacus.Proofs.Binary64.Normal
import Abacus.Proofs.Binary64.Whole
import Abacus.Proofs.Build.Balance
import Abacus.Proofs.Build.Ballot
import Abacus.Proofs.Build.Conservation
import Abacus.Proofs.Build.Outcome
import Abacus.Proofs.Build.Parentheses
import Abacus.Proofs.Build.Rejection
import Abacus.Proofs.Build.RoundTrip
import Abacus.Proofs.Build.Safety
import Abacus.Proofs.Build.Simulation
import Abacus.Proofs.Build.Unknown
import Abacus.Proofs.Log.Calls
import Abacus.Proofs.Log.Replay
import Abacus.Proofs.Steps
import Abacus.Proofs.Tree.Groups
import Abacus.Proofs.Tree.Identity
import Abacus.Proofs.Tree.Levels
import Abacus.Proofs.Tree.Links
import Abacus.Proofs.Tree.Memo
import Abacus.Proofs.Tree.Recursion
import Abacus.Proofs.Tree.Survey
import Abacus.Proofs.Tree.Validity
import Abacus.Proofs.Value.Cause
import Abacus.Proofs.Value.Evaluate
import Abacus.Proofs.Value.Faults
import Abacus.Proofs.Value.Integers
import Abacus.Proofs.Value.Rational
import Abacus.Proofs.Value.Symbolic
import Abacus.Tree.Identity
import Abacus.Tree.Memo
import Abacus.Tree.Sketch
import Abacus.Tree.Survey
import Abacus.Value.Agreement
