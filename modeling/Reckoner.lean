import Reckoner.Function.Stock
import Reckoner.Main
import Reckoner.Proofs.Descent.Termination
import Reckoner.Proofs.Display.Words
import Reckoner.Proofs.Emptiness.Runs
import Reckoner.Proofs.Errors.Sessions
import Reckoner.Proofs.Evaluation.Footprint
import Reckoner.Proofs.Evaluation.Notices
import Reckoner.Proofs.Factorials.Fractions
import Reckoner.Proofs.Factorials.Integral
import Reckoner.Proofs.Grammar.Parsing
import Reckoner.Proofs.Log.Consistency
import Reckoner.Proofs.Log.Truncation
import Reckoner.Proofs.Log.Window
import Reckoner.Proofs.Modes.Integers
import Reckoner.Proofs.Pushdown.Completion
import Reckoner.Proofs.Pushdown.Layout
import Reckoner.Proofs.Rounding.Escalation
import Reckoner.Proofs.Rounding.Functions
import Reckoner.Proofs.Rounding.Hosts
import Reckoner.Proofs.Rounding.Literals
import Reckoner.Proofs.Scanning.Concatenation
import Reckoner.Proofs.Scanning.Tokens
import Reckoner.Proofs.Sessions.Answer
import Reckoner.Proofs.Sessions.Assignment
import Reckoner.Proofs.Sessions.Failure
import Reckoner.Proofs.Sessions.History
import Reckoner.Proofs.Sessions.Logging
import Reckoner.Proofs.Sessions.Presets
import Reckoner.Proofs.Sessions.Trace
import Reckoner.Proofs.Stack.Safety
import Reckoner.Proofs.Values.Invariant
import Reckoner.Proofs.Values.Registers
