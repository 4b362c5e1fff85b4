import OnePass.Analysis
import OnePass.CommandLine
import OnePass.Main
import OnePass.Proofs.Blame
import OnePass.Proofs.Calls
import OnePass.Proofs.Concatenation
import OnePass.Proofs.Descent.Progress
import OnePass.Proofs.Journal.Chronicle
import OnePass.Proofs.Journal.Trace
import OnePass.Proofs.Lexicon.Places
import OnePass.Proofs.Lexicon.Respacing
import OnePass.Proofs.Numbers.Verdict
import OnePass.Proofs.Precedence
import OnePass.Proofs.Report.Whereabouts
import OnePass.Proofs.Respelling
import OnePass.Proofs.Scopes.Arena
import OnePass.Proofs.Scopes.Continue
import OnePass.Proofs.Scopes.Decoding
import OnePass.Proofs.Scopes.History
import OnePass.Proofs.Scopes.Nest
import OnePass.Proofs.Shape
import OnePass.Scopes.Outline
