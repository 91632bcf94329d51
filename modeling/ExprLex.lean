import ExprLex.Main
import ExprLex.Session.Call
import ExprLex.Proofs.Coverage
import ExprLex.Proofs.Lines
import ExprLex.Proofs.RoundTrip
import ExprLex.Proofs.Strictness
import ExprLex.Proofs.Bookkeeping
import ExprLex.Proofs.SymbolBoundary
import ExprLex.Proofs.LookBehind
import ExprLex.Proofs.LineEnds
import ExprLex.Proofs.Taking
import ExprLex.Proofs.TokenForms
import ExprLex.Proofs.Extension
import ExprLex.Proofs.Resumption
import ExprLex.Proofs.Blanks
import ExprLex.Proofs.OpenQuotes
import ExprLex.Proofs.Faults
import ExprLex.Proofs.Listing
import ExprLex.Proofs.BareReading
import ExprLex.Proofs.Classification
import ExprLex.Proofs.SymbolsInSight
import ExprLex.Proofs.Dump
import ExprLex.Proofs.StoredText
import ExprLex.Proofs.Trace
import ExprLex.Proofs.NumeralValues
import ExprLex.Proofs.Lexemes
import ExprLex.Proofs.Rendering
