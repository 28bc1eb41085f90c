import RainCheck.Expectation
import RainCheck.Main
import RainCheck.Proofs.Accepted
import RainCheck.Proofs.Addresses
import RainCheck.Proofs.AnyOrder
import RainCheck.Proofs.Binding
import RainCheck.Proofs.Calls
import RainCheck.Proofs.Containment
import RainCheck.Proofs.Environments
import RainCheck.Proofs.FailFast
import RainCheck.Proofs.FoldingOption
import RainCheck.Proofs.Gating
import RainCheck.Proofs.Histories
import RainCheck.Proofs.Isolation
import RainCheck.Proofs.Layout
import RainCheck.Proofs.Locations
import RainCheck.Proofs.Munching
import RainCheck.Proofs.Nesting
import RainCheck.Proofs.ReadBack
import RainCheck.Proofs.Relexing
import RainCheck.Proofs.Recompilation
import RainCheck.Proofs.Conditions
import RainCheck.Proofs.StructStates
import RainCheck.Proofs.TypeText
import RainCheck.Proofs.RecoveringExpr
import RainCheck.Proofs.Reporting
import RainCheck.Proofs.Statements
import RainCheck.Proofs.Signatures
import RainCheck.Proofs.Preparation
import RainCheck.Proofs.NamesAlike
import RainCheck.Proofs.Reordering
import RainCheck.Proofs.Expectations
import RainCheck.Proofs.TokenClasses
import RainCheck.Proofs.Mirroring
import RainCheck.Proofs.Bits
import RainCheck.Proofs.Printing
import RainCheck.Proofs.ExportTables
import RainCheck.Proofs.Saturation
