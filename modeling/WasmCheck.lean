import WasmCheck.Diagnostic
import WasmCheck.Types.Decode
import WasmCheck.Types.Limits
import WasmCheck.Attempt
import WasmCheck.Stack.Ops
import WasmCheck.Locals
import WasmCheck.Value
import WasmCheck.Instr.Basic
import WasmCheck.Config
import WasmCheck.Module.Declarations
import WasmCheck.Body.Checker
import WasmCheck.Report
import WasmCheck.Table.Change
import WasmCheck.Table.Store
import WasmCheck.Proofs.Outcome
import WasmCheck.Proofs.Stack.Innermost
import WasmCheck.Proofs.Typing.Basic
import WasmCheck.Proofs.Typing.Signature
import WasmCheck.Proofs.Typing.Covers
import WasmCheck.Proofs.Body.Rules
import WasmCheck.Proofs.Body.Run
import WasmCheck.Proofs.Typing.Soundness
import WasmCheck.Proofs.Typing.Completeness
import WasmCheck.Proofs.Body.Invariant
import WasmCheck.Proofs.Table.Uniform
import WasmCheck.Proofs.Table.Agreement
import WasmCheck.Proofs.Table.Writes
import WasmCheck.Proofs.Table.History
import WasmCheck.Proofs.Lockstep
import WasmCheck.Proofs.Stack.Alike
import WasmCheck.Proofs.Body.Isolation
import WasmCheck.Proofs.Body.Congruence
import WasmCheck.Proofs.Stack.Looser
import WasmCheck.Proofs.Body.DeadCode
import WasmCheck.Proofs.Report.FailFast
import WasmCheck.Proofs.Body.Limits
import WasmCheck.Proofs.Body.Surroundings
import WasmCheck.Proofs.Body.Blame
import WasmCheck.Proofs.Stack.History
import WasmCheck.Proofs.Body.Branches
import WasmCheck.Proofs.Module.WellDeclared
import WasmCheck.Proofs.Table.Allocation
import WasmCheck.Proofs.Stack.Sequences
import WasmCheck.Proofs.Body.Reopening
import WasmCheck.Proofs.Body.EmptyElse
import WasmCheck.Proofs.Table.Bulk
import WasmCheck.Proofs.Table.Footprint
import WasmCheck.Proofs.Table.Operands
import WasmCheck.Proofs.Table.Independence
import WasmCheck.Proofs.Table.Growth
import WasmCheck.Proofs.Body.Locals
import WasmCheck.Proofs.Module.Indices
import WasmCheck.Proofs.Report.Rendering
import WasmCheck.Proofs.Report.Logging
