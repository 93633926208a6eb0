import WasmCheck.Body.Checker
import WasmCheck.Module.Declarations
import WasmCheck.Log.Registry

/-!
# Reports

The check of a whole module: its declarations first, then one body after the other. The first
failure decides: what comes after it is skipped. While the report grows, each verdict is logged.

Bodies that are checked at the same time are checked to the end, all of them; the report does not
show it, because nothing behind the first failure counts.
-/

namespace WasmCheck

inductive Verdict where
  | accepted
  | rejected
  /-- Something failed before. -/
  | skipped
deriving DecidableEq, Repr, Inhabited

def Verdict.name : Verdict → String
  | accepted => "Accepted"
  | rejected => "Rejected"
  | skipped => "Skipped"

def Verdict.record (v : Verdict) (index : UInt32) (d : Option Diagnostic) : LogRecord :=
  match v, d with
  | accepted, _ => ⟨.debug, some index, "accepted"⟩
  | rejected, some d => ⟨.error, some index, "rejected: " ++ d.message⟩
  | rejected, none => ⟨.error, some index, "rejected"⟩
  | skipped, _ => ⟨.warn, some index, "skipped after an earlier failure"⟩

/-- One verdict for each defined function, and what was found wrong. -/
structure Report where
  verdicts : List Verdict
  diagnostics : List Diagnostic
deriving DecidableEq, Repr, Inhabited

namespace Report

def empty : Report := ⟨[], []⟩

def isValid (r : Report) : Bool := r.diagnostics.isEmpty

def first (r : Report) : Option Diagnostic := r.diagnostics.head?

def toExcept (r : Report) : Except Diagnostic Unit :=
  match r.first with
  | some d => .error d
  | none => .ok ()

/-- The report with the verdict on one more function, given the outcome of its check, if it was
checked at all. -/
def judge (r : Report) (outcome : Option (Except Diagnostic Unit)) : Verdict × Report :=
  match r.isValid, outcome with
  | true, some (.ok ()) => (.accepted, { r with verdicts := r.verdicts ++ [.accepted] })
  | true, some (.error d) =>
    (.rejected, ⟨r.verdicts ++ [.rejected], r.diagnostics ++ [d]⟩)
  | true, none | false, _ => (.skipped, { r with verdicts := r.verdicts ++ [.skipped] })

/-- Judges `n` functions from an index on, and logs each verdict. -/
def judgeAll {m : Type → Type} [Monad m] (log : LogRecord → m Unit) (index : Nat) :
    Nat → List (Except Diagnostic Unit) → Report → m Report
  | 0, _, r => pure r
  | n + 1, outcomes, r => do
    let (v, r) := r.judge outcomes.head?
    log (v.record (UInt32.ofNatClamp index) r.first)
    judgeAll log (index + 1) n outcomes.tail r

end Report

/-- A list in batches of `n + 1` entries; the last batch may be shorter. -/
def batches {α : Type} (n : Nat) : List α → List (List α)
  | [] => []
  | a :: as => (a :: as.take n) :: batches n (as.drop n)
termination_by as => as.length
decreasing_by simp only [List.length_drop, List.length_cons]; omega

theorem flatten_batches {α : Type} (n : Nat) (as : List α) : (batches n as).flatten = as := by
  fun_induction batches n as with
  | case1 => rfl
  | case2 a as ih => simp [ih]

namespace Module

/-- The outcomes of some bodies, up to the first failure. -/
def outcomesUntilFailure (m : Module) (config : Config) :
    List FunctionBody → List (Except Diagnostic Unit)
  | [] => []
  | b :: bs =>
    match m.checkBody config b with
    | .ok () => .ok () :: m.outcomesUntilFailure config bs
    | .error d => [.error d]

/-- The outcomes of all bodies, in batches of `n + 1` that do not depend on each other. -/
def outcomesInBatches (m : Module) (config : Config) (n : Nat) : List (Except Diagnostic Unit) :=
  (batches n m.functions).flatMap fun batch => batch.map (m.checkBody config)

theorem outcomesInBatches_eq (m : Module) (config : Config) (n : Nat) :
    m.outcomesInBatches config n = m.functions.map (m.checkBody config) := by
  rw [outcomesInBatches, List.flatMap_def, ← List.map_flatten, flatten_batches]

def outcomes (m : Module) (config : Config) : List (Except Diagnostic Unit) :=
  if config.parallel && 1 < m.functions.length then
    m.outcomesInBatches config 15
  else
    m.outcomesUntilFailure config m.functions

/-- The report on a module, whose bodies have the outcomes that `collect` gives if the declarations
are sound. -/
def reportWith {μ : Type → Type} [Monad μ] (log : LogRecord → μ Unit)
    (collect : Module → List (Except Diagnostic Unit)) (m : Module) : μ Report :=
  match m.checkDeclarations with
  | .error d => do
    log ⟨.error, none, d.text⟩
    return ⟨List.replicate m.functions.length .skipped, [d]⟩
  | .ok () =>
    Report.judgeAll log m.imports.length m.functions.length (collect m) .empty

def report {μ : Type → Type} [Monad μ] (log : LogRecord → μ Unit) (config : Config) (m : Module) :
    μ Report :=
  m.reportWith log (·.outcomes config)

def check (m : Module) (config : Config) : Except Diagnostic Unit :=
  Report.toExcept (Id.run (m.report (fun _ => pure ()) config))

end Module

end WasmCheck
