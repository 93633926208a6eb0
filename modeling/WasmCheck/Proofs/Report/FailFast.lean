import WasmCheck.Report

/-!
# The report is fail-fast

One failure is reported, the first one: `FailFast` says which, and what becomes of the functions in
front of it and behind it. It speaks of the check of each body alone. How the outcomes of the bodies
were collected, and who listens to the log, makes no difference.
-/

namespace WasmCheck

namespace Report

variable {μ : Type → Type} [Monad μ] [LawfulMonad μ] (log : LogRecord → μ Unit)

def logAll {μ : Type → Type} [Monad μ] (log : LogRecord → μ Unit) (d : Option Diagnostic) :
    Nat → List Verdict → μ Unit
  | _, [] => pure ()
  | index, v :: vs => do
    log (v.record (UInt32.ofNatClamp index) d)
    logAll log d (index + 1) vs

theorem logAll_append (d : Option Diagnostic) (i : Nat) (vs ws : List Verdict) :
    logAll log d i (vs ++ ws) =
      (do logAll log d i vs; logAll log d (i + vs.length) ws) := by
  induction vs generalizing i with
  | nil => simp [logAll]
  | cons v vs ih => simp [logAll, ih, Nat.add_assoc, Nat.add_comm 1]

theorem judgeAll_skipped (i n : Nat) (outcomes : List (Except Diagnostic Unit))
    (vs : List Verdict) (d : Diagnostic) :
    judgeAll log i n outcomes ⟨vs, [d]⟩ = do
      logAll log (some d) i (List.replicate n .skipped)
      return ⟨vs ++ List.replicate n .skipped, [d]⟩ := by
  induction n generalizing i outcomes vs with
  | zero => simp [judgeAll, logAll]
  | succ n ih => simp [judgeAll, judge, isValid, first, logAll, ih, List.replicate_succ]

/-- In front of the first failure all functions are accepted. The record of an accepted function
shows no diagnostic. -/
theorem judgeAll_accepted (i k n : Nat) (rest : List (Except Diagnostic Unit)) (vs : List Verdict)
    (d : Option Diagnostic) :
    judgeAll log i (k + n) (List.replicate k (.ok ()) ++ rest) ⟨vs, []⟩ =
      (do
        logAll log d i (List.replicate k .accepted)
        judgeAll log (i + k) n rest ⟨vs ++ List.replicate k .accepted, []⟩) := by
  induction k generalizing i vs with
  | zero => simp [logAll]
  | succ k ih =>
    simp [Nat.succ_add, judgeAll, judge, isValid, Verdict.record, logAll, ih, List.replicate_succ,
      Nat.add_assoc]

theorem judgeAll_rejected (i k n : Nat) (rest : List (Except Diagnostic Unit)) (d : Diagnostic) :
    judgeAll log i (k + (n + 1)) (List.replicate k (.ok ()) ++ .error d :: rest) .empty = do
      logAll log (some d) i
        (List.replicate k .accepted ++ .rejected :: List.replicate n .skipped)
      return ⟨List.replicate k .accepted ++ .rejected :: List.replicate n .skipped, [d]⟩ := by
  rw [empty, judgeAll_accepted log i k _ _ _ (some d), logAll_append]
  simp [judgeAll, judge, isValid, first, judgeAll_skipped, logAll]

end Report

namespace Module

variable {m : Module} {config : Config}

/-! ## Outcomes -/

/-- The outcomes of the bodies, collected one by one up to the first failure, or all of them in
batches of any size. -/
inductive Collected (m : Module) (config : Config) : List (Except Diagnostic Unit) → Prop where
  | untilFailure : Collected m config (m.outcomesUntilFailure config m.functions)
  | inBatches (n : Nat) : Collected m config (m.outcomesInBatches config n)

theorem collected_outcomes (m : Module) (config : Config) :
    m.Collected config (m.outcomes config) := by
  unfold outcomes
  split
  · exact .inBatches 15
  · exact .untilFailure

theorem outcomesUntilFailure_append {as : List FunctionBody} (bs : List FunctionBody)
    (h : ∀ a ∈ as, m.checkBody config a = .ok ()) :
    m.outcomesUntilFailure config (as ++ bs) =
      List.replicate as.length (.ok ()) ++ m.outcomesUntilFailure config bs := by
  induction as with
  | nil => rfl
  | cons a as ih =>
    obtain ⟨ha, has⟩ := List.forall_mem_cons.1 h
    simp [outcomesUntilFailure, ha, ih has, List.replicate_succ]

theorem map_checkBody_eq_replicate {as : List FunctionBody}
    (h : ∀ a ∈ as, m.checkBody config a = .ok ()) :
    as.map (m.checkBody config) = List.replicate as.length (.ok ()) :=
  List.eq_replicate_iff.2 ⟨List.length_map _, by simpa using h⟩

theorem Collected.eq_of_accepted {outcomes : List (Except Diagnostic Unit)}
    (hc : m.Collected config outcomes) (h : ∀ b ∈ m.functions, m.checkBody config b = .ok ()) :
    outcomes = List.replicate m.functions.length (.ok ()) := by
  cases hc with
  | untilFailure => simpa [outcomesUntilFailure] using outcomesUntilFailure_append [] h
  | inBatches n => rw [outcomesInBatches_eq, map_checkBody_eq_replicate h]

theorem Collected.eq_of_rejected {outcomes : List (Except Diagnostic Unit)}
    (hc : m.Collected config outcomes) {as bs : List FunctionBody} {b : FunctionBody}
    {d : Diagnostic} (hf : m.functions = as ++ b :: bs)
    (h : ∀ a ∈ as, m.checkBody config a = .ok ()) (hb : m.checkBody config b = .error d) :
    ∃ rest, outcomes = List.replicate as.length (.ok ()) ++ .error d :: rest := by
  cases hc with
  | untilFailure =>
    refine ⟨[], ?_⟩
    rw [hf, outcomesUntilFailure_append _ h]
    simp [outcomesUntilFailure, hb]
  | inBatches n =>
    refine ⟨bs.map (m.checkBody config), ?_⟩
    rw [outcomesInBatches_eq, hf, List.map_append, map_checkBody_eq_replicate h, List.map_cons, hb]

/-! ## Reports -/

/-- What is reported: a broken declaration; or else the function at the least position that is not
accepted; or else nothing. -/
inductive FailFast (m : Module) (config : Config) : Report → Prop where
  | declaration {d : Diagnostic} : m.checkDeclarations = .error d →
      FailFast m config ⟨List.replicate m.functions.length .skipped, [d]⟩
  | body {k : Nat} {b : FunctionBody} {d : Diagnostic} : m.checkDeclarations = .ok () →
      (∀ a ∈ m.functions.take k, m.checkBody config a = .ok ()) → m.functions[k]? = some b →
      m.checkBody config b = .error d →
      FailFast m config ⟨List.replicate k .accepted ++ .rejected ::
        List.replicate (m.functions.length - k - 1) .skipped, [d]⟩
  | nothing : m.checkDeclarations = .ok () →
      (∀ b ∈ m.functions, m.checkBody config b = .ok ()) →
      FailFast m config ⟨List.replicate m.functions.length .accepted, []⟩

theorem accepted_or_first (m : Module) (config : Config) (bs : List FunctionBody) :
    (∀ b ∈ bs, m.checkBody config b = .ok ()) ∨ ∃ k b d, bs[k]? = some b ∧
      m.checkBody config b = .error d ∧ ∀ a ∈ bs.take k, m.checkBody config a = .ok () := by
  induction bs with
  | nil => simp
  | cons b bs ih =>
    cases hb : m.checkBody config b with
    | error d => exact .inr ⟨0, b, d, rfl, hb, by simp⟩
    | ok =>
      rcases ih with ih | ⟨k, b', d, hk, hd, ih⟩
      · exact .inl (List.forall_mem_cons.2 ⟨hb, ih⟩)
      · exact .inr ⟨k + 1, b', d, hk, hd, List.forall_mem_cons.2 ⟨hb, ih⟩⟩

theorem exists_failFast (m : Module) (config : Config) : ∃ r, m.FailFast config r := by
  cases hd : m.checkDeclarations with
  | error d => exact ⟨_, .declaration hd⟩
  | ok =>
    rcases accepted_or_first m config m.functions with h | ⟨k, b, d, hk, hb, h⟩
    · exact ⟨_, .nothing hd h⟩
    · exact ⟨_, .body hd h hk hb⟩

def logReport {μ : Type → Type} [Monad μ] (log : LogRecord → μ Unit) (m : Module) (r : Report) :
    μ Unit :=
  match m.checkDeclarations with
  | .error d => log ⟨.error, none, d.text⟩
  | .ok () => Report.logAll log r.first m.imports.length r.verdicts

/-- However the outcomes were collected, the fail-fast report is logged and returned. -/
theorem FailFast.reportWith_eq {μ : Type → Type} [Monad μ] [LawfulMonad μ]
    {log : LogRecord → μ Unit} {r : Report} (h : m.FailFast config r)
    {collect : Module → List (Except Diagnostic Unit)} (hc : m.Collected config (collect m)) :
    m.reportWith log collect = do
      m.logReport log r
      return r := by
  unfold reportWith logReport
  cases h with
  | declaration hd => rw [hd]
  | @body k b d hd hk hf hb =>
    have hlt := (List.getElem?_eq_some_iff.1 hf).1
    have hsplit : m.functions = m.functions.take k ++ b :: m.functions.drop (k + 1) := by
      rw [← (List.getElem?_eq_some_iff.1 hf).2, List.getElem_cons_drop, List.take_append_drop]
    have htake : (m.functions.take k).length = k := List.length_take_of_le (Nat.le_of_lt hlt)
    obtain ⟨rest, hr⟩ := hc.eq_of_rejected hsplit hk hb
    have hlen : m.functions.length = k + (m.functions.length - k - 1 + 1) := by omega
    rw [hd, hr, htake]
    simp only
    rw [hlen, Report.judgeAll_rejected, ← hlen]
    rfl
  | nothing hd hf =>
    rw [hd, hc.eq_of_accepted hf]
    have hall := Report.judgeAll_accepted log m.imports.length m.functions.length 0 [] [] none
    simpa [Report.judgeAll, Report.first, Report.empty] using hall

theorem failFast_iff (m : Module) (config : Config) (r : Report) :
    m.FailFast config r ↔ r = Id.run (m.report (fun _ => pure ()) config) := by
  have only {r : Report} (h : m.FailFast config r) :
      r = Id.run (m.report (fun _ => pure ()) config) := by
    rw [report, h.reportWith_eq (m.collected_outcomes config)]
    rfl
  refine ⟨only, ?_⟩
  rintro rfl
  obtain ⟨r, h⟩ := m.exists_failFast config
  exact only h ▸ h

theorem FailFast.isValid_iff {r : Report} (h : m.FailFast config r) :
    r.isValid = true ↔ m.checkDeclarations = .ok () ∧
      ∀ b ∈ m.functions, m.checkBody config b = .ok () := by
  cases h with
  | declaration hd => simp [Report.isValid, hd]
  | body hd _ hf hb =>
    simp only [Report.isValid, List.isEmpty_cons, Bool.false_eq_true, false_iff, not_and]
    intro _ hall
    rw [hall _ (List.mem_of_getElem? hf)] at hb
    cases hb
  | nothing hd hall => exact iff_of_true rfl ⟨hd, hall⟩

theorem FailFast.switch {r : Report} (h : m.FailFast config r) (parallel : Bool) :
    m.FailFast { config with parallel } r := by
  cases h with
  | declaration hd => exact .declaration hd
  | body hd hk hf hb => exact .body hd hk hf hb
  | nothing hd hall => exact .nothing hd hall

theorem FailFast.diagnostics {r : Report} (h : m.FailFast config r) :
    r.diagnostics = [] ∨ ∃ d, r.diagnostics = [d] := by
  cases h with
  | declaration => exact .inr ⟨_, rfl⟩
  | body => exact .inr ⟨_, rfl⟩
  | nothing => exact .inl rfl

/-- There is one fail-fast report on a module. It is the one that is returned, whether bodies are
checked one by one or in batches of any size; what is logged on the way is the same, too. What else
can be asked of a report, or of a module, agrees with it. -/
theorem report_failFast {μ : Type → Type} [Monad μ] [LawfulMonad μ] (log : LogRecord → μ Unit)
    (m : Module) (config : Config) :
    ∃ (r : Report) (logs : μ Unit), (∀ r', m.FailFast config r' ↔ r' = r) ∧
      (∀ parallel, m.report log { config with parallel } = do logs; return r) ∧
      (∀ collect : Module → List (Except Diagnostic Unit), m.Collected config (collect m) →
        m.reportWith log collect = do logs; return r) ∧
      m.check config = r.toExcept ∧
      (r.isValid = true ↔ m.checkDeclarations = .ok () ∧
        ∀ b ∈ m.functions, m.checkBody config b = .ok ()) ∧
      (r.toExcept = .ok () ↔ r.isValid = true) ∧
      ∀ d, (r.toExcept = .error d ↔ r.diagnostics = [d]) ∧
        (r.first = some d ↔ r.diagnostics = [d]) := by
  obtain ⟨r, h⟩ := m.exists_failFast config
  refine ⟨r, m.logReport log r, fun r' => ?_, fun parallel => ?_, fun _ => h.reportWith_eq, ?_,
    h.isValid_iff, ?_, fun d => ?_⟩
  · rw [(m.failFast_iff config r).1 h, m.failFast_iff]
  · exact (h.switch parallel).reportWith_eq (m.collected_outcomes _)
  · rw [check, ← (m.failFast_iff config r).1 h]
  · rcases h.diagnostics with hd | ⟨d, hd⟩ <;>
      simp [Report.toExcept, Report.first, Report.isValid, hd]
  · rcases h.diagnostics with hd | ⟨d', hd⟩ <;> simp [Report.toExcept, Report.first, hd]

/-- Four functions; the second and the third one have nothing to drop. -/
def twoFailures : Module where
  types := [⟨[], []⟩]
  imports := []
  functions :=
    let good : FunctionBody := ⟨0, [], [⟨0, .end_⟩], 1⟩
    let bad : FunctionBody := ⟨0, [], [⟨0, .op .drop⟩, ⟨1, .end_⟩], 2⟩
    [good, bad, bad, good]
  tables := []
  memories := []
  globals := []
  segments := []

/-- In batches of three the third function is checked, too, and the report does not show it. -/
theorem report_failFast_twoFailures : ∃ logs : StateM (List LogRecord) Unit,
    twoFailures.reportWith (fun r => modify (r :: ·)) (·.outcomesInBatches {} 2) = do
      logs
      return ⟨[.accepted, .rejected, .skipped, .skipped],
        [⟨some 0, .typeMismatch "drop" ["any"] [], ["OnDropExpr"]⟩]⟩ := by
  obtain ⟨r, logs, hr, -, hc, -⟩ := report_failFast (μ := StateM (List LogRecord))
    (fun r => modify (r :: ·)) twoFailures {}
  have hfirst : ∀ a ∈ twoFailures.functions.take 1, twoFailures.checkBody {} a = .ok () := by
    rintro a (_ | ⟨_, ⟨⟩⟩)
    rfl
  have hff : twoFailures.FailFast {} ⟨[.accepted, .rejected, .skipped, .skipped],
      [⟨some 0, .typeMismatch "drop" ["any"] [], ["OnDropExpr"]⟩]⟩ :=
    .body (k := 1) rfl hfirst rfl rfl
  cases (hr _).1 hff
  exact ⟨logs, hc _ (.inBatches 2)⟩

end Module

end WasmCheck
