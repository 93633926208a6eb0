import WasmCheck.Proofs.Report.FailFast

/-!
# The log is an image of the report

What is logged while a report is made can be computed from the finished report: one record a
verdict, or one for all if a declaration is broken. A registry lets the records at or above its
least level through, in order, to the log facade and to its handler.

In the other direction the log shows the verdicts, except that a broken declaration does not say how
many functions are skipped.
-/

namespace WasmCheck

/-! ## Records -/

namespace Verdict

def level : Verdict → LogLevel
  | accepted => .debug
  | rejected => .error
  | skipped => .warn

inductive Says (r : Report) : Verdict → String → Prop where
  | accepted : Says r accepted "accepted"
  | rejected {d : Diagnostic} : r.diagnostics = [d] → Says r rejected ("rejected: " ++ d.message)
  | skipped : Says r skipped "skipped after an earlier failure"

variable (v : Verdict) (i : UInt32) (d : Option Diagnostic)

theorem level_record : (v.record i d).level = v.level := by
  cases v <;> cases d <;> rfl

theorem function_record : (v.record i d).function = some i := by
  cases v <;> cases d <;> rfl

theorem debug_le_level : .debug ≤ v.level := by
  cases v <;> decide

theorem says_message {r : Report} (h : v = rejected → ∃ d, r.diagnostics = [d]) :
    v.Says r (v.record i r.first).message := by
  cases v with
  | accepted => exact .accepted
  | rejected =>
    obtain ⟨d, hd⟩ := h rfl
    rw [Report.first, hd]
    exact .rejected hd
  | skipped => exact .skipped

end Verdict

def LogRecord.verdict? (r : LogRecord) : Option Verdict :=
  match r.function, r.level with
  | some _, .debug => some .accepted
  | some _, .error => some .rejected
  | some _, .warn => some .skipped
  | _, _ => none

theorem Verdict.verdict?_record (v : Verdict) (i : UInt32) (d : Option Diagnostic) :
    (v.record i d).verdict? = some v := by
  cases v <;> cases d <;> rfl

namespace Report

def records (d : Option Diagnostic) (index : Nat) (vs : List Verdict) : List LogRecord :=
  vs.mapIdx fun p v => v.record (UInt32.ofNatClamp (index + p)) d

/-- Reads the verdicts on `n` functions off a log. A record that is about no function says that a
declaration is broken. -/
def verdictsOf (n : Nat) (log : List LogRecord) : List Verdict :=
  if log.any (·.function.isNone) then List.replicate n .skipped else log.filterMap (·.verdict?)

theorem records_cons (d : Option Diagnostic) (i : Nat) (v : Verdict) (vs : List Verdict) :
    records d i (v :: vs) = v.record (UInt32.ofNatClamp i) d :: records d (i + 1) vs := by
  simp [records, List.mapIdx_cons, Nat.add_assoc, Nat.add_comm 1]

theorem logAll_eq {μ : Type → Type} [Monad μ] (log : LogRecord → μ Unit) (d : Option Diagnostic)
    (i : Nat) (vs : List Verdict) : logAll log d i vs = forM (records d i vs) log := by
  induction vs generalizing i with
  | nil => rfl
  | cons v vs ih => rw [logAll, records_cons, List.forM_cons, ih]

variable (d : Option Diagnostic) (i : Nat) (vs : List Verdict)

theorem exists_record_of_mem {r : LogRecord} (h : r ∈ records d i vs) :
    ∃ (v : Verdict) (i : UInt32), v.record i d = r := by
  obtain ⟨p, hp, hr⟩ := List.mem_mapIdx.1 h
  exact ⟨_, _, hr⟩

theorem filterMap_verdict?_records : (records d i vs).filterMap (·.verdict?) = vs := by
  induction vs generalizing i with
  | nil => rfl
  | cons v vs ih => rw [records_cons, List.filterMap_cons_some (v.verdict?_record _ d), ih]

theorem verdictsOf_records (n : Nat) : verdictsOf n (records d i vs) = vs := by
  have hnone : (records d i vs).any (·.function.isNone) = false := by
    refine List.any_eq_false.2 fun r hr => ?_
    obtain ⟨v, j, rfl⟩ := exists_record_of_mem d i vs hr
    simp [v.function_record]
  rw [verdictsOf, hnone, if_neg Bool.false_ne_true, filterMap_verdict?_records]

theorem filter_records {l : LogLevel} (hl : l ≤ .debug) :
    (records d i vs).filter (l ≤ ·.level) = records d i vs := by
  refine List.filter_eq_self.2 fun r hr => decide_eq_true ?_
  obtain ⟨v, j, rfl⟩ := exists_record_of_mem d i vs hr
  rw [v.level_record]
  exact Nat.le_trans hl v.debug_le_level

end Report

/-! ## Registries -/

namespace LogRegistry

variable {μ : Type → Type} [Monad μ] (g : LogRegistry μ) (facade : LogRecord → μ Unit)

def deliver (r : LogRecord) : μ Unit := do
  facade r
  if let some handler := g.handler then
    handler r

theorem forM_handle [LawfulMonad μ] (rs : List LogRecord) :
    forM rs (g.handle facade) = forM (rs.filter (g.minLevel ≤ ·.level)) (g.deliver facade) := by
  induction rs with
  | nil => rfl
  | cons r rs ih =>
    rw [List.forM_cons, ih, List.filter_cons, handle, enabled]
    split
    · rw [List.forM_cons]
      rfl
    · exact pure_bind ..

end LogRegistry

structure Received where
  facade : List LogRecord
  handler : List LogRecord

namespace Received

def toFacade (r : LogRecord) : StateM Received Unit :=
  modify fun s => { s with facade := s.facade ++ [r] }

def toHandler (r : LogRecord) : StateM Received Unit :=
  modify fun s => { s with handler := s.handler ++ [r] }

/-- A registry whose handler, if it has one, keeps what it receives. -/
def registry (l : LogLevel) (handled : Bool) : LogRegistry (StateM Received) where
  minLevel := l
  handler := if handled then some toHandler else none

theorem run_deliver (l : LogLevel) (handled : Bool) (r : LogRecord) (s : Received) :
    ((registry l handled).deliver toFacade r).run s =
      ((), ⟨s.facade ++ [r], if handled then s.handler ++ [r] else s.handler⟩) := by
  cases handled <;> rfl

theorem run_forM_deliver (l : LogLevel) (handled : Bool) (rs : List LogRecord) (s : Received) :
    (forM rs ((registry l handled).deliver toFacade)).run s =
      ((), ⟨s.facade ++ rs, if handled then s.handler ++ rs else s.handler⟩) := by
  induction rs generalizing s with
  | nil =>
    rw [List.append_nil, List.append_nil, ite_self]
    rfl
  | cons r rs ih =>
    rw [List.forM_cons, StateT.run_bind, run_deliver]
    refine (ih _).trans ?_
    cases handled <;> simp

end Received

/-! ## Logged reports -/

namespace Module

variable {m : Module} {config : Config} {r : Report}

def records (m : Module) (r : Report) : List LogRecord :=
  match m.checkDeclarations with
  | .error d => [⟨.error, none, d.text⟩]
  | .ok () => Report.records r.first m.imports.length r.verdicts

/-- What records say about a report: that a declaration is broken, or else what became of each
function, in order. -/
inductive Image (m : Module) (r : Report) : List LogRecord → Prop where
  | declaration {d : Diagnostic} : m.checkDeclarations = .error d → r.diagnostics = [d] →
      Image m r [⟨.error, none, d.text⟩]
  | bodies {rs : List LogRecord} : m.checkDeclarations = .ok () →
      r.verdicts.length = m.functions.length → rs.length = m.functions.length →
      (∀ p v, r.verdicts[p]? = some v → ∃ i message, rs[p]? = some ⟨v.level, some i, message⟩ ∧
        i.toNat = m.imports.length + p ∧ v.Says r message) →
      Image m r rs

theorem records_of_error {d : Diagnostic} (h : m.checkDeclarations = .error d) (r : Report) :
    m.records r = [⟨.error, none, d.text⟩] := by
  rw [records, h]

theorem records_of_ok (h : m.checkDeclarations = .ok ()) (r : Report) :
    m.records r = Report.records r.first m.imports.length r.verdicts := by
  rw [records, h]

theorem filter_records {l : LogLevel} (hl : l ≤ .debug) (m : Module) (r : Report) :
    (m.records r).filter (l ≤ ·.level) = m.records r := by
  unfold records
  split
  · have herror : l ≤ .error := Nat.le_trans hl (by decide)
    simp [herror]
  · exact Report.filter_records _ _ _ hl

theorem logReport_eq {μ : Type → Type} [Monad μ] [LawfulMonad μ] (log : LogRecord → μ Unit)
    (m : Module) (r : Report) : m.logReport log r = forM (m.records r) log := by
  unfold logReport
  split
  · next d hd =>
    rw [records_of_error hd, List.forM_cons, List.forM_nil]
    simp
  · next hd => rw [records_of_ok hd, Report.logAll_eq]

namespace FailFast

theorem length_verdicts (h : m.FailFast config r) : r.verdicts.length = m.functions.length := by
  cases h with
  | declaration | nothing => exact List.length_replicate
  | body _ _ hk _ =>
    have hlt := (List.getElem?_eq_some_iff.1 hk).1
    simp only [List.length_append, List.length_replicate, List.length_cons]
    omega

theorem rejected (h : m.FailFast config r) (hr : .rejected ∈ r.verdicts) :
    ∃ d, r.diagnostics = [d] := by
  rcases h.diagnostics with hd | hd
  · cases h with
    | declaration | body => cases hd
    | nothing => cases List.eq_of_mem_replicate hr
  · exact hd

theorem of_declaration (h : m.FailFast config r) {d : Diagnostic}
    (hd : m.checkDeclarations = .error d) :
    r = ⟨List.replicate m.functions.length .skipped, [d]⟩ := by
  cases h with
  | declaration hd' =>
    rw [hd] at hd'
    cases hd'
    rfl
  | body hok | nothing hok =>
    rw [hd] at hok
    cases hok

theorem image (h : m.FailFast config r)
    (hsize : m.imports.length + m.functions.length < UInt32.size) : m.Image r (m.records r) := by
  cases hd : m.checkDeclarations with
  | error d =>
    rw [records_of_error hd]
    exact .declaration hd (by rw [h.of_declaration hd])
  | ok =>
    rw [records_of_ok hd]
    refine .bodies hd h.length_verdicts ?_ fun p v hv => ?_
    · rw [Report.records, List.length_mapIdx, h.length_verdicts]
    · have hp := (List.getElem?_eq_some_iff.1 hv).1
      rw [h.length_verdicts] at hp
      refine ⟨UInt32.ofNatClamp (m.imports.length + p),
        (v.record (UInt32.ofNatClamp (m.imports.length + p)) r.first).message, ?_,
        UInt32.toNat_ofNatClamp_of_lt (Nat.lt_trans (Nat.add_lt_add_left hp _) hsize), ?_⟩
      · rw [Report.records, List.getElem?_mapIdx, hv, Option.map_some, ← v.level_record,
          ← v.function_record]
      · refine v.says_message _ ?_
        rintro rfl
        exact h.rejected (List.mem_of_getElem? hv)

theorem verdictsOf_records (h : m.FailFast config r) :
    Report.verdictsOf m.functions.length (m.records r) = r.verdicts := by
  cases hd : m.checkDeclarations with
  | error d =>
    rw [records_of_error hd, h.of_declaration hd]
    rfl
  | ok => rw [records_of_ok hd, Report.verdictsOf_records]

end FailFast

/-! ## The log -/

/-- The report on a module, and what arrives while it is made if records from a level on are passed
on. -/
def logged (m : Module) (config : Config) (l : LogLevel) (handled : Bool) : Report × Received :=
  (m.report ((Received.registry l handled).handle Received.toFacade) config).run ⟨[], []⟩

/-- The log is an image of the report. A registry lets through what is severe enough, and neither
who listens nor how the bodies are checked changes the report. If nothing is held back, the verdicts
can be read off the log; only if a declaration is broken, the number of functions has to be
known. -/
theorem report_logged (m : Module) (config : Config)
    (h : m.imports.length + m.functions.length < UInt32.size) :
    ∃ (r : Report) (rs : List LogRecord), m.Image r rs ∧
      r = Id.run (m.report (fun _ => pure ()) config) ∧
      (∀ {μ : Type → Type} [Monad μ] [LawfulMonad μ] (log : LogRecord → μ Unit),
        (m.report log config = do
          forM rs log
          return r) ∧
        ∀ collect : Module → List (Except Diagnostic Unit), m.Collected config (collect m) →
          m.reportWith log collect = m.report log config) ∧
      (∀ {μ : Type → Type} [Monad μ] [LawfulMonad μ] (g : LogRegistry μ)
        (facade : LogRecord → μ Unit), m.report (g.handle facade) config = do
          forM (rs.filter (g.minLevel ≤ ·.level)) (g.deliver facade)
          return r) ∧
      ∀ (l : LogLevel) (handled : Bool),
        let kept := rs.filter (l ≤ ·.level)
        m.logged config l handled = (r, ⟨kept, if handled then kept else []⟩) ∧
          (l ≤ .debug → Report.verdictsOf m.functions.length kept = r.verdicts ∧
            (m.checkDeclarations = .ok () → kept.filterMap (·.verdict?) = r.verdicts)) := by
  obtain ⟨r, hr⟩ := m.exists_failFast config
  have hlog {μ : Type → Type} [Monad μ] [LawfulMonad μ] (log : LogRecord → μ Unit) :
      m.report log config = do
        forM (m.records r) log
        return r := by
    rw [report, hr.reportWith_eq (m.collected_outcomes config), logReport_eq]
  refine ⟨r, m.records r, hr.image h, (m.failFast_iff config r).1 hr, fun log => ⟨hlog log, ?_⟩,
    fun g facade => ?_, fun l handled => ⟨?_, fun hl => ?_⟩⟩
  · intro collect hc
    rw [hr.reportWith_eq hc, hlog, logReport_eq]
  · rw [hlog, g.forM_handle]
  · rw [logged, hlog, LogRegistry.forM_handle, StateT.run_bind, Received.run_forM_deliver]
    rfl
  · rw [filter_records hl]
    refine ⟨hr.verdictsOf_records, fun hd => ?_⟩
    rw [records_of_ok hd, Report.filterMap_verdict?_records]

/-- A handler that takes warnings does not hear of the function that was accepted. -/
theorem report_logged_twoFailures :
    twoFailures.imports.length + twoFailures.functions.length < UInt32.size ∧
      ∃ rs d, twoFailures.Image ⟨[.accepted, .rejected, .skipped, .skipped], [d]⟩ rs ∧
        twoFailures.logged {} .warn true = (⟨[.accepted, .rejected, .skipped, .skipped], [d]⟩,
          ⟨rs.filter (.warn ≤ ·.level), rs.filter (.warn ≤ ·.level)⟩) ∧
        Report.verdictsOf 4 (rs.filter (.debug ≤ ·.level)) =
          [.accepted, .rejected, .skipped, .skipped] := by
  have hsize : twoFailures.imports.length + twoFailures.functions.length < UInt32.size := by decide
  obtain ⟨r, rs, himage, rfl, -, -, hrecorded⟩ := report_logged twoFailures {} hsize
  exact ⟨hsize, rs, _, himage, (hrecorded .warn true).1,
    ((hrecorded .debug true).2 (by decide)).1⟩

/-- A module with an import and `n` functions, all of the same unknown type. -/
def untyped (n : Nat) : Module :=
  { empty with imports := [3], functions := List.replicate n (.ofType 3) }

/-- The log of a broken declaration does not show how many functions are skipped. -/
theorem verdicts_not_in_log : ¬∃ recover : Received → List Verdict,
    ∀ (m : Module) (config : Config), m.imports.length + m.functions.length < UInt32.size →
      ∀ l ≤ LogLevel.debug, ∀ handled : Bool,
        recover (m.logged config l handled).2 = (m.logged config l handled).1.verdicts := by
  rintro ⟨recover, h⟩
  have hnone := h (untyped 0) {} (by decide) .debug (by decide) true
  have hone := h (untyped 1) {} (by decide) .debug (by decide) true
  have hsame : ((untyped 0).logged {} .debug true).2 = ((untyped 1).logged {} .debug true).2 := rfl
  rw [hsame, hone] at hnone
  exact absurd hnone (by decide)

end Module

end WasmCheck
