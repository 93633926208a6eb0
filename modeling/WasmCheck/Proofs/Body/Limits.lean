import WasmCheck.Proofs.Stack.Alike
import WasmCheck.Proofs.Body.Simulation

/-!
# Lower limits

One body is checked under two configurations. As long as there is room under the lower limits, the
two checkers differ in nothing but their limits, so that no other error is hidden, altered or put
before another one.
-/

namespace WasmCheck

open Stack Attempt

/-- No limit of `config` is higher than that of `config'`. -/
structure Config.Within (config config' : Config) : Prop where
  operands : config.maxOperands ≤ config'.maxOperands
  frames : config.maxFrames ≤ config'.maxFrames
  locals : config.maxLocals ≤ config'.maxLocals

theorem Config.exists_within (config₁ config₂ : Config) :
    ∃ config, config₁.Within config ∧ config₂.Within config := by
  have hl (n : UInt32) : n ≤ 0xFFFFFFFF :=
    UInt32.le_iff_toNat_le.2 (Nat.le_of_lt_succ n.toNat_lt)
  exact ⟨⟨max config₁.maxOperands config₂.maxOperands, max config₁.maxFrames config₂.maxFrames,
    0xFFFFFFFF, false⟩, ⟨Nat.le_max_left .., Nat.le_max_left .., hl _⟩,
    ⟨Nat.le_max_right .., Nat.le_max_right .., hl _⟩⟩

namespace Stack.Difference

variable {config config' : Config} {s t : Stack} {c : Context}

def limits (h : config.Within config') : Difference :=
  ⟨[], [], [], config'.maxOperands, config'.maxFrames, config.maxOperands, config.maxFrames, rfl,
    h.operands, h.frames⟩

theorem Alike.frames_eq {D : Difference} (h : D.Alike s t) : s.frames = t.frames := by
  cases h with
  | mk => rfl

/-- With no operands that differ, an instruction is treated in the same way at any depth. -/
theorem together_check {h : config.Within config'} (hs : (limits h).Alike s t) (i : Instr) :
    (limits h).Together (i.check c) s t (limits h).Alike := by
  cases hf : s.frames with
  | nil =>
    cases hs with
    | mk hs =>
      cases hf
      exact .error (.mk hs)
  | cons f fs => exact (limits h).respected.check i (hs.inside (by simp [limits, depth, hf]))

end Stack.Difference

namespace BodyChecker

variable {config config' : Config}

/-- The second checker is in the state of the first one, under lower limits. -/
structure Tighter (h : config.Within config') (k k' : BodyChecker) : Prop where
  context : k.context = k'.context
  stack : (Difference.limits h).Alike k.stack k'.stack

theorem Tighter.simulation (h : config.Within config') :
    Simulation (fun e => e.category = .capacity) (Tighter h) where
  depth hk := by rw [depth, depth, hk.stack.frames_eq]
  check {k k'} i hk := by
    rw [← hk.context]
    have hi := Difference.together_check (c := k.context) hk.stack i
    refine (hi.weaken (fun e he => he.1) fun _ _ _ => trivial).mono fun _ _ s s' hs => ?_
    exact ⟨rfl, hs⟩

theorem Tighter.start (h : config.Within config') (m : Module) (t : FuncType)
    (groups : List LocalGroup) :
    Coincide (fun e => e.category = .capacity) (Tighter h) (start m t groups config')
      (start m t groups config) := by
  have hl := UInt32.le_iff_toNat_le.1 h.locals
  have hd := h.frames
  rw [start_eq m t groups config]
  split
  · exact .excused rfl
  split
  · exact .excused rfl
  · rw [start_eq, if_neg (by omega), if_neg (by omega)]
    exact .ok ⟨rfl, .mk (.layer [] (.base []) rfl)⟩

end BodyChecker

namespace Module

theorem checkBody_eq_or_capacity {config config' : Config} (h : config.Within config')
    (m : Module) (b : FunctionBody) :
    m.checkBody config b = m.checkBody config' b ∨
      ∃ d, m.checkBody config b = .error d ∧ d.error.category = .capacity := by
  have hsim := (BodyChecker.Tighter.simulation h).checkBody m m config' config b b rfl rfl (.refl _)
    fun t _ => BodyChecker.Tighter.start h m t b.locals
  exact hsim.eq_or_excused.imp_left Eq.symm

/-- Lower limits only add errors of capacity: a body that keeps within them is judged as under the
higher ones. So what is accepted stays accepted when limits are raised; and an error that is not one
of capacity is reported under all limits that the body keeps within. -/
theorem checkBody_limits (m : Module) (b : FunctionBody) (config config' : Config)
    (h : config.Within config') :
    (m.checkBody config b = m.checkBody config' b ∨
        ∃ d, m.checkBody config b = .error d ∧ d.error.category = .capacity) ∧
      (m.checkBody config b = .ok () → m.checkBody config' b = .ok ()) ∧
      ∀ config₁ config₂ d, m.checkBody config₁ b = .error d → d.error.category ≠ .capacity →
        m.checkBody config₂ b = .error d ∨
          ∃ d', m.checkBody config₂ b = .error d' ∧ d'.error.category = .capacity := by
  have hle := m.checkBody_eq_or_capacity h b
  refine ⟨hle, fun hok => ?_, fun config₁ config₂ d hd hc => ?_⟩
  · rcases hle with he | ⟨d, hd, -⟩
    · exact he ▸ hok
    · rw [hok] at hd
      cases hd
  · obtain ⟨top, h₁, h₂⟩ := Config.exists_within config₁ config₂
    rcases m.checkBody_eq_or_capacity h₁ b with he | ⟨d', hd', hc'⟩
    · have := m.checkBody_eq_or_capacity h₂ b
      rwa [← he, hd] at this
    · rw [hd] at hd'
      cases hd'
      exact absurd hc' hc

def mismatched : FunctionBody :=
  ⟨0, [], [⟨1, .block (.result .i32)⟩, ⟨3, .op (.fixed (.i32Const 7))⟩, ⟨5, .end_⟩,
    ⟨6, .op (.fixed (.numeric (.eqz .i64)))⟩, ⟨7, .op .drop⟩, ⟨8, .end_⟩], 9⟩

/-- One operand and two frames are just enough to find the mismatch. -/
theorem checkBody_limits_mismatched :
    Module.checkBody { empty with types := [⟨[], []⟩] } {} mismatched =
      .error ⟨some 6, .typeMismatch "i64.eqz" ["i64"] ["i32"], ["OnConvertExpr"]⟩ := by
  have htight : Module.checkBody { empty with types := [⟨[], []⟩] }
      { maxOperands := 1, maxFrames := 2, maxLocals := 0 } mismatched =
      .error ⟨some 6, .typeMismatch "i64.eqz" ["i64"] ["i32"], ["OnConvertExpr"]⟩ := rfl
  have hle := checkBody_limits { empty with types := [⟨[], []⟩] } mismatched
    { maxOperands := 1, maxFrames := 2, maxLocals := 0 } {} ⟨by decide, by decide, by decide⟩
  rcases hle.1 with he | ⟨d, hd, hc⟩
  · rw [← he, htight]
  · rw [htight] at hd
    cases hd
    cases hc

end Module

end WasmCheck
