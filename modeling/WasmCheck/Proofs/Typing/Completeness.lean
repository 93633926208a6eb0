import WasmCheck.Proofs.Typing.Covers
import WasmCheck.Proofs.Typing.Signature
import WasmCheck.Proofs.Body.Rules
import WasmCheck.Proofs.Body.Run
import WasmCheck.Proofs.Module.WellDeclared

/-!
# Well-typed code is accepted

The derivation picks operand types where the checker keeps the most general ones. By induction on
the derivation, the checker accepts the code from all operands that stand for those of the
derivation and is left with operands that do so again; the only thing that can be in the way is a
limit. How many operands and frames are enough is read off the derivation.

There is one thing that the checker looks up and no rule asks for: the type of a function that a
reference is taken to. `Module.RefsTyped` says that it is there, and declarations that are accepted
make sure of it.
-/

namespace WasmCheck

open Operand (known unknown)
open Stack Attempt

/-- The failure is one of capacity, and a limit on operands or frames was too low. -/
def Short (mo mf operands frames : Nat) (e : Error) : Prop :=
  e.category = .capacity ∧ (mo < operands ∨ mf < frames)

theorem Short.mono {mo mf n d n' d' : Nat} {e : Error} (h : Short mo mf n d e) (hn : n ≤ n')
    (hd : d ≤ d') : Short mo mf n' d' e := by
  obtain ⟨hc, h⟩ := h
  exact ⟨hc, by omega⟩

theorem Short.operands {mo n : Nat} (mf d : Nat) (h : mo < n) :
    Short mo mf n d (.operandOverflow mo) := ⟨rfl, .inl h⟩

theorem Short.frames {mf d : Nat} (mo n : Nat) (h : mf < d) :
    Short mo mf n d (.controlOverflow mf) := ⟨rfl, .inr h⟩

/-- The operands of the innermost frame stand for `ss`, and nothing around it has changed. -/
def Leaves (f : Frame) (fs : List Frame) (below : List Operand) (mo mf : Nat) (ss : List Operand)
    (s : Stack) : Prop :=
  ∃ u xs, Covers u xs ss ∧ s = ⟨xs ++ below, { f with unreachable := u } :: fs, mo, mf⟩

/-- The instructions are accepted from all operands that stand for `ss`, over others that they do
not touch, and leave operands that stand for `ts`. Room for `n` more operands and `d` more frames is
enough. -/
def Accepts (Γ : Scope) (is : List Instr) (ss ts : List Operand) (n d : Nat) : Prop :=
  ∀ (c : Context) (f : Frame) (fs : List Frame) (xs below pre : List Operand) (mo mf : Nat),
    c.scope (f :: fs) = Γ → f.height = below.length → Covers f.unreachable xs (ss.reverse ++ pre) →
    Post (Instr.checkAll c is) ⟨xs ++ below, f :: fs, mo, mf⟩
      (fun _ => Leaves f fs below mo mf (ts.reverse ++ pre))
      (fun e _ => Short mo mf (below.length + pre.length + n) (fs.length + 1 + d) e)

/-! ## Operations -/

namespace Covers

variable {u : Bool} {ys pre : List Operand} {p : Operand}

theorem pair (h : Covers u ys (p :: p :: pre)) :
    (∀ o ∈ ys.take 2, o.Sub p) ∧ (u = true ∨ 2 ≤ ys.length) ∧ Covers u (ys.drop 2) pre := by
  cases h with
  | gap hu => exact ⟨by simp, .inl hu, .gap hu pre⟩
  | cons ho h =>
    cases h with
    | gap hu => exact ⟨by simpa using ho, .inl hu, .gap hu pre⟩
    | cons ho' h => exact ⟨by simp [ho, ho'], .inr (by simp), h⟩

/-- A selection between two such operands leaves one that stands for a third. -/
theorem selects (h : Covers u ys (p :: p :: pre)) (hp : ∀ t, p = known t → t.isNum = true) :
    (∃ o, Selects u ys o) ∧ ∀ o, Selects u ys o → o.Sub p := by
  obtain ⟨hs, hl, -⟩ := h.pair
  constructor
  · by_cases hk : ∃ t, known t ∈ ys.take 2
    · obtain ⟨t, ht⟩ := hk
      have : p = known t := by cases hs _ ht; rfl
      subst this
      exact ⟨_, .known ht (hp t rfl) (h.pop [t, t]).1⟩
    · refine ⟨_, .unknown (fun o ho => ?_) hl⟩
      cases o with
      | known t => exact absurd ⟨t, ho⟩ hk
      | unknown => rfl
  · rintro o (⟨ht, -, -⟩ | -)
    · exact hs _ ht
    · exact .bottom p

end Covers

section Step
variable {c : Context} {f : Frame} {fs : List Frame} {xs below pre : List Operand} {mo mf : Nat}
  {n d : Nat}

theorem Leaves.same {ss : List Operand} (hc : Covers f.unreachable xs ss) :
    Leaves f fs below mo mf ss ⟨xs ++ below, f :: fs, mo, mf⟩ := ⟨_, xs, hc, rfl⟩

theorem Leaves.jump (ss : List Operand) :
    Leaves f fs below mo mf ss ⟨below, { f with unreachable := true } :: fs, mo, mf⟩ :=
  ⟨true, [], .gap rfl ss, rfl⟩

theorem Covers.leaves_apply (hf : f.height = below.length) {ps rs : List ValueType} {desc : String}
    (hc : Covers f.unreachable xs (knowns ps.reverse ++ pre)) :
    Post (popAll ps desc >>= fun _ => pushAll rs) ⟨xs ++ below, f :: fs, mo, mf⟩
      (fun _ => Leaves f fs below mo mf (knowns rs.reverse ++ pre))
      (fun e _ => Short mo mf (below.length + pre.length + rs.length) d e) := by
  obtain ⟨hp, hrest⟩ := hc.pop _
  rw [List.length_reverse] at hrest
  rw [post_apply hf, if_pos hp]
  split
  · next hmo =>
    have := hrest.length_le
    rw [List.length_append] at hmo
    exact .operands _ _ (by omega)
  · exact .same (.push (.refl _) hrest)

theorem Covers.leaves_jump (hf : f.height = below.length) {ts : List ValueType} {desc : String}
    (hc : Covers f.unreachable xs (knowns ts.reverse ++ pre)) (us : List Operand)
    {E : Error → Stack → Prop} :
    Post (popAll ts desc >>= fun _ => markUnreachable) ⟨xs ++ below, f :: fs, mo, mf⟩
      (fun _ => Leaves f fs below mo mf us) E := by
  rw [post_jump hf, if_pos (hc.pop _).1]
  exact .jump us

theorem Covers.leaves_brTable (hf : f.height = below.length) {ls : List UInt32} {l₀ : UInt32}
    {os : List Operand} (us : List Operand)
    (hl : ∀ l ∈ l₀ :: ls, ∃ ts, (c.scope (f :: fs)).labels[l.toNat]? = some ts ∧
      SubAll os (knowns ts))
    (hc : Covers f.unreachable xs (known .i32 :: (os.reverse ++ pre))) {E : Error → Stack → Prop} :
    Post (Op.checkBrTable ls l₀) ⟨xs ++ below, f :: fs, mo, mf⟩
      (fun _ => Leaves f fs below mo mf us) E := by
  obtain ⟨hi, hos⟩ := hc.pop [.i32]
  have hok (l : UInt32) (h : l ∈ l₀ :: ls) : LabelOk f fs (xs.drop 1) os.length l := by
    obtain ⟨ts, hts, hsub⟩ := hl l h
    obtain ⟨g, hg, rfl⟩ := Context.label_eq_some_iff.1 hts
    have hfit := hos.trans (.push hsub.reverse (.refl _ pre))
    rw [reverse_knowns] at hfit
    exact ⟨g, hg, by simpa using hsub.length_eq.symm, (hfit.pop _).1⟩
  obtain ⟨g, hg, hlen, hfit⟩ := hok l₀ List.mem_cons_self
  simp only [Op.checkBrTable, post_bind, post_pop hf, post_labelTypes, if_pos hi, hg]
  refine post_checkLabels hf (fun _ => ?_) ?_
  · rw [post_peekAll hf, if_pos hfit, post_markUnreachable hf]
    exact .jump us
  · rintro ⟨l, hm, hno⟩
    rw [hlen] at hno
    exact absurd (hok l (List.mem_cons_of_mem _ hm)) hno

theorem Covers.leaves_select (hf : f.height = below.length) {p : Operand}
    (hp : ∀ t, p = known t → t.isNum = true)
    (hc : Covers f.unreachable xs (known .i32 :: p :: p :: pre)) :
    Post Op.checkSelect ⟨xs ++ below, f :: fs, mo, mf⟩
      (fun _ => Leaves f fs below mo mf (p :: pre))
      (fun e _ => Short mo mf (below.length + pre.length + 1) d e) := by
  obtain ⟨hi, hys⟩ := hc.pop [.i32]
  obtain ⟨hex, hsub⟩ := hys.selects hp
  obtain ⟨-, -, hrest⟩ := hys.pair
  refine post_checkSelect hf (fun _ o ho _ => .same (.cons (hsub o ho) hrest)) (fun _ o _ hmo => ?_)
    (fun hno => absurd ⟨hi, hex⟩ hno)
  have := hrest.length_le
  rw [List.length_append] at hmo
  exact .operands _ _ (by simp only [List.length_singleton] at *; omega)

end Step

theorem Accepts.op {Γ : Scope} {o : Op} {ss ts : List Operand} (h : o.HasType Γ ss ts)
    (href : Γ.module.RefsTyped [.op o]) : Accepts Γ [.op o] ss ts ts.length 0 := by
  rintro c f fs xs below pre mo mf rfl hf hc
  simp only [Instr.checkAll, post_bind, post_pure, WasmCheck.post_check, Instr.rule]
  cases h with
  | unreachable =>
    rw [Op.check, post_markUnreachable hf]
    exact .jump _
  | nop => exact .same hc
  | br ss us hl =>
    obtain ⟨g, hg, rfl⟩ := Context.label_eq_some_iff.1 hl
    rw [Op.check, Op.checkBr, post_bind, post_labelTypes, hg]
    rw [List.reverse_append, reverse_knowns, List.append_assoc] at hc
    exact hc.leaves_jump hf _
  | brIf hl =>
    obtain ⟨g, hg, rfl⟩ := Context.label_eq_some_iff.1 hl
    rw [List.reverse_append, reverse_knowns] at hc
    obtain ⟨hi, hts⟩ := hc.pop [.i32]
    rw [Op.check, Op.checkBrIf, post_bind, post_pop hf, if_pos hi, post_bind, post_labelTypes, hg,
      reverse_knowns, List.length_map]
    exact hts.leaves_apply hf
  | brTable ss us hl =>
    rw [List.reverse_append, List.reverse_append, List.append_assoc, List.append_assoc] at hc
    exact Covers.leaves_brTable hf _ hl hc
  | return_ ss us =>
    rw [List.reverse_append, reverse_knowns, List.append_assoc] at hc
    exact hc.leaves_jump hf _
  | drop o =>
    have hx : ¬(xs = [] ∧ f.unreachable = false) := by
      rintro ⟨rfl, hu⟩
      cases hc with
      | gap hu' => rw [hu] at hu'; cases hu'
    rw [Op.check, post_bind, post_popAny hf, if_neg hx]
    exact .same hc.head.2
  | select ht => exact hc.leaves_select hf fun t' he => by cases he; exact ht
  | selectBottom => exact hc.leaves_select hf fun _ he => by cases he
  | refIsNull r =>
    rw [Op.check, post_bind, post_popReference hf, if_pos hc.supplyReference, push,
      post_pushOperand]
    split
    · next hmo =>
      have : (xs.drop 1).length ≤ pre.length := hc.head.2.length_le
      simp only [size, List.length_append] at hmo
      exact .operands _ _ (by simp only [List.length_singleton]; omega)
    · exact .same (.cons (.refl _) hc.head.2)
  | fixed ht =>
    rw [Op.check, FixedOp.check, post_bind, ht.type_eq href]
    rw [reverse_knowns] at hc ⊢
    rw [List.length_map]
    exact hc.leaves_apply hf

/-! ## Constructs -/

section Construct
variable {c : Context} {f : Frame} {fs : List Frame} {xs below pre : List Operand} {mo mf : Nat}
  {kind : FrameKind} {t : FuncType} {is js : List Instr} {n d N D : Nat}

/-- The instructions finish a construct whose operands are its results, and hand them on. -/
def Finishes (c : Context) (f : Frame) (fs : List Frame) (below pre : List Operand) (mo mf : Nat)
    (kind : FrameKind) (t : FuncType) (js : List Instr) (n d : Nat) : Prop :=
  ∀ (ys rest : List Operand) (u : Bool), Covers f.unreachable rest pre →
    closes ⟨kind, t.params, t.results, (rest ++ below).length, u⟩ ys = true →
    Post (Instr.checkAll c js)
      ⟨ys ++ (rest ++ below), ⟨kind, t.params, t.results, (rest ++ below).length, u⟩ :: f :: fs,
        mo, mf⟩
      (fun _ => Leaves f fs below mo mf (knowns t.results.reverse ++ pre))
      (fun e _ => Short mo mf n d e)

theorem post_checkAll_enter {i : Instr} {b : BlockType} (ht : b.Means c.module t)
    (hi : i.rule c = do Instr.enter kind (← Attempt.ofExcept (b.funcType c.module)))
    {Q : Unit → Stack → Prop} {E : Error → Stack → Prop} :
    Post (Instr.checkAll c (i :: is)) ⟨xs, f :: fs, mo, mf⟩ Q E ↔
      Post (Instr.enter kind t >>= fun _ => Instr.checkAll c is) ⟨xs, f :: fs, mo, mf⟩ Q E := by
  rw [Instr.checkAll, post_bind, WasmCheck.post_check, hi, post_bind,
    BlockType.funcType_eq_ok_iff.2 ht, post_bind]
  rfl

theorem post_checkAll_if {b : BlockType} (ht : b.Means c.module t) (hf : f.height = below.length)
    (hi : fits f.unreachable xs [.i32] = true) {Q : Unit → Stack → Prop}
    {E : Error → Stack → Prop} :
    Post (Instr.checkAll c (.if_ b :: is)) ⟨xs ++ below, f :: fs, mo, mf⟩ Q E ↔
      Post (Instr.enter .if_ t >>= fun _ => Instr.checkAll c is)
        ⟨xs.drop 1 ++ below, f :: fs, mo, mf⟩ Q E := by
  rw [Instr.checkAll, post_bind, WasmCheck.post_check, Instr.rule, post_bind,
    BlockType.funcType_eq_ok_iff.2 ht, post_bind (f := fun _ => Instr.checkAll c is)]
  refine Iff.trans post_bind ((post_pop hf).trans ?_)
  rw [if_pos hi]

theorem Accepts.fills {lt : List ValueType}
    (h : Accepts ((c.scope fs).inside lt) is (knowns t.params) (knowns t.results) n d)
    (hlt : Frame.labelTypes ⟨kind, t.params, t.results, below.length, false⟩ = lt) :
    Post (Instr.checkAll c is) ⟨knowns t.params.reverse ++ below,
        ⟨kind, t.params, t.results, below.length, false⟩ :: fs, mo, mf⟩
      (fun _ s => ∃ u ys, closes ⟨kind, t.params, t.results, below.length, u⟩ ys = true ∧
        s = ⟨ys ++ below, ⟨kind, t.params, t.results, below.length, u⟩ :: fs, mo, mf⟩)
      (fun e _ => Short mo mf (below.length + n) (fs.length + 1 + d) e) := by
  subst hlt
  refine (h c _ fs (knowns t.params.reverse) below [] mo mf rfl rfl ?_).mono ?_ (fun _ _ he => he)
  · rw [reverse_knowns, List.append_nil]
    exact .refl _ _
  · rintro - s ⟨u, ys, hc, rfl⟩
    rw [reverse_knowns, List.append_nil] at hc
    exact ⟨u, ys, Covers.closes (f := ⟨kind, t.params, t.results, below.length, u⟩) hc, rfl⟩

theorem Finishes.enclose {lt : List ValueType}
    (hjs : Finishes c f fs below pre mo mf kind t js N D) (hf : f.height = below.length)
    (his : Accepts ((c.scope (f :: fs)).inside lt) is (knowns t.params) (knowns t.results) n d)
    (hlt : ∀ m, Frame.labelTypes ⟨kind, t.params, t.results, m, false⟩ = lt)
    (hc : Covers f.unreachable xs (knowns t.params.reverse ++ pre))
    (hN : below.length + pre.length + (t.params.length + n) ≤ N) (hD : fs.length + 2 + d ≤ D) :
    Post (Instr.enter kind t >>= fun _ => Instr.checkAll c (is ++ js))
      ⟨xs ++ below, f :: fs, mo, mf⟩
      (fun _ => Leaves f fs below mo mf (knowns t.results.reverse ++ pre))
      (fun e _ => Short mo mf N D e) := by
  obtain ⟨hp, hrest⟩ := hc.pop _
  rw [List.length_reverse] at hrest
  have hlen := hrest.length_le
  rw [post_bind, WasmCheck.post_enter hf, if_pos hp]
  split
  · exact .frames _ _ (by omega)
  split
  · next hmo =>
    rw [List.length_append] at hmo
    exact .operands _ _ (by omega)
  rw [post_checkAll_append]
  refine (his.fills (hlt _)).mono ?_ ?_
  · rintro - s ⟨u, ys, hx, rfl⟩
    exact hjs ys _ u hrest hx
  · intro e _ he
    rw [List.length_append, List.length_cons] at he
    exact he.mono (by omega) (by omega)

theorem leaves_leave {g : Frame} {ys rest : List Operand} {desc : String}
    (hr : Covers f.unreachable rest pre) (hg : g.height = (rest ++ below).length)
    (hx : closes g ys = true) (hN : below.length + pre.length + g.results.length ≤ N) :
    Post (Instr.leave desc) ⟨ys ++ (rest ++ below), g :: f :: fs, mo, mf⟩
      (fun _ => Leaves f fs below mo mf (knowns g.results.reverse ++ pre))
      (fun e _ => Short mo mf N D e) := by
  have hlen := hr.length_le
  rw [post_leave hg, if_pos hx]
  split
  · next hmo =>
    rw [List.length_append] at hmo
    exact .operands _ _ (by omega)
  · rw [← List.append_assoc]
    exact .same (.push (.refl _) hr)

theorem finishes_end (hk : kind = .block ∨ kind = .loop ∨ kind = .else_)
    (hN : below.length + pre.length + t.results.length ≤ N) :
    Finishes c f fs below pre mo mf kind t [.end_] N D := by
  intro ys rest u hr hx
  rw [Instr.checkAll, post_bind, WasmCheck.post_check, Instr.rule, post_checkEnd]
  rcases hk with rfl | rfl | rfl <;> exact leaves_leave hr rfl hx hN

theorem post_switch_of_closes {g : Frame} {ys : List Operand} {Q : Unit → Stack → Prop}
    (hg : g.height = below.length) (hx : closes g ys = true)
    (hQ : Q () ⟨knowns g.params.reverse ++ below,
      ⟨.else_, g.params, g.results, below.length, false⟩ :: fs, mo, mf⟩)
    (hN : below.length + g.params.length ≤ N) (hD : fs.length + 1 ≤ D) :
    Post Instr.switch ⟨ys ++ below, g :: fs, mo, mf⟩ Q (fun e _ => Short mo mf N D e) := by
  rw [post_switch hg, if_pos hx]
  split
  · exact .frames _ _ (by omega)
  split
  · exact .operands _ _ (by omega)
  · exact hQ

theorem finishes_if (ht : t.params = t.results)
    (hN : below.length + pre.length + t.results.length ≤ N) (hD : fs.length + 2 ≤ D) :
    Finishes c f fs below pre mo mf .if_ t [.end_] N D := by
  intro ys rest u hr hx
  have hlen := hr.length_le
  rw [Instr.checkAll, post_bind, WasmCheck.post_check, Instr.rule, post_checkEnd]
  simp only [post_bind]
  refine post_switch_of_closes rfl hx ?_ ?_ hD
  · refine leaves_leave hr rfl (Covers.closes ?_) hN
    rw [ht]
    exact .refl _ _
  · rw [List.length_append]
    simp only [ht]
    omega

theorem finishes_else
    (his : Accepts ((c.scope (f :: fs)).inside t.results) is (knowns t.params)
      (knowns t.results) n d)
    (hN : below.length + pre.length + (t.params.length + n + t.results.length) ≤ N)
    (hD : fs.length + 2 + d ≤ D) :
    Finishes c f fs below pre mo mf .if_ t (.else_ :: is ++ [.end_]) N D := by
  intro ys rest u hr hx
  have hlen := hr.length_le
  rw [List.cons_append, Instr.checkAll, post_bind, WasmCheck.post_check, Instr.rule, post_checkElse,
    if_pos rfl]
  refine post_switch_of_closes rfl hx ?_ ?_ ?_
  · rw [post_checkAll_append]
    refine (his.fills rfl).mono ?_ ?_
    · rintro - s ⟨u', ys', hx', rfl⟩
      exact finishes_end (.inr (.inr rfl)) (by omega) ys' rest u' hr hx'
    · intro e _ he
      rw [List.length_append, List.length_cons] at he
      exact he.mono (by omega) (by omega)
  · rw [List.length_append]
    simp only
    omega
  · rw [List.length_cons]
    omega

end Construct

namespace Accepts

variable {Γ : Scope} {t : BlockType} {ft : FuncType} {is js : List Instr}
  {ss ss' ts ts' us : List Operand} {n d n' d' : Nat}

theorem mono (h : Accepts Γ is ss ts n d) (hn : n ≤ n') (hd : d ≤ d') :
    Accepts Γ is ss ts n' d' := by
  intro c f fs xs below pre mo mf hΓ hf hc
  refine (h c f fs xs below pre mo mf hΓ hf hc).mono (fun _ _ hl => hl) (fun e _ he => ?_)
  exact he.mono (by omega) (by omega)

/-- A block or a loop; the label of the one carries results, that of the other parameters. -/
theorem enclosed {kind : FrameKind} {i : Instr} {lt : List ValueType} (ht : t.Means Γ.module ft)
    (hi : ∀ c, i.rule c = do Instr.enter kind (← Attempt.ofExcept (t.funcType c.module)))
    (hk : kind = .block ∨ kind = .loop ∨ kind = .else_)
    (hlt : ∀ n, Frame.labelTypes ⟨kind, ft.params, ft.results, n, false⟩ = lt)
    (h : Accepts (Γ.inside lt) is (knowns ft.params) (knowns ft.results) n d) :
    Accepts Γ (i :: is ++ [.end_]) (knowns ft.params) (knowns ft.results)
      (ft.params.length + n + ft.results.length) (d + 1) := by
  rintro c f fs xs below pre mo mf rfl hf hc
  rw [reverse_knowns] at hc ⊢
  rw [List.cons_append, post_checkAll_enter ht (hi c)]
  exact (finishes_end hk (by omega)).enclose hf h hlt hc (by omega) (by omega)

theorem block (ht : t.Means Γ.module ft)
    (h : Accepts (Γ.inside ft.results) is (knowns ft.params) (knowns ft.results) n d) :
    Accepts Γ (.block t :: is ++ [.end_]) (knowns ft.params) (knowns ft.results)
      (ft.params.length + n + ft.results.length) (d + 1) :=
  enclosed ht (fun _ => rfl) (.inl rfl) (fun _ => rfl) h

theorem loop (ht : t.Means Γ.module ft)
    (h : Accepts (Γ.inside ft.params) is (knowns ft.params) (knowns ft.results) n d) :
    Accepts Γ (.loop t :: is ++ [.end_]) (knowns ft.params) (knowns ft.results)
      (ft.params.length + n + ft.results.length) (d + 1) :=
  enclosed ht (fun _ => rfl) (.inr (.inl rfl)) (fun _ => rfl) h

theorem ifThen (ht : t.Means Γ.module ft) (hp : ft.params = ft.results)
    (h : Accepts (Γ.inside ft.results) is (knowns ft.params) (knowns ft.results) n d) :
    Accepts Γ (.if_ t :: is ++ [.end_]) (knowns ft.params ++ [known .i32]) (knowns ft.results)
      (ft.params.length + n + ft.results.length) (d + 1) := by
  rintro c f fs xs below pre mo mf rfl hf hc
  rw [List.reverse_append, reverse_knowns] at hc
  rw [reverse_knowns]
  obtain ⟨hi, hps⟩ := hc.pop [.i32]
  rw [List.cons_append, post_checkAll_if ht hf hi]
  exact (finishes_if hp (by omega) (by omega)).enclose hf h (fun _ => rfl) hps (by omega)
    (by omega)

theorem ifElse (ht : t.Means Γ.module ft)
    (h : Accepts (Γ.inside ft.results) is (knowns ft.params) (knowns ft.results) n d)
    (h' : Accepts (Γ.inside ft.results) js (knowns ft.params) (knowns ft.results) n' d') :
    Accepts Γ (.if_ t :: is ++ .else_ :: js ++ [.end_]) (knowns ft.params ++ [known .i32])
      (knowns ft.results) (ft.params.length + n + n' + ft.results.length) (d + d' + 1) := by
  rintro c f fs xs below pre mo mf rfl hf hc
  rw [List.reverse_append, reverse_knowns] at hc
  rw [reverse_knowns]
  obtain ⟨hi, hps⟩ := hc.pop [.i32]
  rw [List.append_assoc, List.cons_append, post_checkAll_if ht hf hi]
  exact (finishes_else h' (by omega) (by omega)).enclose hf h (fun _ => rfl) hps (by omega)
    (by omega)

theorem seq (h : Accepts Γ is ss ts n d) (h' : Accepts Γ js ts us n d) :
    Accepts Γ (is ++ js) ss us n d := by
  rintro c f fs xs below pre mo mf rfl hf hc
  rw [post_checkAll_append]
  refine (h c f fs xs below pre mo mf rfl hf hc).mono ?_ (fun _ _ he => he)
  rintro - s ⟨u, ys, hys, rfl⟩
  exact h' c { f with unreachable := u } fs ys below pre mo mf rfl hf hys

/-- The operands under those that are touched count as operands under the code. -/
theorem frame (ps : List Operand) (h : Accepts Γ is ss ts n d) :
    Accepts Γ is (ps ++ ss) (ps ++ ts) (ps.length + n) d := by
  intro c f fs xs below pre mo mf hΓ hf hc
  rw [List.reverse_append, List.append_assoc] at hc ⊢
  refine (h c f fs xs below (ps.reverse ++ pre) mo mf hΓ hf hc).mono (fun _ _ hl => hl) ?_
  intro e _ he
  rw [List.length_append, List.length_reverse] at he
  exact he.mono (by omega) (by omega)

theorem sub (hs : SubAll ss' ss) (ht : SubAll ts ts') (h : Accepts Γ is ss ts n d) :
    Accepts Γ is ss' ts' n d := by
  intro c f fs xs below pre mo mf hΓ hf hc
  have hxs := hc.trans (.push hs.reverse (.refl _ pre))
  refine (h c f fs xs below pre mo mf hΓ hf hxs).mono ?_ (fun _ _ he => he)
  rintro - s ⟨u, ys, hys, rfl⟩
  exact ⟨u, ys, hys.trans (.push ht.reverse (.refl _ pre)), rfl⟩

end Accepts

/-! ## Bodies -/

/-- Code is accepted at each type that it has, if the functions it refers to have types. -/
theorem Typed.accepts {Γ : Scope} {code : Code} {ss ts : List Operand} (h : Typed Γ code ss ts)
    (href : Γ.module.RefsTyped (flatAll code)) : ∃ n d, Accepts Γ (flatAll code) ss ts n d := by
  induction h with
  | nil => exact ⟨0, 0, fun c f fs xs below pre mo mf _ _ hc => .same hc⟩
  | op ho =>
    rw [flatAll_singleton] at *
    exact ⟨_, _, .op ho href⟩
  | block ht _ ih =>
    rw [flatAll_singleton] at *
    obtain ⟨n, d, ih⟩ := ih (href.mono (by simp [Node.flat]))
    exact ⟨_, _, .block ht ih⟩
  | loop ht _ ih =>
    rw [flatAll_singleton] at *
    obtain ⟨n, d, ih⟩ := ih (href.mono (by simp [Node.flat]))
    exact ⟨_, _, .loop ht ih⟩
  | ifThen ht hp _ ih =>
    rw [flatAll_singleton] at *
    obtain ⟨n, d, ih⟩ := ih (href.mono (by simp [Node.flat]))
    exact ⟨_, _, .ifThen ht hp ih⟩
  | ifElse ht _ _ ih ih' =>
    rw [flatAll_singleton] at *
    obtain ⟨n, d, ih⟩ := ih (href.mono (by simp [Node.flat]))
    obtain ⟨n', d', ih'⟩ := ih' (href.mono fun _ hi => by simp [Node.flat, hi])
    exact ⟨_, _, .ifElse ht ih ih'⟩
  | seq _ _ ih ih' =>
    rw [flatAll_append] at *
    obtain ⟨n, d, ih⟩ := ih (href.mono (List.subset_append_left ..))
    obtain ⟨n', d', ih'⟩ := ih' (href.mono (List.subset_append_right ..))
    exact ⟨max n n', max d d', .seq (ih.mono (Nat.le_max_left ..) (Nat.le_max_left ..))
      (ih'.mono (Nat.le_max_right ..) (Nat.le_max_right ..))⟩
  | frame pre _ ih =>
    obtain ⟨n, d, ih⟩ := ih href
    exact ⟨_, _, ih.frame pre⟩
  | sub hs ht _ ih =>
    obtain ⟨n, d, ih⟩ := ih href
    exact ⟨n, d, ih.sub hs ht⟩

theorem Accepts.closes_body {m : Module} {t : FuncType} {groups : List LocalGroup}
    {is : List Instr} {n d : Nat}
    (h : Accepts (.ofBody m t groups) is [] (knowns t.results) n d) (config : Config) :
    Post (Instr.checkAll (BodyChecker.initial m t groups config).context (is ++ [.end_]))
      (BodyChecker.initial m t groups config).stack (fun _ s => s.frames = [])
      (fun e _ => Short config.maxOperands config.maxFrames n (1 + d) e) := by
  rw [post_checkAll_append]
  refine (h _ _ [] [] [] [] config.maxOperands config.maxFrames rfl rfl (.refl _ [])).mono ?_ ?_
  · rintro - s ⟨u, ys, hc, rfl⟩
    rw [reverse_knowns, List.append_nil] at hc
    rw [Instr.checkAll, post_bind, WasmCheck.post_check, Instr.rule, post_checkEnd]
    simp only
    rw [post_closeFrame rfl, if_pos (Covers.closes hc)]
    rfl
  · intro e _ he
    exact he.mono (by simp) (by simp)

/-- A body is refused only for the number of its variables, of its operands, or of its frames. -/
theorem Accepts.checkBody {m : Module} {b : FunctionBody} {t : FuncType} {is : List Instr}
    {n d : Nat} (ht : m.types[b.typeIndex.toNat]? = some t)
    (hcode : b.code.map (·.instr) = is ++ [.end_])
    (h : Accepts (.ofBody m t b.locals) is [] (knowns t.results) n d) (config : Config) :
    m.checkBody config b = .ok () ∨
      ∃ e, m.checkBody config b = .error e ∧ e.error.category = .capacity ∧
        (config.maxLocals.toNat < (Locals.mk t.params b.locals).total ∨
          config.maxOperands < n ∨ config.maxFrames < 1 + d) := by
  rw [Module.checkBody_eq ht, BodyChecker.start_eq]
  by_cases hl : config.maxLocals.toNat < (Locals.mk t.params b.locals).total
  · rw [if_pos hl]
    exact .inr ⟨_, rfl, rfl, .inl hl⟩
  rw [if_neg hl]
  by_cases hd : config.maxFrames = 0
  · rw [if_pos hd]
    exact .inr ⟨_, rfl, rfl, by omega⟩
  rw [if_neg hd]
  have hrun := BodyChecker.steps_of_post (k := .initial m t b.locals config) b.code
    (hcode ▸ h.closes_body config)
  cases hs : (BodyChecker.initial m t b.locals config).steps b.code with
  | ok k' =>
    rw [hs] at hrun
    simp only [hs]
    exact .inl ((BodyChecker.finish_eq_ok_iff k' _).2 hrun.2)
  | error e =>
    rw [hs] at hrun
    simp only [hs]
    exact .inr ⟨e, rfl, hrun.1, .inr hrun.2⟩

/-- A well-typed body that refers to functions with types is accepted, unless a limit is too low.
For the variables it is high enough if it is their number. -/
theorem FunctionBody.checkBody_of_wellTyped (m : Module) (b : FunctionBody) (h : b.WellTyped m)
    (href : m.RefsTyped (b.code.map (·.instr))) :
    (∀ config, m.checkBody config b = .ok () ∨
      ∃ d, m.checkBody config b = .error d ∧ d.error.category = .capacity) ∧
    ∃ t operands frames, m.types[b.typeIndex.toNat]? = some t ∧ ∀ config : Config,
      operands ≤ config.maxOperands → frames ≤ config.maxFrames →
      (Locals.mk t.params b.locals).total ≤ config.maxLocals.toNat →
      m.checkBody config b = .ok () := by
  obtain ⟨t, code, ht, hcode, htyped⟩ := h
  have hcodeRefs : m.RefsTyped (flatAll code) :=
    href.mono (by rw [hcode]; exact List.subset_append_left ..)
  obtain ⟨n, d, hacc⟩ := htyped.accepts hcodeRefs
  constructor
  · intro config
    rcases hacc.checkBody ht hcode config with hok | ⟨e, he, hc, -⟩
    · exact .inl hok
    · exact .inr ⟨e, he, hc⟩
  · refine ⟨t, n, 1 + d, ht, fun config hn hd hl => ?_⟩
    rcases hacc.checkBody ht hcode config with hok | ⟨e, -, -, hlow⟩
    · exact hok
    · omega

/-- Refers to itself and returns its argument early. The selection behind the jump takes any two
operands. -/
def FunctionBody.early : FunctionBody := .withCode (.ofType 0) 0
  [.op (.fixed (.refFunc 0)), .op .drop,
  .block (.result .i32),
    .op (.fixed (.localGet 0)), .op (.br 0), .op .select, .op (.brIf 0),
  .end_, .end_]

def Module.early : Module := ((Module.empty.addType ⟨[.i32], [.i32]⟩).2.addFunction .early).2

theorem FunctionBody.wellTyped_early : early.WellTyped .early := by
  have href (Γ : Scope) (hΓ : Γ.module.functionSpace[0]? = some 0) :
      Op.HasType Γ (.fixed (.refFunc 0)) [] [known .funcref] := .fixed (.refFunc hΓ)
  have hselect (Γ : Scope) : Typed Γ [.op .select] [known .i32, unknown, unknown, known .i32]
      [known .i32, known .i32] :=
    .sub (.refl _) (.cons (.refl _) (.cons (.bottom _) .nil))
      (.frame [known .i32] (.op .selectBottom))
  have hget (Γ : Scope) (hΓ : Γ.locals[0]? = some .i32) : Op.HasType (Γ.inside [.i32])
      (.fixed (.localGet 0)) [] [known .i32] := .fixed (.localGet hΓ)
  have hbr (Γ : Scope) (us : List Operand) : Op.HasType (Γ.inside [.i32]) (.br 0)
      [known .i32] us := .br [] us (show _ = some [.i32] from rfl)
  have hbrIf (Γ : Scope) : Op.HasType (Γ.inside [.i32]) (.brIf 0)
      [known .i32, known .i32] [known .i32] := .brIf (show _ = some [.i32] from rfl)
  have hbody (Γ : Scope) (hΓ : Γ.locals[0]? = some .i32) : Typed (Γ.inside [.i32])
      ([.op (.fixed (.localGet 0))] ++ ([.op (.br 0)] ++ ([.op .select] ++ [.op (.brIf 0)])))
      (knowns []) (knowns [.i32]) :=
    .seq (.op (hget Γ hΓ)) (.seq (.op (hbr Γ _)) (.seq (hselect _) (.op (hbrIf Γ))))
  have hcode : early.code.map (·.instr) = flatAll ([.op (.fixed (.refFunc 0))] ++ ([.op .drop] ++
      [.block (.result .i32) ([.op (.fixed (.localGet 0))] ++ ([.op (.br 0)] ++
        ([.op .select] ++ [.op (.brIf 0)])))])) ++ [.end_] := rfl
  exact ⟨_, _, rfl, hcode,
    .seq (.op (href _ rfl)) (.seq (.op (.drop _)) (.block (.result .i32) (hbody _ rfl)))⟩

/-- One variable, one operand and two frames are enough, and no frame is to spare. -/
theorem FunctionBody.checkBody_early :
    early.WellTyped .early ∧ Module.early.RefsTyped (early.code.map (·.instr)) ∧
      (∃ operands frames, ∀ config : Config, operands ≤ config.maxOperands →
        frames ≤ config.maxFrames → 1 ≤ config.maxLocals.toNat →
        Module.early.checkBody config early = .ok ()) ∧
      Module.early.checkBody ⟨1, 2, 1, false⟩ early = .ok () ∧
      ∃ d, Module.early.checkBody ⟨1, 1, 1, false⟩ early = .error d ∧
        d.error.category = .capacity := by
  have hok : Module.early.checkDeclarations = .ok () := rfl
  have href := Module.refsTyped_of_checkDeclarations hok (early.code.map (·.instr))
  obtain ⟨hany, t, operands, frames, ht, henough⟩ :=
    checkBody_of_wellTyped .early early wellTyped_early href
  cases ht
  refine ⟨wellTyped_early, href, ⟨operands, frames, henough⟩, by decide, ?_⟩
  exact (hany ⟨1, 1, 1, false⟩).resolve_left (by decide)

/-- Imports a function whose type is missing and refers to it. -/
def Module.untypedReference : Module where
  types := [⟨[], []⟩]
  imports := [7]
  functions := [.withCode (.ofType 0) 0 [.op (.fixed (.refFunc 0)), .op .drop, .end_]]
  tables := []
  memories := []
  globals := []
  segments := []

/-- Without the type of the function the reference is refused, although it is well typed. -/
theorem FunctionBody.checkBody_untypedReference :
    ∃ b, Module.untypedReference.functions[0]? = some b ∧ b.WellTyped .untypedReference ∧
      ∃ d, Module.untypedReference.checkBody {} b = .error d ∧ d.error.category = .validation ∧
        d.error.message = "type variable out of range: 7 (max 1)" := by
  have href (Γ : Scope) (h : Γ.module.functionSpace[0]? = some 7) :
      Op.HasType Γ (.fixed (.refFunc 0)) [] [known .funcref] := .fixed (.refFunc h)
  refine ⟨_, rfl, ⟨_, [.op (.fixed (.refFunc 0))] ++ [.op .drop], rfl, rfl, ?_⟩, _, rfl, rfl, rfl⟩
  exact .seq (.op (href _ rfl)) (.op (.drop _))

end WasmCheck
