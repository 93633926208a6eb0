import WasmCheck.Proofs.Typing.Covers
import WasmCheck.Proofs.Typing.Signature
import WasmCheck.Proofs.Body.Rules
import WasmCheck.Proofs.Body.Run

/-!
# Accepted code is well typed

While a body is checked, every open frame holds code that is not complete yet. `Spine` ties the
frames to it: the code of each frame takes the parameters of the frame to every operand list that
the operands of the frame stand for, and the instructions read so far are the flat form of all of
it. An operation extends the code of the innermost frame, a marker opens a layer or makes a node of
it.
-/

namespace WasmCheck

open Operand (known unknown)
open Stack Attempt

/-- The code takes the parameters to all operands that the operands at hand stand for. -/
def Derives (Γ : Scope) (u : Bool) (code : Code) (ps : List ValueType) (xs : List Operand) : Prop :=
  ∀ ss, Covers u xs ss → Typed Γ code (knowns ps) ss.reverse

namespace Derives

variable {Γ : Scope} {u : Bool} {code node : Code} {ps : List ValueType}
  {xs ys ins outs rest : List Operand}

theorem start (Γ : Scope) (ps : List ValueType) : Derives Γ false [] ps (knowns ps.reverse) := by
  intro ss h
  have := h.subAll.reverse
  rw [reverse_knowns, List.reverse_reverse] at this
  exact .skip this

theorem weaken (h : Derives Γ u code ps xs) (hc : Covers u xs ys) : Derives Γ u code ps ys :=
  fun ss hs => h ss (hc.trans hs)

theorem append (h : Derives Γ u code ps (ins ++ rest))
    (hn : Typed Γ node ins.reverse outs.reverse) :
    Derives Γ u (code ++ node) ps (outs ++ rest) := by
  intro ss hs
  obtain ⟨outs', rest', rfl, ho, hr⟩ := hs.split
  have hcode := h (ins ++ rest') (.push (.refl ins) hr)
  rw [List.reverse_append] at hcode ⊢
  exact .seq hcode (.sub (.refl _) (.append (.refl _) ho.reverse) (hn.frame rest'.reverse))

theorem jump (h : Derives Γ u code ps (ins ++ rest))
    (hn : ∀ ss us, Typed Γ node (ss ++ ins.reverse) us) : Derives Γ true (code ++ node) ps [] := by
  intro us _
  have hcode := h _ (.refl u _)
  rw [List.reverse_append] at hcode
  exact .seq hcode (hn _ _)

end Derives

/-- How the frame was entered: by which instructions, and what they took from the frames around. -/
inductive Entry (c : Context) (fs : List Frame) : Frame → List Instr → List ValueType → Prop where
  | block {t : BlockType} {ft : FuncType} {h : Nat} {u : Bool} : t.Means c.module ft →
      Entry c fs ⟨.block, ft.params, ft.results, h, u⟩ [.block t] ft.params
  | loop {t : BlockType} {ft : FuncType} {h : Nat} {u : Bool} : t.Means c.module ft →
      Entry c fs ⟨.loop, ft.params, ft.results, h, u⟩ [.loop t] ft.params
  | if_ {t : BlockType} {ft : FuncType} {h : Nat} {u : Bool} : t.Means c.module ft →
      Entry c fs ⟨.if_, ft.params, ft.results, h, u⟩ [.if_ t] (ft.params ++ [.i32])
  | else_ {t : BlockType} {ft : FuncType} {h : Nat} {u : Bool} {body : Code} :
      t.Means c.module ft →
      Typed ((c.scope fs).inside ft.results) body (knowns ft.params) (knowns ft.results) →
      Entry c fs ⟨.else_, ft.params, ft.results, h, u⟩ (.if_ t :: flatAll body ++ [.else_])
        (ft.params ++ [.i32])

/-- The instructions read so far, and the code that each open frame holds. -/
inductive Spine (c : Context) :
    List Instr → Frame → List Frame → List Operand → List Operand → Prop where
  | function {code : Code} {u : Bool} {xs : List Operand} :
      Derives (c.scope [⟨.function, [], c.results, 0, u⟩]) u code [] xs →
      Spine c (flatAll code) ⟨.function, [], c.results, 0, u⟩ [] xs []
  | inner {is opening : List Instr} {f g : Frame} {fs : List Frame} {ins : List ValueType}
      {xs rest below : List Operand} {code : Code} :
      Spine c is g fs (knowns ins.reverse ++ rest) below → Entry c (g :: fs) f opening ins →
      f.height = (rest ++ below).length →
      Derives (c.scope (f :: g :: fs)) f.unreachable code f.params xs →
      Spine c (is ++ opening ++ flatAll code) f (g :: fs) xs (rest ++ below)

namespace Spine

variable {c : Context} {is : List Instr} {f : Frame} {fs : List Frame}
  {xs ys rest below : List Operand}

theorem height (h : Spine c is f fs xs below) : f.height = below.length := by
  cases h with
  | function => rfl
  | inner _ _ hh => exact hh

/-- The innermost layer may be exchanged for another one of the same frame. -/
theorem focus (h : Spine c is f fs xs below) : ∃ before code, is = before ++ flatAll code ∧
    Derives (c.scope (f :: fs)) f.unreachable code f.params xs ∧
    ∀ code' u' xs', Derives (c.scope (f :: fs)) u' code' f.params xs' →
      Spine c (before ++ flatAll code') { f with unreachable := u' } fs xs' below := by
  cases h with
  | function hd => exact ⟨[], _, rfl, hd, fun code' u' xs' hd' => .function hd'⟩
  | inner hs he hh hd =>
    refine ⟨_, _, rfl, hd, fun code' u' xs' hd' => .inner hs ?_ hh hd'⟩
    cases he with
    | block ht => exact .block ht
    | loop ht => exact .loop ht
    | if_ ht => exact .if_ ht
    | else_ ht hb => exact .else_ ht hb

theorem weaken (h : Spine c is f fs xs below) (hc : Covers f.unreachable xs ys) :
    Spine c is f fs ys below := by
  obtain ⟨before, code, rfl, hd, hs⟩ := h.focus
  exact hs code f.unreachable ys (hd.weaken hc)

theorem append (h : Spine c is f fs xs below) (n : Node) (ins outs : List Operand)
    (hc : Covers f.unreachable xs (ins ++ rest))
    (hn : Typed (c.scope (f :: fs)) [n] ins.reverse outs.reverse) :
    Spine c (is ++ n.flat) f fs (outs ++ rest) below := by
  obtain ⟨before, code, rfl, hd, hs⟩ := h.focus
  have := hs _ f.unreachable _ ((hd.weaken hc).append hn)
  rwa [flatAll_append, flatAll_singleton, ← List.append_assoc] at this

theorem jump (h : Spine c is f fs xs below) (n : Node) (ins : List Operand)
    (hc : Covers f.unreachable xs (ins ++ rest))
    (hn : ∀ ss us, Typed (c.scope (f :: fs)) [n] (ss ++ ins.reverse) us) :
    Spine c (is ++ n.flat) { f with unreachable := true } fs [] below := by
  obtain ⟨before, code, rfl, hd, hs⟩ := h.focus
  have := hs _ true [] ((hd.weaken hc).jump hn)
  rwa [flatAll_append, flatAll_singleton, ← List.append_assoc] at this

end Spine

def Context.outermost (c : Context) : Scope := ⟨c.module, c.locals.types, [c.results], c.results⟩

/-- The instructions are those of typed nested code, and the end of the function. -/
def Complete (c : Context) (is : List Instr) : Prop :=
  ∃ code, is = flatAll code ++ [.end_] ∧ Typed c.outermost code [] (knowns c.results)

/-- The stack is that of a checker that has read the instructions. -/
inductive Explained (c : Context) (is : List Instr) : Stack → Prop where
  | unfinished {f : Frame} {fs : List Frame} {xs below : List Operand} {mo mf : Nat} :
      Spine c is f fs xs below → Explained c is ⟨xs ++ below, f :: fs, mo, mf⟩
  | finished {below : List Operand} {mo mf : Nat} :
      Complete c is → Explained c is ⟨below, [], mo, mf⟩

/-- The operands that a selection takes may be read as two of the type that it leaves. -/
theorem Selects.covers {u : Bool} {ys : List Operand} {o : Operand} (h : Selects u ys o) :
    Covers u ys (o :: o :: ys.drop 2) ∧
      ∀ Γ, Op.HasType Γ .select [o, o, .known .i32] [o] := by
  cases h with
  | known _ hn hf => exact ⟨.of_fits hf, fun _ => .select hn⟩
  | unknown hu hl =>
    refine ⟨?_, fun _ => .selectBottom⟩
    rcases ys with _ | ⟨y, _ | ⟨z, ys⟩⟩
    · exact .gap (by simpa using hl) _
    · rw [hu y (by simp)]
      exact .cons (.refl _) (.gap (by simpa using hl) _)
    · rw [hu y (by simp), hu z (by simp)]
      exact .refl u _

/-! ## Operations -/

section Step
variable {c : Context} {is : List Instr} {f : Frame} {fs : List Frame}
  {xs below : List Operand} {mo mf : Nat} {n : Node}

theorem Spine.post_brTable (h : Spine c is f fs xs below) (ls : List UInt32) (d : UInt32) :
    Post (Op.checkBrTable ls d) ⟨xs ++ below, f :: fs, mo, mf⟩
      (fun _ => Explained c (is ++ [.op (.brTable ls d)])) (fun _ _ => True) := by
  have hf := h.height
  simp only [Op.checkBrTable, post_bind, post_pop hf, post_labelTypes]
  split
  · next hi =>
    split
    · next g hg =>
      refine post_checkLabels hf (fun hls => ?_) (fun _ _ _ => trivial)
      rw [post_peekAll hf]
      split
      · next hd =>
        rw [post_markUnreachable hf]
        obtain ⟨os, hc, hs⟩ := Covers.exists_supply hd
        have hxs : Covers f.unreachable xs (known .i32 :: os ++ _) :=
          (Covers.of_fits hi).trans (.cons (.refl _) hc)
        show Explained c _ ⟨[] ++ below, _, mo, mf⟩
        refine .unfinished (h.jump (.op (.brTable ls d)) _ hxs fun ss us => .op ?_)
        rw [List.reverse_cons, ← List.append_assoc]
        refine .brTable ss us fun l hl => ?_
        have hok : ∃ g', (f :: fs)[l.toNat]? = some g' ∧
            g'.labelTypes.length = g.labelTypes.length ∧
            fits f.unreachable (xs.drop 1) g'.labelTypes.reverse = true := by
          rcases List.mem_cons.1 hl with rfl | hl
          · exact ⟨g, hg, rfl, hd⟩
          · exact hls l hl
        obtain ⟨g', hg', hn, hfit⟩ := hok
        refine ⟨g'.labelTypes, Context.label_eq_some_iff.2 ⟨g', hg', rfl⟩, ?_⟩
        have := (hs _ (by simpa using hn) hfit).reverse
        rwa [reverse_knowns, List.reverse_reverse] at this
      · trivial
    · trivial
  · trivial

theorem Spine.post_select (h : Spine c is f fs xs below) :
    Post Op.checkSelect ⟨xs ++ below, f :: fs, mo, mf⟩
      (fun _ => Explained c (is ++ [.op .select])) (fun _ _ => True) := by
  refine post_checkSelect h.height (fun hi o ho _ => ?_) (fun _ _ _ _ => trivial)
    (fun _ _ _ _ => trivial)
  obtain ⟨hc, ht⟩ := ho.covers
  have hxs := (Covers.of_fits hi).trans (.cons (.refl _) hc)
  exact .unfinished (h.append (.op .select) [known .i32, o, o] [o] hxs
    (.op (ht _)))

theorem Spine.post_apply (h : Spine c is f fs xs below) {ps rs : List ValueType} {d : String}
    (hn : Typed (c.scope (f :: fs)) [n] (knowns ps) (knowns rs)) :
    Post (popAll ps d >>= fun _ => pushAll rs) ⟨xs ++ below, f :: fs, mo, mf⟩
      (fun _ => Explained c (is ++ n.flat)) (fun _ _ => True) := by
  rw [WasmCheck.post_apply h.height]
  split
  · next hp =>
    split
    · trivial
    · have hr : Typed (c.scope (f :: fs)) [n] (knowns ps.reverse).reverse
          (knowns rs.reverse).reverse := by simpa using hn
      exact .unfinished (h.append n _ _ (.of_fits_reverse hp) hr)
  · trivial

theorem Spine.post_jump (h : Spine c is f fs xs below) {ts : List ValueType} {d : String}
    (hn : ∀ ss us, Typed (c.scope (f :: fs)) [n] (ss ++ knowns ts) us) :
    Post (popAll ts d >>= fun _ => markUnreachable) ⟨xs ++ below, f :: fs, mo, mf⟩
      (fun _ => Explained c (is ++ n.flat)) (fun _ _ => True) := by
  rw [WasmCheck.post_jump h.height]
  split
  · next hp =>
    show Explained c _ ⟨[] ++ below, _, mo, mf⟩
    exact .unfinished (h.jump n _ (.of_fits_reverse hp) (by simpa using hn))
  · trivial

theorem Spine.post_brIf (h : Spine c is f fs xs below) (l : UInt32) :
    Post (Op.checkBrIf l) ⟨xs ++ below, f :: fs, mo, mf⟩
      (fun _ => Explained c (is ++ [.op (.brIf l)])) (fun _ _ => True) := by
  rw [Op.checkBrIf, post_bind, post_pop h.height]
  split
  · next hi =>
    rw [post_bind, post_labelTypes]
    split
    · next g hg =>
      rw [WasmCheck.post_apply h.height]
      split
      · next hp =>
        split
        · trivial
        · have hxs := (Covers.of_fits hi).trans (.cons (.refl _) (.of_fits_reverse hp))
          have ht : Op.HasType (c.scope (f :: fs)) (.brIf l)
              (knowns g.labelTypes ++ [known .i32]) (knowns g.labelTypes) :=
            .brIf (Context.label_eq_some_iff.2 ⟨g, hg, rfl⟩)
          exact .unfinished (h.append (.op (.brIf l))
            (known .i32 :: knowns g.labelTypes.reverse) (knowns g.labelTypes.reverse) hxs
            (.op (by simpa using ht)))
      · trivial
    · trivial
  · trivial

/-- An operation that is accepted extends the code of the innermost frame. -/
theorem Spine.post_op (h : Spine c is f fs xs below) (o : Op) :
    Post (o.check c) ⟨xs ++ below, f :: fs, mo, mf⟩ (fun _ => Explained c (is ++ [.op o]))
      (fun _ _ => True) := by
  have hf := h.height
  cases o with
  | unreachable =>
    rw [Op.check, post_markUnreachable hf]
    show Explained c _ ⟨[] ++ below, _, mo, mf⟩
    exact .unfinished (h.jump (.op .unreachable) [] (.refl _ _)
      fun ss us => .op (.unreachable _ _))
  | nop =>
    exact .unfinished (h.append (.op .nop) [] [] (.refl _ _) (.op .nop))
  | br l =>
    rw [Op.check, Op.checkBr, post_bind, post_labelTypes]
    split
    · next g hg =>
      exact h.post_jump (n := .op (.br l)) fun ss us =>
        .op (.br ss us (Context.label_eq_some_iff.2 ⟨g, hg, rfl⟩))
    · trivial
  | brIf l => exact h.post_brIf l
  | brTable ls d => exact h.post_brTable ls d
  | return_ => exact h.post_jump (n := .op .return_) fun ss us => .op (.return_ ss us)
  | drop =>
    rw [Op.check, post_bind, post_popAny hf]
    split
    · trivial
    · next hx =>
      exact .unfinished (h.append (.op .drop) [_] [] (.of_head hx)
        (.op (.drop _)))
  | select => exact h.post_select
  | refIsNull =>
    rw [Op.check, post_bind, post_popReference hf]
    split
    · next hr =>
      obtain ⟨r, hc⟩ := Covers.of_supplyReference hr
      rw [push, post_pushOperand]
      split
      · trivial
      · exact .unfinished (h.append (.op .refIsNull) [known r.toValueType] [known .i32] hc
          (.op (.refIsNull r)))
    · trivial
  | fixed o =>
    rw [Op.check, FixedOp.check, post_bind, post_ofExcept]
    refine ⟨fun t ht => ?_, fun _ _ => trivial⟩
    exact h.post_apply (n := .op (.fixed o)) (.op (.fixed (FixedOp.hasType_of_type _ ht)))

end Step

/-! ## Markers -/

section Marker
variable {c : Context} {is opening : List Instr} {f g : Frame} {fs : List Frame}
  {xs ys rest below : List Operand} {ins : List ValueType} {mo mf : Nat}

/-- A new layer starts with its parameters, which it takes from the frame around below `last`. -/
theorem Spine.post_enter (h : Spine c is f fs ys below) {kind : FrameKind} {t : FuncType}
    (last : List ValueType) (hc : Covers f.unreachable ys (knowns last.reverse ++ xs))
    (he : ∀ n, Entry c (f :: fs) ⟨kind, t.params, t.results, n, false⟩ opening (t.params ++ last)) :
    Post (Instr.enter kind t) ⟨xs ++ below, f :: fs, mo, mf⟩
      (fun _ => Explained c (is ++ opening)) (fun _ _ => True) := by
  rw [WasmCheck.post_enter h.height]
  split
  · next hp =>
    split
    · trivial
    split
    · trivial
    have hys : Covers f.unreachable ys
        (knowns (t.params ++ last).reverse ++ xs.drop t.params.length) := by
      have := hc.trans (.push (.refl _) (.of_fits_reverse hp))
      rwa [← List.append_assoc, ← List.map_append, ← List.reverse_append] at this
    have := Spine.inner (h.weaken hys) (he _) rfl (.start _ _)
    rw [flatAll_nil, List.append_nil] at this
    exact .unfinished this
  · trivial

/-- Closed code makes a node, unless a second branch may follow. -/
theorem Entry.node (h : Entry c fs f opening ins) (hk : f.kind ≠ .if_) {code : Code}
    (hc : Typed (c.scope (f :: fs)) code (knowns f.params) (knowns f.results)) :
    ∃ n : Node, n.flat = opening ++ flatAll code ++ [.end_] ∧
      Typed (c.scope fs) [n] (knowns ins) (knowns f.results) := by
  cases h with
  | @block t _ _ _ ht => exact ⟨.block t code, rfl, .block ht hc⟩
  | @loop t _ _ _ ht => exact ⟨.loop t code, rfl, .loop ht hc⟩
  | if_ => exact absurd rfl hk
  | @else_ t _ _ _ body ht hb =>
    refine ⟨.ifElse t body code, by simp [Node.flat], ?_⟩
    rw [knowns, List.map_append]
    exact .ifElse ht hb hc

theorem Derives.closed {Γ : Scope} {code : Code} {ps : List ValueType}
    (h : Derives Γ f.unreachable code ps xs) (hx : closes f xs = true) :
    Typed Γ code (knowns ps) (knowns f.results) := by
  have := h _ (.of_closes hx)
  rwa [reverse_knowns, List.reverse_reverse] at this

theorem Spine.node (h : Spine c is g fs (knowns ins.reverse ++ rest) below) {n : Node}
    {outs : List ValueType} (hn : Typed (c.scope (g :: fs)) [n] (knowns ins) (knowns outs)) :
    Spine c (is ++ n.flat) g fs (knowns outs.reverse ++ rest) below := by
  refine h.append n _ _ (.refl _ _) ?_
  rwa [reverse_knowns, reverse_knowns, List.reverse_reverse, List.reverse_reverse]

theorem Spine.post_leave (h : Spine c is g fs (knowns ins.reverse ++ rest) below)
    (he : Entry c (g :: fs) f opening ins) (hh : f.height = (rest ++ below).length)
    (hk : f.kind ≠ .if_) {code : Code}
    (hd : Derives (c.scope (f :: g :: fs)) f.unreachable code f.params xs) {d : String} :
    Post (Instr.leave d) ⟨xs ++ (rest ++ below), f :: g :: fs, mo, mf⟩
      (fun _ => Explained c (is ++ opening ++ flatAll code ++ [.end_])) (fun _ _ => True) := by
  rw [WasmCheck.post_leave hh]
  split
  · next hx =>
    split
    · trivial
    · obtain ⟨n, hn, ht⟩ := he.node hk (hd.closed hx)
      have := h.node ht
      rw [hn, ← List.append_assoc, ← List.append_assoc] at this
      rw [← List.append_assoc]
      exact .unfinished this
  · trivial

/-- Where the second branch of an if is missing, it is left as it was entered and holds nothing but
the parameters, so that these have to be the results. -/
theorem Spine.post_endIf (h : Spine c is g fs (knowns ins.reverse ++ rest) below)
    (he : Entry c (g :: fs) f opening ins) (hh : f.height = (rest ++ below).length)
    (hk : f.kind = .if_) {code : Code}
    (hd : Derives (c.scope (f :: g :: fs)) f.unreachable code f.params xs) :
    Post (Instr.switch >>= fun _ => Instr.leave "if false branch")
      ⟨xs ++ (rest ++ below), f :: g :: fs, mo, mf⟩
      (fun _ => Explained c (is ++ opening ++ flatAll code ++ [.end_])) (fun _ _ => True) := by
  rw [post_bind, post_switch hh]
  split
  · next hx =>
    split
    · trivial
    split
    · trivial
    rw [WasmCheck.post_leave rfl]
    split
    · next hy =>
      split
      · trivial
      have hp : f.params = f.results :=
        List.reverse_injective (knowns_inj (Covers.of_closes hy).subAll)
      cases he with
      | @if_ t ft _ _ ht =>
        have hn : Typed (c.scope (g :: fs)) [.ifThen t code]
            (knowns (ft.params ++ [.i32])) (knowns ft.results) := by
          rw [knowns, List.map_append]
          exact .ifThen ht hp (hd.closed hx)
        have := h.node hn
        rw [← List.append_assoc]
        rw [Node.flat, ← List.singleton_append, ← List.append_assoc, ← List.append_assoc] at this
        exact .unfinished this
      | _ => cases hk
    · trivial
  · trivial

theorem Spine.post_end (h : Spine c is f fs xs below) :
    Post Instr.checkEnd ⟨xs ++ below, f :: fs, mo, mf⟩ (fun _ => Explained c (is ++ [.end_]))
      (fun _ _ => True) := by
  rw [post_checkEnd]
  cases h with
  | function hd =>
    simp only
    rw [post_closeFrame rfl]
    split
    · next hx => exact .finished ⟨_, rfl, hd.closed hx⟩
    · trivial
  | inner hs he hh hd =>
    cases hk : f.kind with
    | function => cases he <;> cases hk
    | if_ => exact hs.post_endIf he hh hk hd
    | _ => exact hs.post_leave he hh (by simp [hk]) hd

theorem Spine.post_else (h : Spine c is f fs xs below) :
    Post Instr.checkElse ⟨xs ++ below, f :: fs, mo, mf⟩ (fun _ => Explained c (is ++ [.else_]))
      (fun _ _ => True) := by
  rw [post_checkElse]
  split
  · next hk =>
    rw [post_switch h.height]
    split
    · next hx =>
      split
      · trivial
      split
      · trivial
      cases h with
      | function => cases hk
      | inner hs he hh hd =>
        cases he with
        | if_ ht =>
          have := Spine.inner hs (.else_ ht (hd.closed hx)) rfl (.start _ _)
          rw [flatAll_nil, List.append_nil, ← List.singleton_append, ← List.append_assoc,
            ← List.append_assoc] at this
          exact .unfinished this
        | _ => cases hk
    · trivial
  · trivial

/-- An instruction that is accepted takes an explained stack to an explained one. -/
theorem Explained.post_check {s : Stack} (h : Explained c is s) (i : Instr) :
    Post (i.check c) s (fun _ => Explained c (is ++ [i])) (fun _ _ => True) := by
  cases h with
  | finished => exact post_check_nil.2 trivial
  | @unfinished f fs xs below mo mf h =>
    rw [WasmCheck.post_check]
    cases i with
    | block t =>
      simp only [Instr.rule, post_bind, post_ofExcept]
      refine ⟨fun ft ht => h.post_enter [] (.refl _ _) fun n => ?_, fun _ _ => trivial⟩
      rw [List.append_nil]
      exact .block (BlockType.funcType_eq_ok_iff.1 ht)
    | loop t =>
      simp only [Instr.rule, post_bind, post_ofExcept]
      refine ⟨fun ft ht => h.post_enter [] (.refl _ _) fun n => ?_, fun _ _ => trivial⟩
      rw [List.append_nil]
      exact .loop (BlockType.funcType_eq_ok_iff.1 ht)
    | if_ t =>
      simp only [Instr.rule, post_bind, post_ofExcept]
      refine ⟨fun ft ht => ?_, fun _ _ => trivial⟩
      rw [post_pop h.height]
      split
      · next hi =>
        exact h.post_enter [.i32] (.of_fits hi) fun n =>
          .if_ (BlockType.funcType_eq_ok_iff.1 ht)
      · trivial
    | else_ => exact h.post_else
    | end_ => exact h.post_end
    | op o => exact h.post_op o

end Marker

/-! ## Bodies -/

theorem Explained.post_checkAll {c : Context} {is js : List Instr} {s : Stack}
    (h : Explained c is s) :
    Post (Instr.checkAll c js) s (fun _ => Explained c (is ++ js)) (fun _ _ => True) := by
  induction js generalizing is s with
  | nil => simpa [Instr.checkAll] using h
  | cons j js ih =>
    rw [Instr.checkAll, post_bind]
    refine (h.post_check j).mono (fun _ t ht => ?_) (fun _ _ _ => trivial)
    simpa using ih ht

theorem BodyChecker.explained_initial (m : Module) (t : FuncType) (groups : List LocalGroup)
    (config : Config) :
    Explained (initial m t groups config).context [] (initial m t groups config).stack := by
  have hs : Spine (initial m t groups config).context (flatAll []) _ [] [] [] :=
    .function (.start _ [])
  show Explained _ _ ⟨[] ++ [], _, _, _⟩
  exact .unfinished hs

theorem Explained.complete {c : Context} {is : List Instr} {s : Stack} (h : Explained c is s)
    (hs : s.frames = []) : Complete c is := by
  cases h with
  | unfinished => cases hs
  | finished hc => exact hc

/-- A reference is refused if the type of its function is missing. -/
theorem post_check_refsTyped {c : Context} {i : Instr} {s : Stack} :
    Post (i.check c) s (fun _ _ => c.module.RefsTyped [i]) (fun _ _ => True) := by
  by_cases hi : ∃ o, i = .op (.fixed o)
  · obtain ⟨o, rfl⟩ := hi
    exact FixedOp.post_lookup.mono (fun _ _ ⟨t, ht⟩ => FixedOp.refsTyped_of_type ht)
      (fun _ _ _ => trivial)
  · exact (post_run _ s).mono (fun _ _ _ => Module.refsTyped_singleton fun f hf => hi ⟨_, hf⟩)
      (fun _ _ _ => trivial)

theorem post_checkAll_refsTyped {c : Context} {is : List Instr} {s : Stack} :
    Post (Instr.checkAll c is) s (fun _ _ => c.module.RefsTyped is) (fun _ _ => True) := by
  induction is generalizing s with
  | nil => exact c.module.refsTyped_nil
  | cons i is ih =>
    rw [Instr.checkAll, post_bind]
    refine post_check_refsTyped.mono (fun _ t hi => ?_) (fun _ _ _ => trivial)
    exact ih.mono (fun _ _ his => hi.append his) (fun _ _ _ => trivial)

/-- A body that is accepted is well typed, and the functions it refers to have types. -/
theorem FunctionBody.wellTyped_of_checkBody (m : Module) (config : Config) (b : FunctionBody)
    (h : m.checkBody config b = .ok ()) :
    b.WellTyped m ∧ m.RefsTyped (b.code.map (·.instr)) := by
  obtain ⟨t, k, k', ht, hk, hs, hc⟩ := Module.checkBody_eq_ok_iff.1 h
  obtain ⟨-, -, rfl⟩ := BodyChecker.start_eq_ok_iff.1 hk
  have hrun := BodyChecker.steps_of_post b.code (E := fun _ => True ∧ True)
    ((BodyChecker.explained_initial m t b.locals config).post_checkAll.and
      post_checkAll_refsTyped)
  rw [hs, List.nil_append] at hrun
  obtain ⟨-, hexplained, href⟩ := hrun
  obtain ⟨code, hcode, htyped⟩ := hexplained.complete hc
  exact ⟨⟨t, code, ht, hcode, htyped⟩, href⟩

/-- Counts the argument down and returns it; the selection is never reached. -/
def FunctionBody.countdown : FunctionBody := .withCode (.ofType 0) 0
  [.loop .empty,
    .op (.fixed (.localGet 0)), .op (.fixed (.i32Const 1)),
    .op (.fixed (.numeric (.intBinary .i32 .sub))), .op (.fixed (.localTee 0)), .op (.brIf 0),
  .end_,
  .block (.result .i32),
    .op (.fixed (.localGet 0)), .op (.br 0), .op .select, .op (.brIf 0),
  .end_, .end_]

theorem FunctionBody.wellTyped_countdown :
    let m := (Module.empty.addType ⟨[.i32], [.i32]⟩).2
    m.checkBody {} countdown = .ok () ∧ countdown.WellTyped m ∧
      m.RefsTyped (countdown.code.map (·.instr)) :=
  ⟨by decide, wellTyped_of_checkBody _ {} _ (by decide)⟩

end WasmCheck
