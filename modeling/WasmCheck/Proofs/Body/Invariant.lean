import WasmCheck.Proofs.Body.Rules
import WasmCheck.Proofs.Body.Run

/-!
# The invariant of a checker

A checker may be fed on after a failure, from whatever the failed instruction has left. The two
stacks stay in order all the same: `Sound` lists what holds of them at any time. It is carried by
`Layered`, which cuts the operands into one layer for each open frame, so that a rule has to look at
the innermost layers only.
-/

namespace WasmCheck

open Operand (known unknown)
open Stack Attempt

namespace Stack

/-- The operands and the frames of a body with the given results are in order. -/
structure Sound (results : List ValueType) (config : Config) (s : Stack) : Prop where
  size_le : s.size ≤ config.maxOperands
  depth_le : s.depth ≤ config.maxFrames
  floor_le : s.floor ≤ s.size
  /-- Heights do not decrease towards the innermost frame. -/
  heights : s.frames.Pairwise fun inner outer => outer.height ≤ inner.height
  params_le : ∀ f ∈ s.frames, f.height + f.params.length ≤ config.maxOperands
  /-- Either the body is closed, or the frame of the function is the outermost one. -/
  outermost : (s.frames = [] ∧ s.operands = []) ∨ ∃ inner u,
    s.frames = inner ++ [⟨.function, [], results, 0, u⟩] ∧ ∀ f ∈ inner, f.kind ≠ .function
  /-- Only unreachable code leaves operands open. The operands of a frame are those from its height
  on, up to the height of the next inner frame; positions are counted from the bottom. -/
  unknowns : ∀ inner f outer p, s.frames = inner ++ f :: outer → f.height ≤ p →
    (∀ g ∈ inner, p < g.height) → s.operands.reverse[p]? = some unknown → f.unreachable = true

/-- The innermost layer holds `xs`, the others hold `below`, and all of them are in order. -/
inductive Layered (results : List ValueType) (mo : Nat) :
    Frame → List Frame → List Operand → List Operand → Prop where
  | function {u : Bool} {xs : List Operand} : (unknown ∈ xs → u = true) →
      Layered results mo ⟨.function, [], results, 0, u⟩ [] xs []
  | inner {f g : Frame} {fs : List Frame} {xs ys below : List Operand} :
      Layered results mo g fs ys below → f.kind ≠ .function → f.height = (ys ++ below).length →
      f.height + f.params.length ≤ mo → (unknown ∈ xs → f.unreachable = true) →
      Layered results mo f (g :: fs) xs (ys ++ below)

namespace Layered

variable {results : List ValueType} {mo mf : Nat} {f : Frame} {fs : List Frame}
  {xs ys below : List Operand}

theorem height (h : Layered results mo f fs xs below) : f.height = below.length := by
  cases h with
  | function => rfl
  | inner _ _ hh => exact hh

theorem unknowns (h : Layered results mo f fs xs below) (hx : unknown ∈ xs) :
    f.unreachable = true := by
  cases h with
  | function hu => exact hu hx
  | inner _ _ _ _ hu => exact hu hx

theorem exchange (h : Layered results mo f fs xs below)
    (hy : unknown ∈ ys → f.unreachable = true) : Layered results mo f fs ys below := by
  cases h with
  | function => exact .function hy
  | inner hs hk hh hp => exact .inner hs hk hh hp hy

theorem drop (h : Layered results mo f fs xs below) (n : Nat) :
    Layered results mo f fs (xs.drop n) below :=
  h.exchange fun hx => h.unknowns (List.mem_of_mem_drop hx)

theorem push (h : Layered results mo f fs xs below) (ts : List ValueType) :
    Layered results mo f fs (ts.map .known ++ xs) below := by
  refine h.exchange fun hx => h.unknowns ?_
  rcases List.mem_append.1 hx with hx | hx
  · obtain ⟨t, -, ht⟩ := List.mem_map.1 hx
    cases ht
  · exact hx

theorem jump (h : Layered results mo f fs xs below) :
    Layered results mo { f with unreachable := true } fs [] below := by
  cases h with
  | function => exact .function fun _ => rfl
  | inner hs hk hh hp => exact .inner hs hk hh hp fun _ => rfl

theorem heights (h : Layered results mo f fs xs below) :
    (f :: fs).Pairwise fun inner outer => outer.height ≤ inner.height := by
  induction h with
  | function => exact List.pairwise_singleton _ _
  | @inner f g fs xs ys below hs hk hh _ _ ih =>
    have hg : g.height ≤ f.height := by
      rw [hs.height, hh, List.length_append]
      omega
    refine .cons (fun a ha => ?_) ih
    rcases List.mem_cons.1 ha with rfl | ha
    · exact hg
    · exact Nat.le_trans (List.rel_of_pairwise_cons ih ha) hg

theorem params_le (h : Layered results mo f fs xs below) :
    ∀ g ∈ f :: fs, g.height + g.params.length ≤ mo := by
  induction h with
  | function => simp
  | inner _ _ _ hp _ ih => exact List.forall_mem_cons.2 ⟨hp, ih⟩

theorem outermost (h : Layered results mo f fs xs below) : ∃ inner u,
    f :: fs = inner ++ [⟨.function, [], results, 0, u⟩] ∧ ∀ g ∈ inner, g.kind ≠ .function := by
  induction h with
  | @function u => exact ⟨[], u, rfl, by simp⟩
  | @inner f _ _ _ _ _ _ hk _ _ _ ih =>
    obtain ⟨inner, u, he, hi⟩ := ih
    exact ⟨f :: inner, u, by rw [he]; rfl, List.forall_mem_cons.2 ⟨hk, hi⟩⟩

theorem function_iff (h : Layered results mo f fs xs below) : f.kind = .function ↔ fs = [] := by
  cases h with
  | function => simp
  | inner _ hk => simp [hk]

theorem unknown_unreachable (h : Layered results mo f fs xs below) {g : Frame}
    {inner outer : List Frame} {p : Nat} (hg : f :: fs = inner ++ g :: outer) (hp : g.height ≤ p)
    (hi : ∀ a ∈ inner, p < a.height) (hu : (xs ++ below).reverse[p]? = some unknown) :
    g.unreachable = true := by
  induction h generalizing inner with
  | @function u xs hx =>
    cases inner with
    | nil =>
      cases hg
      rw [List.append_nil] at hu
      exact hx (List.mem_reverse.1 (List.mem_of_getElem? hu))
    | cons => simp at hg
  | @inner f' g' fs xs ys below hs hk hh hpar hx ih =>
    rw [List.reverse_append] at hu
    cases inner with
    | nil =>
      cases hg
      rw [hh] at hp
      rw [List.getElem?_append_right (by rwa [List.length_reverse])] at hu
      exact hx (List.mem_reverse.1 (List.mem_of_getElem? hu))
    | cons a inner =>
      rw [List.cons_append, List.cons.injEq] at hg
      obtain ⟨rfl, hg⟩ := hg
      obtain ⟨ha, hi⟩ := List.forall_mem_cons.1 hi
      rw [hh] at ha
      rw [List.getElem?_append_left (by rwa [List.length_reverse])] at hu
      exact ih hg hi hu

end Layered

/-- The stack `⟨xs ++ below, f :: fs, mo, mf⟩` is in layers and within the limits. -/
structure Opened (results : List ValueType) (mo mf : Nat) (f : Frame) (fs : List Frame)
    (xs below : List Operand) : Prop where
  layered : Layered results mo f fs xs below
  size_le : (xs ++ below).length ≤ mo
  depth_lt : fs.length < mf

/-- A stack that a checker leaves: closed, or in layers and within the limits. -/
inductive Kept (results : List ValueType) (mo mf : Nat) : Stack → Prop where
  | closed : Kept results mo mf ⟨[], [], mo, mf⟩
  | opened {f : Frame} {fs : List Frame} {xs below : List Operand} :
      Opened results mo mf f fs xs below → Kept results mo mf ⟨xs ++ below, f :: fs, mo, mf⟩

theorem Kept.sound {results : List ValueType} {config : Config} {s : Stack}
    (h : Kept results config.maxOperands config.maxFrames s) : Sound results config s := by
  cases h with
  | closed =>
    exact ⟨Nat.zero_le _, Nat.zero_le _, Nat.le_refl _, .nil, by simp, .inl ⟨rfl, rfl⟩, by simp⟩
  | @opened f fs xs below h =>
    obtain ⟨h, hn, hd⟩ := h
    refine ⟨hn, hd, ?_, h.heights, h.params_le, .inr h.outermost, ?_⟩
    · simp only [floor, size, h.height, List.length_append]
      omega
    · intro inner g outer p hg hp hi hu
      exact h.unknown_unreachable hg hp hi hu

end Stack

/-! ## Rules -/

def Keeps (results : List ValueType) (mo mf : Nat) (x : Check Unit) (s : Stack) : Prop :=
  Post x s (fun _ => Kept results mo mf) (fun _ => Kept results mo mf)

section Rules
variable {results : List ValueType} {c : Context} {mo mf : Nat} {f g : Frame} {fs : List Frame}
  {xs ys below : List Operand}

theorem Stack.Layered.unreachable_of_selects (h : Layered results mo f fs xs below)
    (hs : Selects f.unreachable xs .unknown) : f.unreachable = true := by
  cases hs with
  | unknown hu hl =>
    rcases hl with hl | hl
    · exact hl
    · obtain ⟨x, xs, rfl⟩ := List.exists_cons_of_length_pos (Nat.lt_of_lt_of_le Nat.zero_lt_two hl)
      refine h.unknowns ?_
      rw [hu x (by simp)]
      exact List.mem_cons_self

namespace Stack.Opened

theorem drop (h : Opened results mo mf f fs xs below) (k : Nat) :
    Opened results mo mf f fs (xs.drop k) below := by
  obtain ⟨hl, hn, hd⟩ := h
  refine ⟨hl.drop k, ?_, hd⟩
  rw [List.length_append] at hn ⊢
  rw [List.length_drop]
  omega

theorem push (h : Opened results mo mf f fs xs below) (ts : List ValueType)
    (hn : ¬mo < (xs ++ below).length + ts.length) :
    Opened results mo mf f fs (ts.reverse.map .known ++ xs) below := by
  refine ⟨h.layered.push _, ?_, h.depth_lt⟩
  simp only [List.length_append, List.length_map, List.length_reverse] at *
  omega

theorem below_le (h : Opened results mo mf f fs xs below) : below.length ≤ mo := by
  have := h.size_le
  rw [List.length_append] at this
  omega

theorem jump (h : Opened results mo mf f fs xs below) :
    Opened results mo mf { f with unreachable := true } fs [] below :=
  ⟨h.layered.jump, h.below_le, h.depth_lt⟩

theorem outer (h : Opened results mo mf f (g :: fs) xs below) :
    ∃ ys below', below = ys ++ below' ∧ Opened results mo mf g fs ys below' := by
  obtain ⟨hl, hn, hd⟩ := h
  have hb : below.length ≤ mo := by
    rw [List.length_append] at hn
    omega
  cases hl with
  | inner hs => exact ⟨_, _, rfl, hs, hb, Nat.lt_of_succ_lt hd⟩

theorem keeps_apply (h : Opened results mo mf f fs xs below) {ps rs : List ValueType}
    {d : String} :
    Keeps results mo mf (popAll ps d >>= fun _ => pushAll rs)
      ⟨xs ++ below, f :: fs, mo, mf⟩ := by
  rw [Keeps, WasmCheck.post_apply h.layered.height]
  split
  · split
    · exact .opened (h.drop _)
    · next hmo => exact .opened ((h.drop _).push _ hmo)
  · exact .opened h

theorem keeps_jump (h : Opened results mo mf f fs xs below) {ts : List ValueType} {d : String} :
    Keeps results mo mf (popAll ts d >>= fun _ => markUnreachable)
      ⟨xs ++ below, f :: fs, mo, mf⟩ := by
  rw [Keeps, WasmCheck.post_jump h.layered.height]
  split
  · exact .opened h.jump
  · exact .opened h

theorem keeps_brTable (h : Opened results mo mf f fs xs below) (ls : List UInt32) (l : UInt32) :
    Keeps results mo mf (Op.checkBrTable ls l) ⟨xs ++ below, f :: fs, mo, mf⟩ := by
  have hf := h.layered.height
  simp only [Keeps, Op.checkBrTable, post_bind, post_pop hf, post_labelTypes]
  split
  · have hdrop : Kept results mo mf ⟨xs.drop 1 ++ below, f :: fs, mo, mf⟩ := .opened (h.drop 1)
    split
    · refine post_checkLabels hf (fun _ => ?_) (fun _ _ _ => hdrop)
      rw [post_peekAll hf]
      split
      · rw [post_markUnreachable hf]
        exact .opened h.jump
      · exact hdrop
    · exact hdrop
  · exact .opened h

/-- What a selection leaves is open only if it has met an open operand, or none at all. -/
theorem keeps_select (h : Opened results mo mf f fs xs below) :
    Keeps results mo mf Op.checkSelect ⟨xs ++ below, f :: fs, mo, mf⟩ := by
  have hpop := h.drop 1
  have hrest := hpop.drop 2
  refine post_checkSelect h.layered.height (fun _ o ho hmo => ?_) (fun _ _ _ _ => .opened hrest)
    (fun _ _ k _ => .opened (h.drop k))
  refine .opened ⟨hrest.layered.exchange fun hx => ?_, ?_, h.depth_lt⟩
  · rcases List.mem_cons.1 hx with rfl | hx
    · exact hpop.layered.unreachable_of_selects ho
    · exact hrest.layered.unknowns hx
  · rw [List.cons_append, List.length_cons]
    omega

theorem keeps_op (h : Opened results mo mf f fs xs below) (o : Op) :
    Keeps results mo mf (o.check c) ⟨xs ++ below, f :: fs, mo, mf⟩ := by
  have hf := h.layered.height
  have hsame : Kept results mo mf ⟨xs ++ below, f :: fs, mo, mf⟩ := .opened h
  cases o with
  | unreachable =>
    rw [Keeps, Op.check, post_markUnreachable hf]
    exact .opened h.jump
  | nop => exact hsame
  | br l =>
    rw [Keeps, Op.check, Op.checkBr, post_bind, post_labelTypes]
    split
    · exact h.keeps_jump
    · exact hsame
  | brIf l =>
    rw [Keeps, Op.check, Op.checkBrIf, post_bind, post_pop hf]
    split
    · rw [post_bind, post_labelTypes]
      split
      · exact (h.drop 1).keeps_apply
      · exact .opened (h.drop 1)
    · exact hsame
  | brTable ls l => exact h.keeps_brTable ls l
  | return_ => exact h.keeps_jump
  | drop =>
    rw [Keeps, Op.check, post_bind, post_popAny hf]
    split
    · exact hsame
    · exact .opened (h.drop 1)
  | select => exact h.keeps_select
  | refIsNull =>
    rw [Keeps, Op.check, post_bind, post_popReference hf]
    split
    · rw [Stack.push, post_pushOperand]
      split
      · exact .opened (h.drop 1)
      · next hmo => exact .opened ((h.drop 1).push [.i32] hmo)
    · exact hsame
  | fixed o =>
    rw [Keeps, Op.check, FixedOp.check, post_bind, post_ofExcept]
    exact ⟨fun t _ => h.keeps_apply, fun _ _ => hsame⟩

theorem keeps_enter (h : Opened results mo mf f fs xs below) {kind : FrameKind}
    (hk : kind ≠ .function) {t : FuncType} :
    Keeps results mo mf (Instr.enter kind t) ⟨xs ++ below, f :: fs, mo, mf⟩ := by
  rw [Keeps, WasmCheck.post_enter h.layered.height]
  split
  · have hdrop := h.drop t.params.length
    split
    · exact .opened hdrop
    · next hmf =>
      split
      · exact .opened hdrop
      · next hmo =>
        refine .opened ⟨.inner hdrop.layered hk rfl (Nat.le_of_not_lt hmo) (by simp), ?_, ?_⟩
        · simp only [List.length_append, List.length_map, List.length_reverse] at *
          omega
        · exact Nat.lt_of_not_le hmf
  · exact .opened h

theorem keeps_leave (h : Opened results mo mf f (g :: fs) xs below) {d : String} :
    Keeps results mo mf (Instr.leave d) ⟨xs ++ below, f :: g :: fs, mo, mf⟩ := by
  rw [Keeps, WasmCheck.post_leave h.layered.height]
  split
  · obtain ⟨ys, below, rfl, ho⟩ := h.outer
    split
    · exact .opened ho
    · next hmo =>
      rw [← List.append_assoc]
      exact .opened (ho.push _ hmo)
  · exact .opened h

/-- The second branch starts with the parameters of the first, and there was room for them. -/
theorem second (h : Opened results mo mf f (g :: fs) xs below) :
    Opened results mo mf ⟨.else_, f.params, f.results, below.length, false⟩ (g :: fs)
      (f.params.reverse.map .known) below := by
  have hpar := h.layered.params_le f List.mem_cons_self
  rw [h.layered.height] at hpar
  obtain ⟨ys, below, rfl, ho⟩ := h.outer
  refine ⟨.inner ho.layered (by simp) rfl hpar (by simp), ?_, h.depth_lt⟩
  simp only [List.length_append, List.length_map, List.length_reverse] at *
  omega

/-- The second branch takes the place of the first. No limit is in its way, as it asks for no more
room than the first one did. -/
theorem post_switch (h : Opened results mo mf f (g :: fs) xs below) {Q : Unit → Stack → Prop}
    {E : Error → Stack → Prop} :
    Post Instr.switch ⟨xs ++ below, f :: g :: fs, mo, mf⟩ Q E ↔
      if closes f xs then Q () ⟨f.params.reverse.map .known ++ below,
        ⟨.else_, f.params, f.results, below.length, false⟩ :: g :: fs, mo, mf⟩
      else E (.typeMismatch "if true branch" (f.results.map (·.name)) (xs.reverse.map (·.name)))
        ⟨xs ++ below, f :: g :: fs, mo, mf⟩ := by
  have hpar := h.layered.params_le f List.mem_cons_self
  rw [h.layered.height] at hpar
  rw [WasmCheck.post_switch h.layered.height, if_neg (Nat.not_le.2 h.depth_lt),
    if_neg (Nat.not_lt.2 hpar)]

theorem keeps_end (h : Opened results mo mf f fs xs below) :
    Keeps results mo mf Instr.checkEnd ⟨xs ++ below, f :: fs, mo, mf⟩ := by
  rw [Keeps, post_checkEnd]
  cases fs with
  | nil =>
    rw [h.layered.function_iff.2 rfl]
    simp only
    rw [post_closeFrame h.layered.height]
    split
    · obtain ⟨hl, -, -⟩ := h
      cases hl
      exact .closed
    · exact .opened h
  | cons g fs =>
    cases hk : f.kind with
    | function => cases h.layered.function_iff.1 hk
    | if_ =>
      simp only [post_bind, h.post_switch]
      split
      · exact h.second.keeps_leave
      · exact .opened h
    | _ => exact h.keeps_leave

theorem keeps_else (h : Opened results mo mf f fs xs below) :
    Keeps results mo mf Instr.checkElse ⟨xs ++ below, f :: fs, mo, mf⟩ := by
  rw [Keeps, post_checkElse]
  split
  · next hk =>
    cases fs with
    | nil => exact absurd (h.layered.function_iff.2 rfl) (by simp [hk])
    | cons g fs =>
      rw [h.post_switch]
      split
      · exact .opened h.second
      · exact .opened h
  · exact .opened h

theorem keeps_rule (h : Opened results mo mf f fs xs below) (i : Instr) :
    Keeps results mo mf (i.rule c) ⟨xs ++ below, f :: fs, mo, mf⟩ := by
  have hsame : Kept results mo mf ⟨xs ++ below, f :: fs, mo, mf⟩ := .opened h
  cases i with
  | block t =>
    rw [Keeps, Instr.rule, post_bind, post_ofExcept]
    exact ⟨fun ft _ => h.keeps_enter (by simp), fun _ _ => hsame⟩
  | loop t =>
    rw [Keeps, Instr.rule, post_bind, post_ofExcept]
    exact ⟨fun ft _ => h.keeps_enter (by simp), fun _ _ => hsame⟩
  | if_ t =>
    rw [Keeps, Instr.rule, post_bind, post_ofExcept]
    refine ⟨fun ft _ => ?_, fun _ _ => hsame⟩
    rw [post_bind, post_pop h.layered.height]
    split
    · exact (h.drop 1).keeps_enter (by simp)
    · exact hsame
  | else_ => exact h.keeps_else
  | end_ => exact h.keeps_end
  | op o => exact h.keeps_op o

end Stack.Opened

theorem Stack.Kept.keeps_check {s : Stack} (h : Kept results mo mf s) (i : Instr) :
    Keeps results mo mf (i.check c) s := by
  cases h with
  | closed => exact post_check_nil.2 .closed
  | opened h => exact WasmCheck.post_check.2 (h.keeps_rule i)

end Rules

/-! ## Runs -/

theorem Instr.callback_not_mem (i : Instr) : i.callback ∉ ["OnFunction", "EndFunctionBody"] := by
  cases i with
  | op o =>
    cases o with
    | fixed o =>
      cases o with
      | table o => cases o <;> simp [callback, Op.callback, FixedOp.callback, TableOp.callback]
      | numeric o =>
        simp only [callback, Op.callback, FixedOp.callback]
        cases o.class_ <;> decide
      | _ => simp [callback, Op.callback, FixedOp.callback]
    | _ => simp [callback, Op.callback]
  | _ => simp [callback]

theorem Instr.callback_ne_onFunction (i : Instr) : i.callback ≠ "OnFunction" :=
  fun h => i.callback_not_mem (h ▸ .head _)

theorem Instr.callback_ne_endFunctionBody (i : Instr) : i.callback ≠ "EndFunctionBody" :=
  fun h => i.callback_not_mem (h ▸ .tail _ (.head _))

theorem Stack.Kept.depth_eq_one_iff {results : List ValueType} {mo mf : Nat} {s : Stack}
    (h : Kept results mo mf s) :
    s.depth = 1 ↔ ∃ f, s.frames.head? = some f ∧ f.kind = .function := by
  cases h with
  | closed => simp [depth]
  | opened h => simp [depth, h.layered.function_iff]

namespace BodyChecker

/-- Feeds instructions to a checker, and goes on after those that fail. -/
def feed (k : BodyChecker) (is : List Instr) : BodyChecker :=
  is.foldl (fun k i => (k.check i).2) k

theorem kept_check {k : BodyChecker} {results : List ValueType} {mo mf : Nat}
    (h : Kept results mo mf k.stack) (i : Instr) : Kept results mo mf (k.check i).2.stack := by
  have hi := h.keeps_check (c := k.context) i
  rcases hr : run (i.check k.context) k.stack with ⟨_ | _, s⟩
  · have := hi.of_error hr
    simpa only [check, hr] using this
  · have := hi.of_ok hr
    simpa only [check, hr] using this

theorem kept_feed {k : BodyChecker} {results : List ValueType} {mo mf : Nat} (is : List Instr)
    (h : Kept results mo mf k.stack) : Kept results mo mf (k.feed is).stack := by
  induction is generalizing k with
  | nil => exact h
  | cons i is ih => exact ih (kept_check h i)

theorem kept_of_start {m : Module} {t : FuncType} {groups : List LocalGroup} {config : Config}
    {k : BodyChecker} (h : start m t groups config = .ok k) :
    Kept t.results config.maxOperands config.maxFrames k.stack := by
  obtain ⟨-, hd, rfl⟩ := start_eq_ok_iff.1 h
  show Kept t.results config.maxOperands config.maxFrames ⟨[] ++ [], _ :: [], _, _⟩
  exact .opened ⟨.function (by simp), Nat.zero_le _, hd⟩

/-- After any instructions, failures included, the stacks are in order: the operands of the
innermost frame can be counted, and the end of a body is told from other ends. -/
theorem sound_feed (m : Module) (t : FuncType) (groups : List LocalGroup) (config : Config)
    (k : BodyChecker) (h : start m t groups config = .ok k) (is : List Instr) :
    (k.feed is).stack.Sound t.results config ∧
      (k.feed is).stack.floor + (k.feed is).stack.available = (k.feed is).stack.size ∧
      (∀ f ∈ (k.feed is).stack.frames, f.height ≤ (k.feed is).stack.size) ∧
      ∀ i, (k.feed is).callback i = "EndFunctionBody" ↔
        i = .end_ ∧ ∃ f, (k.feed is).stack.frames.head? = some f ∧ f.kind = .function := by
  have hkept := kept_feed is (kept_of_start h)
  have hs := hkept.sound
  refine ⟨hs, Nat.add_sub_cancel' hs.floor_le, fun f hf => ?_, fun i => ?_⟩
  · exact Nat.le_trans (height_le_floor hs.heights hf) hs.floor_le
  · rw [← hkept.depth_eq_one_iff, callback]
    split
    · next hi => exact iff_of_true rfl hi
    · next hi => exact iff_of_false i.callback_ne_endFunctionBody hi

/-- The second constant, the first selection and the drop fail; a block stays open in dead code. -/
theorem sound_feed_failures :
    ((initial .empty ⟨[], [.i32]⟩ [] { maxOperands := 1, maxFrames := 2 }).feed
      [.op (.fixed (.i32Const 0)), .op (.fixed (.i32Const 1)), .op .select, .op .unreachable,
        .op .select, .block (.result .i64), .op .drop]).stack.Sound [.i32]
      { maxOperands := 1, maxFrames := 2 } :=
  (sound_feed .empty ⟨[], [.i32]⟩ [] { maxOperands := 1, maxFrames := 2 } (initial ..) rfl _).1

end BodyChecker

end WasmCheck
