import WasmCheck.Proofs.Body.Invariant

/-!
# The branches

A jump, a return, a jump table and a conditional jump are four instructions, but what they ask of
the operands is the same: that the label is there and that the operands at hand are fit for it. A
return is a jump to the outermost frame. A jump table takes an index and may then jump to any of its
labels. A conditional jump takes a condition and may then jump; if it does not, the operands stay as
they are, but for those that unreachable code has supplied.
-/

namespace WasmCheck

open Operand (known unknown)
open Stack Attempt

namespace Stack

def arity? (fs : List Frame) (l : UInt32) : Option Nat :=
  fs[l.toNat]?.map fun g => g.labelTypes.length

/-- The label is there, and the operands `xs` are fit for it. -/
def Jumps (f : Frame) (fs : List Frame) (xs : List Operand) (l : UInt32) : Prop :=
  ∃ g, (f :: fs)[l.toNat]? = some g ∧ fits f.unreachable xs g.labelTypes.reverse = true

/-- An index lies on top, and the operands under it are fit for each label. -/
def JumpsTable (f : Frame) (fs : List Frame) (xs : List Operand) (ls : List UInt32) (d : UInt32) :
    Prop :=
  fits f.unreachable xs [.i32] = true ∧ Jumps f fs (xs.drop 1) d ∧
    ∀ l ∈ ls, Jumps f fs (xs.drop 1) l ∧ arity? (f :: fs) l = arity? (f :: fs) d

variable {f g : Frame} {fs : List Frame} {xs below : List Operand} {mo mf : Nat} {l : UInt32}

theorem jumps_iff (hg : (f :: fs)[l.toNat]? = some g) :
    Jumps f fs xs l ↔ fits f.unreachable xs g.labelTypes.reverse = true := by
  simp [Jumps, hg]

theorem not_jumps (hg : (f :: fs)[l.toNat]? = none) : ¬Jumps f fs xs l := by
  simp [Jumps, hg]

theorem labelOk_iff {n : Nat} :
    LabelOk f fs xs n l ↔ Jumps f fs xs l ∧ arity? (f :: fs) l = some n := by
  cases hg : (f :: fs)[l.toNat]? with
  | none => simp [LabelOk, Jumps, hg]
  | some g => simp [LabelOk, Jumps, arity?, hg, and_comm]

/-! ## What is asked of the operands -/

theorem post_carry (h : f.height = below.length) {ts : List ValueType} {d : String} :
    Post (popAll ts d >>= fun _ => markUnreachable) ⟨xs ++ below, f :: fs, mo, mf⟩
      (fun _ s => fits f.unreachable xs ts.reverse = true ∧
        s = ⟨below, { f with unreachable := true } :: fs, mo, mf⟩)
      (fun _ s => ¬fits f.unreachable xs ts.reverse = true ∧
        s = ⟨xs ++ below, f :: fs, mo, mf⟩) := by
  rw [WasmCheck.post_jump h]
  split
  · next hfit => exact ⟨hfit, rfl⟩
  · next hfit => exact ⟨hfit, rfl⟩

theorem post_br (h : f.height = below.length) :
    Post (Op.checkBr l) ⟨xs ++ below, f :: fs, mo, mf⟩
      (fun _ s => Jumps f fs xs l ∧ s = ⟨below, { f with unreachable := true } :: fs, mo, mf⟩)
      (fun _ s => ¬Jumps f fs xs l ∧ s = ⟨xs ++ below, f :: fs, mo, mf⟩) := by
  rw [Op.checkBr, post_bind, post_labelTypes]
  split
  · next g hg =>
    rw [jumps_iff hg]
    exact post_carry h
  · next hg => exact ⟨not_jumps hg, rfl⟩

theorem post_brTable (h : f.height = below.length) {ls : List UInt32} {d : UInt32} :
    Post (Op.checkBrTable ls d) ⟨xs ++ below, f :: fs, mo, mf⟩
      (fun _ s => JumpsTable f fs xs ls d ∧
        s = ⟨below, { f with unreachable := true } :: fs, mo, mf⟩)
      (fun _ s => ¬JumpsTable f fs xs ls d ∧
        s = ⟨(if fits f.unreachable xs [.i32] then xs.drop 1 else xs) ++ below,
          f :: fs, mo, mf⟩) := by
  rw [Op.checkBrTable, post_bind, post_pop h]
  split
  · next hi =>
    rw [post_bind, post_labelTypes]
    split
    · next g hg =>
      have hd : arity? (f :: fs) d = some g.labelTypes.length := by rw [arity?, hg]; rfl
      rw [post_bind]
      refine post_checkLabels h (fun hls => ?_) fun hno e _ => ⟨fun hj => ?_, rfl⟩
      · rw [post_bind, post_peekAll h]
        split
        · next hfit =>
          refine (post_markUnreachable h).2 ⟨⟨hi, (jumps_iff hg).2 hfit, fun l hl => ?_⟩, rfl⟩
          rw [hd]
          exact labelOk_iff.1 (hls l hl)
        · next hfit => exact ⟨fun hj => hfit ((jumps_iff hg).1 hj.2.1), rfl⟩
      · obtain ⟨l, hl, hno⟩ := hno
        have := hj.2.2 l hl
        rw [hd] at this
        exact hno (labelOk_iff.2 this)
    · next hg => exact ⟨fun hj => not_jumps hg hj.2.1, rfl⟩
  · next hi => exact ⟨fun hj => hi hj.1, rfl⟩

/-- A conditional jump may have to supply what it hands on, and there has to be room for it. -/
theorem post_brIf (h : f.height = below.length) :
    Post (Op.checkBrIf l) ⟨xs ++ below, f :: fs, mo, mf⟩
      (fun _ s => fits f.unreachable xs [.i32] = true ∧ ∃ g, (f :: fs)[l.toNat]? = some g ∧
        fits f.unreachable (xs.drop 1) g.labelTypes.reverse = true ∧
        s = ⟨(g.labelTypes.reverse.map known ++ (xs.drop 1).drop g.labelTypes.length) ++ below,
          f :: fs, mo, mf⟩)
      (fun e _ => ¬(fits f.unreachable xs [.i32] = true ∧ Jumps f fs (xs.drop 1) l) ∨
        e.category = .capacity ∧ fits f.unreachable xs [.i32] = true ∧ ∃ g : Frame,
          fits f.unreachable (xs.drop 1) g.labelTypes.reverse = true ∧
          mo < ((xs.drop 1).drop g.labelTypes.length ++ below).length + g.labelTypes.length) := by
  rw [Op.checkBrIf, post_bind, post_pop h]
  split
  · next hi =>
    rw [post_bind, post_labelTypes]
    split
    · next g hg =>
      rw [post_apply h]
      split
      · next hfit =>
        split
        · next hm => exact .inr ⟨rfl, hi, g, hfit, hm⟩
        · exact ⟨hi, g, hg, hfit, rfl⟩
      · next hfit => exact .inl fun hj => hfit ((jumps_iff hg).1 hj.2)
    · next hg => exact .inl fun hj => not_jumps hg hj.2
  · next hi => exact .inl fun hj => hi hj.1

theorem eq_append_of_fits {os : List Operand} {ts : List ValueType} (hu : unknown ∉ os)
    (h : fits false os ts = true) : os = ts.map known ++ os.drop ts.length := by
  induction ts generalizing os with
  | nil => rfl
  | cons t ts ih =>
    cases os with
    | nil => cases h
    | cons o os =>
      rw [fits, Bool.and_eq_true] at h
      cases o with
      | unknown => exact absurd List.mem_cons_self hu
      | known s =>
        rw [Operand.known_fits.1 h.1]
        exact congrArg _ (ih (fun hm => hu (List.mem_cons_of_mem _ hm)) h.2)

end Stack

namespace BodyChecker

/-- The instruction is accepted exactly if `A` holds. The stack is `s` if it is, and `t` if not. -/
structure Ends (k : BodyChecker) (i : Instr) (A : Prop) (s t : Stack) : Prop where
  ok : (k.check i).1 = .ok () ↔ A
  of_ok : A → (k.check i).2 = { k with stack := s }
  of_not : ¬A → (k.check i).2 = { k with stack := t }

theorem Ends.of_post {k : BodyChecker} {i : Instr} {A : Prop} {s t : Stack}
    (h : Post (i.check k.context) k.stack (fun _ s' => A ∧ s' = s) (fun _ s' => ¬A ∧ s' = t)) :
    k.Ends i A s t := by
  rcases hr : run (i.check k.context) k.stack with ⟨_ | _, s'⟩
  · obtain ⟨hA, rfl⟩ := h.of_error hr
    refine ⟨?_, ?_, ?_⟩ <;> simp [check, hr, hA]
  · obtain ⟨hA, rfl⟩ := h.of_ok hr
    refine ⟨?_, ?_, ?_⟩ <;> simp [check, hr, hA]

/-- What is accepted under the same condition, and leaves the same stacks, is not told apart. -/
theorem Ends.congr {k : BodyChecker} {i j : Instr} {A B : Prop} {s t : Stack}
    (hi : k.Ends i A s t) (hj : k.Ends j B s t) (h : A ↔ B) :
    ((k.check i).1 = .ok () ↔ (k.check j).1 = .ok ()) ∧ (k.check i).2 = (k.check j).2 := by
  refine ⟨hi.ok.trans (h.trans hj.ok.symm), ?_⟩
  by_cases hA : A
  · rw [hi.of_ok hA, hj.of_ok (h.1 hA)]
  · rw [hi.of_not hA, hj.of_not (mt h.2 hA)]

/-- An `i32` can be popped, and `k'` is the checker afterwards. -/
structure Pops (k k' : BodyChecker) : Prop where
  context : k'.context = k.context
  run (desc : String) : ∃ o, run (pop .i32 desc) k.stack = (.ok o, k'.stack)

section Framed
variable {f : Frame} {fs : List Frame} {xs below : List Operand} {mo mf : Nat} {c : Context}
  {l d : UInt32} {ls : List UInt32} {k' : BodyChecker}

theorem pops_iff (h : f.height = below.length) :
    Pops ⟨c, ⟨xs ++ below, f :: fs, mo, mf⟩⟩ k' ↔
      fits f.unreachable xs [.i32] = true ∧ k' = ⟨c, ⟨xs.drop 1 ++ below, f :: fs, mo, mf⟩⟩ := by
  have hpop (desc : String) : Post (pop .i32 desc) ⟨xs ++ below, f :: fs, mo, mf⟩
      (fun _ s => fits f.unreachable xs [.i32] = true ∧ s = ⟨xs.drop 1 ++ below, f :: fs, mo, mf⟩)
      (fun _ _ => fits f.unreachable xs [.i32] = false) := by
    rw [post_pop h]
    split
    · next hi => exact ⟨hi, rfl⟩
    · next hi => exact Bool.eq_false_iff.2 hi
  constructor
  · rintro ⟨hc, hr⟩
    obtain ⟨o, hr⟩ := hr ""
    obtain ⟨hi, hs⟩ := (hpop "").of_ok hr
    obtain ⟨c', s'⟩ := k'
    cases hc
    cases hs
    exact ⟨hi, rfl⟩
  · rintro ⟨hi, rfl⟩
    refine ⟨rfl, fun desc => ?_⟩
    rcases hr : Attempt.run (pop .i32 desc) ⟨xs ++ below, f :: fs, mo, mf⟩ with ⟨_ | o, s⟩
    · rw [(hpop desc).of_error hr] at hi
      cases hi
    · obtain ⟨-, rfl⟩ := (hpop desc).of_ok hr
      exact ⟨o, rfl⟩

theorem ends_br (h : f.height = below.length) :
    Ends ⟨c, ⟨xs ++ below, f :: fs, mo, mf⟩⟩ (.op (.br l)) (Jumps f fs xs l)
      ⟨below, { f with unreachable := true } :: fs, mo, mf⟩ ⟨xs ++ below, f :: fs, mo, mf⟩ :=
  .of_post (WasmCheck.post_check.2 (Stack.post_br h))

theorem ends_return (h : f.height = below.length) :
    Ends ⟨c, ⟨xs ++ below, f :: fs, mo, mf⟩⟩ (.op .return_)
      (fits f.unreachable xs c.results.reverse = true)
      ⟨below, { f with unreachable := true } :: fs, mo, mf⟩ ⟨xs ++ below, f :: fs, mo, mf⟩ :=
  .of_post (WasmCheck.post_check.2 (Stack.post_carry h))

theorem ends_brTable (h : f.height = below.length) :
    Ends ⟨c, ⟨xs ++ below, f :: fs, mo, mf⟩⟩ (.op (.brTable ls d)) (JumpsTable f fs xs ls d)
      ⟨below, { f with unreachable := true } :: fs, mo, mf⟩
      ⟨(if fits f.unreachable xs [.i32] then xs.drop 1 else xs) ++ below, f :: fs, mo, mf⟩ :=
  .of_post (WasmCheck.post_check.2 (Stack.post_brTable h))

end Framed

structure BranchesAgree (k : BodyChecker) : Prop where
  /-- A return is a jump out of all frames. -/
  return_ (l : UInt32) : l.toNat + 1 = k.stack.depth →
    ((k.check (.op .return_)).1 = .ok () ↔ (k.check (.op (.br l))).1 = .ok ()) ∧
      (k.check (.op .return_)).2 = (k.check (.op (.br l))).2
  /-- A jump table pops an index, and then each of its labels could be jumped to. -/
  brTable (ls : List UInt32) (d : UInt32) : (k.check (.op (.brTable ls d))).1 = .ok () ↔
    ∃ k', k.Pops k' ∧ (k'.check (.op (.br d))).1 = .ok () ∧ ∀ l ∈ ls,
      (k'.check (.op (.br l))).1 = .ok () ∧ arity? k'.stack.frames l = arity? k'.stack.frames d
  brTable_state (ls : List UInt32) (d : UInt32) (k' : BodyChecker) : k.Pops k' →
    (k.check (.op (.brTable ls d))).1 = .ok () →
    (k.check (.op (.brTable ls d))).2 = (k'.check (.op (.br d))).2
  /-- It does not matter in which order, or how often, a jump table lists its labels. -/
  brTable_congr (ls ls' : List UInt32) (d : UInt32) : (∀ l, l ∈ ls ↔ l ∈ ls') →
    ((k.check (.op (.brTable ls d))).1 = .ok () ↔ (k.check (.op (.brTable ls' d))).1 = .ok ()) ∧
      (k.check (.op (.brTable ls d))).2 = (k.check (.op (.brTable ls' d))).2
  /-- A conditional jump pops a condition, and then the label could be jumped to. -/
  brIf (l : UInt32) : (k.check (.op (.brIf l))).1 = .ok () →
    ∃ k', k.Pops k' ∧ (k'.check (.op (.br l))).1 = .ok ()
  /-- If so, only missing room for operands that unreachable code supplies can stop it. -/
  brIf_of (l : UInt32) (k' : BodyChecker) : k.Pops k' → (k'.check (.op (.br l))).1 = .ok () →
    (k.check (.op (.brIf l))).1 = .ok () ∨ k.stack.unreachable = true ∧
      ∃ e, (k.check (.op (.brIf l))).1 = .error e ∧ e.category = .capacity
  brIf_reachable (l : UInt32) (k' : BodyChecker) : k.stack.unreachable = false → k.Pops k' →
    (k.check (.op (.brIf l))).1 = .ok () → (k.check (.op (.brIf l))).2 = k'
  brIf_unreachable (l : UInt32) : k.stack.unreachable = true →
    (k.check (.op (.brIf l))).1 = .ok () → ∃ g rest, k.stack.frames[l.toNat]? = some g ∧
      (k.check (.op (.brIf l))).2.stack.operands = g.labelTypes.reverse.map known ++ rest

section Branches
variable {f : Frame} {fs : List Frame} {xs below : List Operand} {mo mf : Nat} {c : Context}

/-- The outermost frame is that of the function, and a jump to it carries the results. -/
theorem return_iff (h : Opened c.results mo mf f fs xs below) {l : UInt32}
    (hl : l.toNat = fs.length) :
    fits f.unreachable xs c.results.reverse = true ↔ Jumps f fs xs l := by
  obtain ⟨inner, u, hfs, -⟩ := h.layered.outermost
  have hin : l.toNat = inner.length := by
    have := congrArg List.length hfs
    simp only [List.length_cons, List.length_append, List.length_nil] at this
    omega
  have hg : (f :: fs)[l.toNat]? = some ⟨.function, [], c.results, 0, u⟩ := by
    rw [hfs, hin, List.getElem?_concat_length]
  rw [jumps_iff hg]
  rfl

/-- In reachable code a conditional jump has room for what it hands on, as it has just taken it. -/
theorem room_of_reachable (h : Opened c.results mo mf f fs xs below)
    (hu : f.unreachable = false) {ts : List ValueType} (hf : fits f.unreachable xs ts = true) :
    xs = ts.map known ++ xs.drop ts.length ∧
      (xs.drop ts.length ++ below).length + ts.length ≤ mo := by
  have hx : unknown ∉ xs := fun hm => by
    have := h.layered.unknowns hm
    rw [hu] at this
    cases this
  rw [hu] at hf
  have heq := eq_append_of_fits hx hf
  refine ⟨heq, ?_⟩
  have hn := h.size_le
  rw [heq] at hn
  simp only [List.length_append, List.length_map] at hn ⊢
  omega

theorem check_brIf (h : Opened c.results mo mf f fs xs below) (l : UInt32) :
    Post ((Instr.op (.brIf l)).check c) ⟨xs ++ below, f :: fs, mo, mf⟩
      (fun _ s => fits f.unreachable xs [.i32] = true ∧ Jumps f fs (xs.drop 1) l ∧
        (f.unreachable = false → s = ⟨xs.drop 1 ++ below, f :: fs, mo, mf⟩) ∧
        ∃ g rest, (f :: fs)[l.toNat]? = some g ∧
          s.operands = g.labelTypes.reverse.map known ++ rest)
      (fun e _ => fits f.unreachable xs [.i32] = true → Jumps f fs (xs.drop 1) l →
        f.unreachable = true ∧ e.category = .capacity) := by
  refine post_check.2 ((post_brIf h.layered.height).mono ?_ ?_)
  · rintro - s ⟨hi, g, hg, hf, rfl⟩
    refine ⟨hi, ⟨g, hg, hf⟩, fun hu => ?_, g, _, hg, List.append_assoc ..⟩
    have heq := (room_of_reachable (h.drop 1) hu hf).1
    rw [List.length_reverse] at heq
    rw [← heq]
  · rintro e - (hno | ⟨he, hi, g, hf, hm⟩) hi' hj
    · exact absurd ⟨hi', hj⟩ hno
    · refine ⟨Bool.of_not_eq_false fun hu => ?_, he⟩
      have hle := (room_of_reachable (h.drop 1) hu hf).2
      rw [List.length_reverse] at hle
      omega

theorem branchesAgree (h : Opened c.results mo mf f fs xs below) :
    BranchesAgree ⟨c, ⟨xs ++ below, f :: fs, mo, mf⟩⟩ where
  return_ l hl := by
    have hf := h.layered.height
    exact (ends_return hf).congr (ends_br hf) (return_iff h (Nat.succ.inj hl))
  brTable ls d := by
    have hf := h.layered.height
    simp only [(ends_brTable hf).ok, (ends_br hf).ok, pops_iff hf, and_assoc, exists_and_left,
      exists_eq_left, JumpsTable]
  brTable_state ls d k' hp hok := by
    have hf := h.layered.height
    rw [(ends_brTable hf).ok] at hok
    obtain ⟨-, rfl⟩ := (pops_iff hf).1 hp
    rw [(ends_brTable hf).of_ok hok, (ends_br hf).of_ok hok.2.1]
  brTable_congr ls ls' d hls := by
    have hf := h.layered.height
    refine (ends_brTable hf).congr (ends_brTable hf) ?_
    simp only [JumpsTable, hls]
  brIf l hok := by
    have hf := h.layered.height
    obtain ⟨hi, hj, -, -⟩ := (check_brIf h l).of_fst_ok hok
    exact ⟨_, (pops_iff hf).2 ⟨hi, rfl⟩, (ends_br hf).ok.2 hj⟩
  brIf_of l k' hp hj := by
    have hf := h.layered.height
    obtain ⟨hi, rfl⟩ := (pops_iff hf).1 hp
    rw [(ends_br hf).ok] at hj
    rcases hr : (check ⟨c, ⟨xs ++ below, f :: fs, mo, mf⟩⟩ (.op (.brIf l))).1 with e | _
    · obtain ⟨hu, he⟩ := (check_brIf h l).of_fst_error hr hi hj
      exact .inr ⟨hu, e, rfl, he⟩
    · exact .inl rfl
  brIf_reachable l k' hu hp hok := by
    obtain ⟨-, -, hs, -⟩ := (check_brIf h l).of_fst_ok hok
    obtain ⟨-, rfl⟩ := (pops_iff h.layered.height).1 hp
    exact congrArg (BodyChecker.mk c) (hs hu)
  brIf_unreachable l _ hok := by
    obtain ⟨-, -, -, hg⟩ := (check_brIf h l).of_fst_ok hok
    exact hg

end Branches

theorem context_feed (k : BodyChecker) (is : List Instr) : (k.feed is).context = k.context := by
  induction is generalizing k with
  | nil => rfl
  | cons i is ih => exact ih _

/-- After any instructions, failures included, the branches agree as long as the body is open. -/
theorem branchesAgree_feed (m : Module) (t : FuncType) (groups : List LocalGroup)
    (config : Config) (k : BodyChecker) (h : start m t groups config = .ok k) (is : List Instr)
    (hopen : 0 < (k.feed is).stack.depth) : (k.feed is).BranchesAgree := by
  have hc : (k.feed is).context.results = t.results := by
    obtain ⟨-, -, rfl⟩ := start_eq_ok_iff.1 h
    rw [context_feed]
    rfl
  have hkept := kept_feed is (kept_of_start h)
  rw [← hc] at hkept
  generalize k.feed is = k' at hkept hopen ⊢
  obtain ⟨c, s⟩ := k'
  cases hkept with
  | closed => exact absurd hopen (Nat.lt_irrefl 0)
  | opened ho => exact branchesAgree ho

/-- A selection and a drop fail; a block stays open in dead code, below a constant. -/
theorem branchesAgree_feed_failures :
    0 < ((initial .empty ⟨[], [.i32]⟩ [] { maxOperands := 1, maxFrames := 2 }).feed
        [.op .select, .op .drop, .op .unreachable, .block (.result .i64),
          .op .unreachable, .op (.fixed (.i32Const 0))]).stack.depth ∧
      ((initial .empty ⟨[], [.i32]⟩ [] { maxOperands := 1, maxFrames := 2 }).feed
        [.op .select, .op .drop, .op .unreachable, .block (.result .i64),
          .op .unreachable, .op (.fixed (.i32Const 0))]).BranchesAgree :=
  ⟨by decide, branchesAgree_feed .empty ⟨[], [.i32]⟩ [] { maxOperands := 1, maxFrames := 2 }
    (initial ..) rfl _ (by decide)⟩

end BodyChecker

end WasmCheck
