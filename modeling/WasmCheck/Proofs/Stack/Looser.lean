import WasmCheck.Proofs.Body.Congruence
import WasmCheck.Proofs.Typing.Soundness
import WasmCheck.Proofs.Typing.Completeness

/-!
# Stacks that leave more open

Unreachable code leaves the types of operands open, and even whether they are there. A stack is
looser than another one if it has the same frames, some more of them unreachable, and if what it
holds for each frame covers what the other one does. A looser stack is never the larger one, and
whatever an operation accepts on the other stack it accepts on this one.
-/

namespace WasmCheck

open Stack Attempt

/-- `f` is the frame `g`, perhaps at another height, and perhaps unreachable already. -/
structure Frame.Looser (f g : Frame) : Prop where
  kind : f.kind = g.kind
  params : f.params = g.params
  results : f.results = g.results
  unreachable : g.unreachable = true → f.unreachable = true

theorem Frame.Looser.refl (f : Frame) : f.Looser f := ⟨rfl, rfl, rfl, id⟩

theorem Frame.Looser.jump {f g : Frame} (h : f.Looser g) :
    Frame.Looser { f with unreachable := true } { g with unreachable := true } :=
  ⟨h.kind, h.params, h.results, id⟩

theorem Frame.Looser.labelTypes {f g : Frame} (h : f.Looser g) : f.labelTypes = g.labelTypes := by
  rw [Frame.labelTypes, Frame.labelTypes, h.kind, h.params, h.results]

theorem Selects.loosen {u v : Bool} {xs ys : List Operand} {o : Operand} (h : Selects v ys o)
    (hc : Covers u xs ys) (hu : v = true → u = true) :
    (∃ p, Selects u xs p) ∧ ∀ p, Selects u xs p → p.Sub o := by
  have ho := hc.trans_weaken hu h.covers.1
  have hn (t : ValueType) (ht : o = .known t) : t.isNum = true := by
    cases h with
    | known _ hn => cases ht; exact hn
    | unknown => cases ht
  exact ho.selects hn

namespace Stack

/-- Layer by layer, the operands of a frame cover those of the other one. -/
inductive Loosened : List Frame → List Operand → List Frame → List Operand → Prop where
  | closed (xs : List Operand) : Loosened [] xs [] xs
  | layer {f g : Frame} {fs gs : List Frame} {xs ys below below' : List Operand} :
      Loosened fs below gs below' → f.Looser g → f.height = below.length →
      g.height = below'.length → Covers f.unreachable xs ys →
      Loosened (f :: fs) (xs ++ below) (g :: gs) (ys ++ below')

/-- The first stack is the looser one of two with the same limits. -/
inductive Looser : Stack → Stack → Prop where
  | mk {fs gs : List Frame} {xs ys : List Operand} {mo mf : Nat} : Loosened fs xs gs ys →
      Looser ⟨xs, fs, mo, mf⟩ ⟨ys, gs, mo, mf⟩

inductive LooserInside : Stack → Stack → Prop where
  | mk {f g : Frame} {fs gs : List Frame} {xs ys below below' : List Operand} {mo mf : Nat} :
      Loosened fs below gs below' → f.Looser g → f.height = below.length →
      g.height = below'.length → Covers f.unreachable xs ys →
      LooserInside ⟨xs ++ below, f :: fs, mo, mf⟩ ⟨ys ++ below', g :: gs, mo, mf⟩

variable {s t : Stack} {fs gs : List Frame} {xs ys : List Operand}

theorem Loosened.length_operands (h : Loosened fs xs gs ys) : xs.length ≤ ys.length := by
  induction h with
  | closed => exact Nat.le_refl _
  | layer _ _ _ _ hc ih =>
    have := hc.length_le
    simp only [List.length_append]
    omega

theorem Loosened.length_frames (h : Loosened fs xs gs ys) : fs.length = gs.length := by
  induction h with
  | closed => rfl
  | layer _ _ _ _ _ ih => rw [List.length_cons, List.length_cons, ih]

theorem Loosened.push (h : Loosened fs xs gs ys) (os : List Operand) :
    Loosened fs (os ++ xs) gs (os ++ ys) := by
  cases h with
  | closed => exact .closed _
  | layer h hl hf hg hc =>
    rw [← List.append_assoc, ← List.append_assoc]
    exact .layer h hl hf hg (.push (.refl os) hc)

theorem Loosened.label (h : Loosened fs xs gs ys) (n : Nat) {g : Frame} (hg : gs[n]? = some g) :
    ∃ f, fs[n]? = some f ∧ f.Looser g := by
  induction h generalizing n with
  | closed => cases hg
  | layer _ hl _ _ _ ih =>
    cases n with
    | zero =>
      cases hg
      exact ⟨_, rfl, hl⟩
    | succ n => exact ih n hg

theorem LooserInside.looser (h : LooserInside s t) : Looser s t := by
  cases h with
  | mk h hl hf hg hc => exact .mk (.layer h hl hf hg hc)

theorem Looser.inside (h : Looser s t) (ht : t.frames ≠ []) : LooserInside s t := by
  cases h with
  | mk h =>
    cases h with
    | closed => exact absurd rfl ht
    | layer h hl hf hg hc => exact .mk h hl hf hg hc

theorem Looser.eq_of_frames_nil (h : Looser s t) (ht : t.frames = []) : s = t := by
  cases h with
  | mk h =>
    cases h with
    | closed => rfl
    | layer => cases ht

theorem Looser.push (h : Looser s t) (os : List Operand) :
    Looser { s with operands := os ++ s.operands } { t with operands := os ++ t.operands } := by
  cases h with
  | mk h => exact .mk (h.push os)

theorem LooserInside.push (h : LooserInside s t) (os : List Operand) :
    LooserInside { s with operands := os ++ s.operands }
      { t with operands := os ++ t.operands } := by
  cases h with
  | mk h hl hf hg hc =>
    rw [← List.append_assoc, ← List.append_assoc]
    exact .mk h hl hf hg (.push (.refl os) hc)

/-! ## Operations -/

/-- What the check does on the second stack it does on the looser one too. -/
abbrev Follows {α : Type} (x : Check α) (s t : Stack) (Q : α → α → Stack → Stack → Prop) : Prop :=
  Lockstep (fun _ => True) x x s t Q Looser

namespace Looser

theorem pushAll (h : Looser s t) (ts : List ValueType) {R : Stack → Stack → Prop}
    (hr : R { s with operands := ts.reverse.map .known ++ s.operands }
      { t with operands := ts.reverse.map .known ++ t.operands }) :
    Follows (Stack.pushAll ts) s t fun _ _ => R := by
  refine .of_follows (post_pushAll.2 ?_)
  split
  · trivial
  · next hn =>
    refine post_pushAll.2 ?_
    rw [if_neg]
    · exact hr
    · cases h with
      | mk h =>
        have := h.length_operands
        simp only [size] at *
        omega

theorem openFrame (h : Looser s t) (kind : FrameKind) (ps rs : List ValueType) :
    Follows (Stack.openFrame kind ps rs) s t fun _ _ => LooserInside := by
  cases h with
  | mk h =>
    have hlen := h.length_operands
    have hdep := h.length_frames
    refine .of_follows (post_openFrame.2 ?_)
    split
    · trivial
    split
    · trivial
    · next hd hn =>
      refine post_openFrame.2 ?_
      rw [if_neg (by simpa only [depth, hdep] using hd), if_neg (by simp only [size] at *; omega)]
      exact .mk h ⟨rfl, rfl, rfl, id⟩ rfl rfl (.refl false _)

end Looser

namespace LooserInside

theorem labelTypes (h : LooserInside s t) (l : UInt32) :
    Follows (Stack.labelTypes l) s t fun ts us s' t' => ts = us ∧ LooserInside s' t' := by
  have hin := h
  cases h with
  | mk h hl hf hg hc =>
    refine .of_follows (post_labelTypes.2 ?_)
    split
    · next g hg' =>
      obtain ⟨f, hf', hfg⟩ := (Loosened.layer h hl hf hg hc).label _ hg'
      refine post_labelTypes.2 ?_
      rw [hf']
      exact ⟨hfg.labelTypes, hin⟩
    · trivial

theorem peekAll (h : LooserInside s t) (ts : List ValueType) (d : String) :
    Follows (Stack.peekAll ts d) s t fun _ _ => LooserInside := by
  cases h with
  | mk h hl hf hg hc =>
    exact .of_post (post_peekAll hf) (post_peekAll hg)
      (fun ht => ⟨hc.fits_of hl.unreachable ht, .mk h hl hf hg hc⟩) fun _ => .inl trivial

theorem discard (h : LooserInside s t) (n : Nat) :
    Follows (Stack.discard n) s t fun _ _ => LooserInside := by
  cases h with
  | mk h hl hf hg hc =>
    exact .of_always (post_discard hf) (post_discard hg) (.mk h hl hf hg (hc.drop n))

theorem takeTop (h : LooserInside s t) :
    Follows Stack.takeTop s t fun _ _ => LooserInside := by
  cases h with
  | mk h hl hf hg hc =>
    exact .of_always (post_takeTop hf) (post_takeTop hg) (.mk h hl hf hg (hc.drop 1))

theorem popAny (h : LooserInside s t) (d : String) :
    Follows (Stack.popAny d) s t fun _ _ => LooserInside := by
  cases h with
  | mk h hl hf hg hc =>
    refine .of_post ((post_popAny hf).trans (by rw [ite_not]))
      ((post_popAny hg).trans (by rw [ite_not])) (fun ht => ?_) fun _ => .inl trivial
    exact ⟨(hc.trans_weaken hl.unreachable (.of_head ht)).head_given, .mk h hl hf hg (hc.drop 1)⟩

theorem popReference (h : LooserInside s t) (d : String) :
    Follows (Stack.popReference d) s t fun _ _ => LooserInside := by
  cases h with
  | mk h hl hf hg hc =>
    refine .of_post (post_popReference hf) (post_popReference hg) (fun ht => ?_)
      fun _ => .inl trivial
    obtain ⟨r, hr⟩ := Covers.of_supplyReference ht
    exact ⟨(hc.trans_weaken hl.unreachable hr).supplyReference, .mk h hl hf hg (hc.drop 1)⟩

/-- The selection on the looser stack may leave an unknown operand where the type is known. -/
theorem checkSelect (h : LooserInside s t) :
    Follows Op.checkSelect s t fun _ _ => LooserInside := by
  cases h with
  | mk h hl hf hg hc =>
    have hlen := h.length_operands
    refine .of_follows (post_checkSelect hg (fun hi o ho hmo => ?_) (fun _ _ _ _ => trivial)
      fun _ _ _ _ => trivial)
    have hi := hc.fits_of hl.unreachable hi
    obtain ⟨hex, hall⟩ := ho.loosen (hc.drop 1) hl.unreachable
    have hc := (hc.drop 1).drop 2
    refine post_checkSelect hf (fun _ p hp _ => ?_) (fun _ p _ hfull => ?_) fun hno => ?_
    · exact .mk h hl hf hg (.cons (hall p hp) hc)
    · have := hc.length_le
      simp only [List.length_append, List.length_drop] at *
      omega
    · exact absurd ⟨hi, hex⟩ hno

theorem markUnreachable (h : LooserInside s t) :
    Follows Stack.markUnreachable s t fun _ _ => LooserInside := by
  cases h with
  | mk h hl hf hg hc =>
    exact .of_always (post_markUnreachable hf) (post_markUnreachable hg)
      (LooserInside.mk h hl.jump hf hg .nil)

theorem currentFrame (h : LooserInside s t) :
    Follows Stack.currentFrame s t fun f g s' t' => f.kind = g.kind ∧ LooserInside s' t' := by
  cases h with
  | mk h hl hf hg hc => exact .ok ⟨hl.kind, .mk h hl hf hg hc⟩

theorem closeFrame (h : LooserInside s t) (d : String) :
    Follows (Stack.closeFrame d) s t fun f g s' t' =>
      (f.params = g.params ∧ f.results = g.results) ∧ Looser s' t' := by
  cases h with
  | mk h hl hf hg hc =>
    refine .of_post (post_closeFrame hf) (post_closeFrame hg) (fun ht => ?_) fun _ => .inl trivial
    refine ⟨Covers.closes ?_, ⟨hl.params, hl.results⟩, .mk h⟩
    rw [hl.results]
    exact hc.trans_weaken hl.unreachable (.of_closes ht)

theorem respected : Respected (fun _ => True) LooserInside Looser where
  weaken h := h.looser
  currentFrame h := h.currentFrame
  labelTypes l h := h.labelTypes l
  peekAll ts d h := h.peekAll ts d
  discard n h := h.discard n
  takeTop h := h.takeTop
  popAny d h := h.popAny d
  popReference d h := h.popReference d
  push ty h := h.looser.pushAll [ty] (h.push [.known ty])
  pushAll ts h := h.looser.pushAll ts (h.push _)
  checkSelect h := h.checkSelect
  markUnreachable h := h.markUnreachable
  openFrame kind ps rs h := h.openFrame kind ps rs
  closeFrame d h := h.closeFrame d
  handOn ts h := h.pushAll ts (h.push _)

end LooserInside

end Stack

end WasmCheck
