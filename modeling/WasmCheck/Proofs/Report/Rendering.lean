import WasmCheck.Diagnostic

/-!
# Rendered diagnostics

The text of a located diagnostic can be read back. Its lines are told apart by the line breaks, and
on each line the digits of the offset end at the first colon, whatever the rest of the line holds.
`Rendered.ofText` is a reader that goes by this.
-/

namespace WasmCheck

namespace Text

/-! ## Reading numbers -/

def hexAlphabet : List Char :=
  ['0', '1', '2', '3', '4', '5', '6', '7', '8', '9', 'a', 'b', 'c', 'd', 'e', 'f']

/-- The number that digits of base sixteen stand for, the first one counting most. -/
def hexValue (digits : List Char) : Nat :=
  digits.foldl (fun n c => 16 * n + hexAlphabet.idxOf c) 0

/-- How a number is written in base sixteen: in lower case, and with zeros in front up to the width
but not beyond it. -/
structure Hexadecimal (width n : Nat) (digits : List Char) : Prop where
  alphabet : ∀ c ∈ digits, c ∈ hexAlphabet
  value : hexValue digits = n
  width_le : width ≤ digits.length
  tight : width < digits.length → digits.head? ≠ some '0'

variable {width n : Nat}

theorem idxOf_digitChar {k : Nat} (h : k < 16) : hexAlphabet.idxOf k.digitChar = k := by
  match k with
  | 0 | 1 | 2 | 3 | 4 | 5 | 6 | 7 | 8 | 9 | 10 | 11 | 12 | 13 | 14 | 15 => rfl
  | k + 16 => omega

theorem digitChar_mem {k : Nat} (h : k < 16) : k.digitChar ∈ hexAlphabet := by
  rw [← List.idxOf_lt_length_iff, idxOf_digitChar h]
  exact h

theorem hexValue_append_singleton (digits : List Char) (c : Char) :
    hexValue (digits ++ [c]) = 16 * hexValue digits + hexAlphabet.idxOf c := by
  simp [hexValue]

theorem hexValue_replicate_append (k : Nat) (digits : List Char) :
    hexValue (List.replicate k '0' ++ digits) = hexValue digits := by
  induction k with
  | zero => rfl
  | succ k ih => rw [← ih]; rfl

theorem toDigits_append_digit {m k : Nat} (hm : 0 < m) (hk : k < 16) :
    Nat.toDigits 16 (16 * m + k) = Nat.toDigits 16 m ++ [k.digitChar] := by
  rw [← Nat.toDigits_append_toDigits (by decide) hm hk, Nat.toDigits_of_lt_base hk]

theorem mem_hexAlphabet_of_mem_toDigits {c : Char} (h : c ∈ Nat.toDigits 16 n) :
    c ∈ hexAlphabet := by
  induction n using Nat.base_induction 16 (by decide) with
  | single k hk =>
    rw [Nat.toDigits_of_lt_base hk, List.mem_singleton] at h
    exact h ▸ digitChar_mem hk
  | digit m k hk hm ih =>
    rw [toDigits_append_digit hm hk, List.mem_append, List.mem_singleton] at h
    rcases h with h | h
    · exact ih h
    · exact h ▸ digitChar_mem hk

theorem hexValue_toDigits (n : Nat) : hexValue (Nat.toDigits 16 n) = n := by
  induction n using Nat.base_induction 16 (by decide) with
  | single k hk => simp [Nat.toDigits_of_lt_base hk, hexValue, idxOf_digitChar hk]
  | digit m k hk hm ih =>
    rw [toDigits_append_digit hm hk, hexValue_append_singleton, ih, idxOf_digitChar hk]

theorem head?_toDigits (h : 0 < n) : (Nat.toDigits 16 n).head? ≠ some '0' := by
  induction n using Nat.base_induction 16 (by decide) with
  | single k hk =>
    rw [Nat.toDigits_of_lt_base hk]
    intro hzero
    have hvalue := idxOf_digitChar hk
    rw [Option.some.inj hzero] at hvalue
    exact absurd hvalue.symm (Nat.ne_of_gt h)
  | digit m k hk hm ih =>
    obtain ⟨c, cs, hcs⟩ := List.exists_cons_of_ne_nil (Nat.toDigits_ne_nil (n := m) (b := 16))
    rw [toDigits_append_digit hm hk, hcs]
    rw [hcs] at ih
    exact ih hm

theorem hexadecimal_hexDigits (h : 0 < width) (n : Nat) :
    Hexadecimal width n (hexDigits width n) where
  alphabet c hc := by
    rcases List.mem_append.1 hc with hc | hc
    · rw [List.eq_of_mem_replicate hc]; decide
    · exact mem_hexAlphabet_of_mem_toDigits hc
  value := (hexValue_replicate_append _ _).trans (hexValue_toDigits n)
  width_le := by rw [length_hexDigits]; exact Nat.le_max_left ..
  tight hw := by
    rw [length_hexDigits] at hw
    have hlong : width < (Nat.toDigits 16 n).length := by omega
    have hpos : 0 < n := by
      refine Nat.pos_of_ne_zero fun hz => ?_
      rw [hz, Nat.toDigits_zero] at hlong
      exact absurd h (Nat.not_lt.2 (Nat.le_of_lt_succ hlong))
    rw [hexDigits, List.leftpad, Nat.sub_eq_zero_of_le (Nat.le_of_lt hlong)]
    exact head?_toDigits hpos

theorem not_mem_hexDigits {c : Char} (hc : c ∉ hexAlphabet) (h : 0 < width) (n : Nat) :
    c ∉ hexDigits width n :=
  fun hmem => hc ((hexadecimal_hexDigits h n).alphabet c hmem)

/-! ## Lines -/

def lines (s : String) : List String := (s.split '\n').toList.map (·.copy)

theorem lines_intercalate {ls : List String} (hne : ls ≠ []) (h : ∀ l ∈ ls, '\n' ∉ l.toList) :
    lines ("\n".intercalate ls) = ls := by
  have hsplit := String.toList_split_intercalate h
  rwa [if_neg hne] at hsplit

end Text

/-! ## Reading diagnostics -/

/-- What the text of a located diagnostic tells. -/
structure Rendered where
  offset : Nat
  message : String
  callbacks : List String
deriving DecidableEq, Repr

namespace Rendered

def offsetOf (line : String) : Nat := Text.hexValue (line.toList.takeWhile (· ≠ ':'))

def entryOf (line : String) : String :=
  String.ofList ((line.toList.dropWhile (· ≠ ':')).drop ": error: ".toList.length)

def callbackOf (entry : String) : String :=
  String.ofList (entry.toList.take (entry.toList.length - " callback failed".toList.length))

def ofText (text : String) : Rendered :=
  match Text.lines text with
  | [] => ⟨0, "", []⟩
  | l :: ls => ⟨offsetOf l, entryOf l, ls.map fun l => callbackOf (entryOf l)⟩

section Line
variable (n : Nat) (entry : String)

theorem toList_line : (Text.hex 7 n ++ ": error: " ++ entry).toList =
    Text.hexDigits 7 n ++ (": error: ".toList ++ entry.toList) := by
  simp [Text.hex]

theorem ne_colon_of_mem_hexDigits : ∀ c ∈ Text.hexDigits 7 n, decide (c ≠ ':') = true :=
  fun _ hc => decide_eq_true fun heq =>
    Text.not_mem_hexDigits (by decide) (by decide) n (heq ▸ hc)

/-- The digits end at the first colon. -/
theorem offsetOf_line : offsetOf (Text.hex 7 n ++ ": error: " ++ entry) = n := by
  have hcolon : (": error: ".toList ++ entry.toList).takeWhile (· ≠ ':') = [] := rfl
  rw [offsetOf, toList_line, List.takeWhile_append_of_pos (ne_colon_of_mem_hexDigits n), hcolon,
    List.append_nil]
  exact (Text.hexadecimal_hexDigits (by decide : 0 < 7) n).value

theorem entryOf_line : entryOf (Text.hex 7 n ++ ": error: " ++ entry) = entry := by
  have hcolon : (": error: ".toList ++ entry.toList).dropWhile (· ≠ ':') =
      ": error: ".toList ++ entry.toList := rfl
  rw [entryOf, toList_line, List.dropWhile_append_of_pos (ne_colon_of_mem_hexDigits n), hcolon,
    List.drop_left, String.ofList_toList]

end Line

theorem callbackOf_entry (c : String) : callbackOf (c ++ " callback failed") = c := by
  rw [callbackOf, String.toList_append, List.length_append, Nat.add_sub_cancel, List.take_left,
    String.ofList_toList]

end Rendered

namespace Diagnostic

/-- No part of the diagnostic breaks a line. -/
structure OneLined (d : Diagnostic) : Prop where
  message : '\n' ∉ d.message.toList
  callbacks : ∀ c ∈ d.callbacks, '\n' ∉ c.toList

variable {d d' : Diagnostic} {o o' : Nat}

theorem OneLined.entries (h : d.OneLined) : ∀ entry ∈ d.entries, '\n' ∉ entry.2.toList := by
  simpa [Diagnostic.entries] using And.intro h.message h.callbacks

theorem lines_of_offset (ho : d.offset = some o) :
    d.lines = d.entries.map fun entry => Text.hex 7 o ++ ": error: " ++ entry.2 := by
  rw [lines, lead, ho]

theorem lines_text (ho : d.offset = some o) (h : d.OneLined) : Text.lines d.text = d.lines := by
  refine Text.lines_intercalate (by simp [lines, Diagnostic.entries]) fun l hl => ?_
  have hdigits : '\n' ∉ Text.hexDigits 7 o := Text.not_mem_hexDigits (by decide) (by decide) o
  rw [lines_of_offset ho] at hl
  obtain ⟨entry, he, rfl⟩ := List.mem_map.1 hl
  simpa [Text.hex, hdigits] using h.entries entry he

theorem ofText_text (ho : d.offset = some o) (h : d.OneLined) :
    Rendered.ofText d.text = ⟨o, d.message, d.callbacks⟩ := by
  rw [Rendered.ofText, lines_text ho h, lines_of_offset ho]
  simp [Diagnostic.entries, Function.comp_def, Rendered.offsetOf_line, Rendered.entryOf_line,
    Rendered.callbackOf_entry]

/-- Located diagnostics have the same text if and only if they have the same offset, message and
callbacks. The text has a line for each callback and one more, and all start with the offset. -/
theorem text_unambiguous (ho : d.offset = some o) (ho' : d'.offset = some o') (h : d.OneLined)
    (h' : d'.OneLined) :
    (d.text = d'.text ↔ o = o' ∧ d.message = d'.message ∧ d.callbacks = d'.callbacks) ∧
      (Text.lines d.text).length = d.callbacks.length + 1 ∧
      ∃ digits, Text.Hexadecimal 7 o digits ∧ ∀ l ∈ Text.lines d.text, ∃ entry,
        l = String.ofList digits ++ ": error: " ++ entry := by
  refine ⟨⟨fun htext => ?_, ?_⟩, ?_, Text.hexDigits 7 o,
    Text.hexadecimal_hexDigits (by decide) o, fun l hl => ?_⟩
  · have hread := congrArg Rendered.ofText htext
    rw [ofText_text ho h, ofText_text ho' h'] at hread
    simpa using hread
  · rintro ⟨rfl, hm, hc⟩
    rw [text, text, lines_of_offset ho, lines_of_offset ho', Diagnostic.entries,
      Diagnostic.entries, hm, hc]
  · rw [lines_text ho h, length_lines]
  · rw [lines_text ho h, lines_of_offset ho] at hl
    obtain ⟨entry, -, rfl⟩ := List.mem_map.1 hl
    exact ⟨entry.2, rfl⟩

/-- The offset takes an eighth digit, the message looks like a lead, and the callback like the entry
of another one. -/
def overlong : Diagnostic :=
  ⟨some 0x10000000, .custom .validation 4008 "10000000: error: ", ["OnEnd callback failed"]⟩

theorem text_unambiguous_overlong : overlong.offset = some 0x10000000 ∧ overlong.OneLined ∧
    overlong.text ≠ { overlong with callbacks := ["OnEnd"] }.text ∧
    (Text.lines overlong.text).length = 2 := by
  have hone : overlong.OneLined := ⟨by decide, by decide⟩
  have hother : { overlong with callbacks := ["OnEnd"] }.OneLined := ⟨by decide, by decide⟩
  obtain ⟨hiff, hlength, -⟩ := text_unambiguous rfl rfl hone hother
  exact ⟨rfl, hone, fun htext => absurd (hiff.1 htext).2.2 (by decide), hlength⟩

end Diagnostic

end WasmCheck
