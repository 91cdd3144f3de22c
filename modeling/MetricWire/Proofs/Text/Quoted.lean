import MetricWire.Proofs.Address.Numbers
import MetricWire.Text.Quoted

/-!
Quoted texts can be told apart.

What is written of a value delimits itself if, whatever stands behind it, the value and the rest can be told from the
whole. That is kept when values are written one behind the other, so a text of several parts is taken apart from the
front: no part can pretend to be the next one. A character inside quotes delimits itself because it can be read off
the front again; the text between two quotes does because no character is written with a quote at its start.

  1. `SelfDelimiting.append`, `SelfDelimiting.flatMap` — pairs, and lists in front of a stop.
  2. `Quoted.unescape?_escape`, `Quoted.selfDelimiting_text` — characters and quoted texts.
  3. `Quoted.shown_text` — every character of a quoted text has a visible form.
-/

namespace MetricWire

/-- Two writings with anything behind them are the same only if the values and what is behind them are. -/
def SelfDelimiting {α : Type} (write : α → List Char) : Prop :=
  ∀ ⦃a b : α⦄ ⦃x y : List Char⦄, write a ++ x = write b ++ y → a = b ∧ x = y

namespace SelfDelimiting
variable {α β : Type} {v : α → List Char} {w : β → List Char}

theorem injective (h : SelfDelimiting v) {a b : α} (hab : v a = v b) : a = b :=
  (h (congrArg (· ++ []) hab)).1

/-- What a reader takes off the front as it was delimits itself. -/
theorem of_reader {read : List Char → Option (α × List Char)} (h : ∀ a rest, read (v a ++ rest) = some (a, rest)) :
    SelfDelimiting v := by
  intro a b x y hab
  have hread := h a x
  rw [hab, h b y] at hread
  obtain ⟨hb, hy⟩ := Prod.mk.inj (Option.some.inj hread)
  exact ⟨hb.symm, hy.symm⟩

theorem comp (h : SelfDelimiting v) {f : β → α} (hf : Function.Injective f) : SelfDelimiting fun b => v (f b) := by
  intro a b x y hab
  obtain ⟨hf', hxy⟩ := h hab
  exact ⟨hf hf', hxy⟩

theorem behind (h : SelfDelimiting v) (before : List Char) : SelfDelimiting fun a => before ++ v a := by
  intro a b x y hab
  rw [List.append_assoc, List.append_assoc] at hab
  exact h (List.append_cancel_left hab)

theorem before (h : SelfDelimiting v) (behind : List Char) : SelfDelimiting fun a => v a ++ behind := by
  intro a b x y hab
  rw [List.append_assoc, List.append_assoc] at hab
  obtain ⟨rfl, hrest⟩ := h hab
  exact ⟨rfl, List.append_cancel_left hrest⟩

theorem append (hv : SelfDelimiting v) (hw : SelfDelimiting w) : SelfDelimiting fun p : α × β => v p.1 ++ w p.2 := by
  rintro ⟨a, b⟩ ⟨a', b'⟩ x y hab
  simp only [List.append_assoc] at hab
  obtain ⟨rfl, hrest⟩ := hv hab
  obtain ⟨rfl, hxy⟩ := hw hrest
  exact ⟨rfl, hxy⟩

/-- A list ends at a stop that no member starts with. -/
theorem flatMap (h : SelfDelimiting v) {stop : Char} (hstart : ∀ a, ∃ c rest, v a = c :: rest ∧ c ≠ stop) :
    SelfDelimiting fun l : List α => l.flatMap v ++ [stop] := by
  intro l m x y hlm
  have hne : ∀ (a : α) {s t : List Char}, v a ++ s ≠ stop :: t := by
    intro a s t heq
    obtain ⟨c, rest, hv, hc⟩ := hstart a
    rw [hv] at heq
    exact hc (List.cons.inj heq).1
  induction l generalizing m with
  | nil =>
    cases m with
    | nil => exact ⟨rfl, (List.cons.inj hlm).2⟩
    | cons b m => exact absurd (by simpa using hlm.symm) (hne b)
  | cons a l ih =>
    cases m with
    | nil => exact absurd (by simpa using hlm) (hne a)
    | cons b m =>
      simp only [List.flatMap_cons, List.append_assoc] at hlm ih
      obtain ⟨rfl, hrest⟩ := h hlm
      obtain ⟨rfl, hxy⟩ := ih hrest
      exact ⟨rfl, hxy⟩

end SelfDelimiting

/-! ## Characters without a visible form -/

namespace Invisible

/-- The characters of ASCII but for its controls. -/
def isPrintable (c : Char) : Bool := 0x20 ≤ c.toNat && c.toNat < 0x7f

theorem ranges_ascii : ∀ r ∈ ranges, r.2 < 0x20 ∨ 0x7f ≤ r.1 := by decide +kernel

theorem contains_of_isPrintable {c : Char} (hc : isPrintable c = true) : contains c = false := by
  simp only [isPrintable, Bool.and_eq_true, decide_eq_true_eq] at hc
  rw [contains, List.any_eq_false]
  intro r hr
  have hr := ranges_ascii r hr
  simp only [Bool.and_eq_true, decide_eq_true_eq]
  omega

theorem contains_of_control {c : Char} (hc : c.toNat < 0x20 ∨ c.toNat = 0x7f) : contains c = true := by
  rw [contains, List.any_eq_true]
  rcases hc with hc | hc
  · refine ⟨(0x0, 0x1f), List.mem_cons_self, ?_⟩
    simp
    omega
  · refine ⟨(0x7f, 0xa0), List.mem_cons_of_mem _ List.mem_cons_self, ?_⟩
    simp [hc]

end Invisible

/-- Every character of the text has a visible form. -/
def Shown (s : List Char) : Prop := ∀ c ∈ s, Invisible.contains c = false

namespace Shown
variable {s t : List Char}

theorem of_printable (h : s.all Invisible.isPrintable = true) : Shown s :=
  fun c hc => Invisible.contains_of_isPrintable (List.all_eq_true.mp h c hc)

theorem append (hs : Shown s) (ht : Shown t) : Shown (s ++ t) := by
  intro c hc
  rcases List.mem_append.mp hc with hc | hc
  · exact hs c hc
  · exact ht c hc

theorem flatMap {α : Type} {v : α → List Char} (h : ∀ a, Shown (v a)) (l : List α) : Shown (l.flatMap v) := by
  intro c hc
  obtain ⟨a, -, hc⟩ := List.mem_flatMap.mp hc
  exact h a c hc

theorem not_control (h : Shown s) {c : Char} (hc : c ∈ s) : ¬ (c.toNat < 0x20 ∨ c.toNat = 0x7f) := by
  intro hcontrol
  exact Bool.noConfusion ((Invisible.contains_of_control hcontrol).symm.trans (h c hc))

end Shown

namespace Quoted

/-! ## One character -/

/-- The characters with an escape of one letter. -/
def named : List (Char × Char) :=
  [('\x00', '0'), ('\t', 't'), ('\r', 'r'), ('\n', 'n'), ('"', '"'), ('\\', '\\')]

theorem escape_cases (c : Char) :
    (∃ letter, (c, letter) ∈ named ∧ escape c = ['\\', letter]) ∨
    (Invisible.contains c = true ∧ escape c = codePoint c) ∨
    (c ≠ '"' ∧ c ≠ '\\' ∧ Invisible.contains c = false ∧ escape c = [c]) := by
  unfold escape
  split_ifs <;> simp_all [named]

/-- Takes one character off the front, as it stands inside quotes. -/
def unescape? : List Char → Option (Char × List Char)
  | '\\' :: '0' :: rest => some ('\x00', rest)
  | '\\' :: 't' :: rest => some ('\t', rest)
  | '\\' :: 'r' :: rest => some ('\r', rest)
  | '\\' :: 'n' :: rest => some ('\n', rest)
  | '\\' :: 'u' :: '{' :: rest => (Reading.number 16 0x110000 rest).map fun r => (Char.ofNat r.1, r.2.tail)
  | '\\' :: c :: rest => some (c, rest)
  | c :: rest => some (c, rest)
  | [] => none

theorem unescape?_named {c letter : Char} (h : (c, letter) ∈ named) (rest : List Char) :
    unescape? ('\\' :: letter :: rest) = some (c, rest) := by
  simp only [named, List.mem_cons, List.not_mem_nil, or_false, Prod.mk.injEq] at h
  rcases h with ⟨rfl, rfl⟩ | ⟨rfl, rfl⟩ | ⟨rfl, rfl⟩ | ⟨rfl, rfl⟩ | ⟨rfl, rfl⟩ | ⟨rfl, rfl⟩ <;> rfl

theorem codePoint_append (c : Char) (rest : List Char) :
    codePoint c ++ rest = '\\' :: 'u' :: '{' :: (Nat.toDigits 16 c.toNat ++ '}' :: rest) := by
  simp [codePoint]

theorem unescape?_codePoint (c : Char) (rest : List Char) : unescape? (codePoint c ++ rest) = some (c, rest) := by
  have hlt : c.toNat < 0x110000 := by
    have hvalid : c.toNat < 0xd800 ∨ 0xdfff < c.toNat ∧ c.toNat < 0x110000 := c.valid
    omega
  have hnumber := Reading.number_toDigits (.inr rfl) hlt (Reading.Stops.cons rest (c := '}') (by decide))
  rw [codePoint_append, unescape?, hnumber, Option.map_some, Char.ofNat_toNat, List.tail_cons]

theorem unescape?_escape (c : Char) (rest : List Char) : unescape? (escape c ++ rest) = some (c, rest) := by
  rcases escape_cases c with ⟨letter, hletter, h⟩ | ⟨-, h⟩ | ⟨-, hbackslash, -, h⟩
  · rw [h]
    exact unescape?_named hletter rest
  · rw [h]
    exact unescape?_codePoint c rest
  · rw [h]
    simp [unescape?, hbackslash]

theorem selfDelimiting_escape : SelfDelimiting escape := .of_reader unescape?_escape

/-- No character starts with a bare quote. -/
theorem escape_start (c : Char) : ∃ d rest, escape c = d :: rest ∧ d ≠ '"' := by
  rcases escape_cases c with ⟨letter, -, h⟩ | ⟨-, h⟩ | ⟨hquote, -, -, h⟩
  · exact ⟨_, _, h, by decide⟩
  · exact ⟨_, _, h, by decide⟩
  · exact ⟨_, _, h, hquote⟩

/-! ## A whole text -/

theorem selfDelimiting_encode : SelfDelimiting encode :=
  (selfDelimiting_escape.flatMap escape_start).behind ['"']

theorem toList_text (s : String) : (text s).toList = encode s.toList := String.toList_ofList

theorem selfDelimiting_text : SelfDelimiting fun s => (text s).toList := by
  simp only [toList_text]
  exact selfDelimiting_encode.comp fun _ _ => String.toList_inj.mp

/-! ## What is shown of it -/

theorem isPrintable_of_isDigit {c : Char} (hc : Reading.isDigit 16 c = true) : Invisible.isPrintable c = true := by
  have hrange : ('0' ≤ c ∧ c ≤ '9') ∨ ('a' ≤ c ∧ c ≤ 'f') ∨ ('A' ≤ c ∧ c ≤ 'F') := by
    revert hc
    unfold Reading.isDigit Reading.digit?
    split_ifs <;> simp_all
  simp only [Char.le_def, UInt32.le_iff_toNat_le] at hrange
  change (48 ≤ c.toNat ∧ c.toNat ≤ 57) ∨ (97 ≤ c.toNat ∧ c.toNat ≤ 102) ∨ (65 ≤ c.toNat ∧ c.toNat ≤ 70) at hrange
  simp only [Invisible.isPrintable, Bool.and_eq_true, decide_eq_true_eq]
  omega

theorem shown_codePoint (c : Char) : Shown (codePoint c) := by
  have hdigits : Shown (Nat.toDigits 16 c.toNat) := fun d hd =>
    Invisible.contains_of_isPrintable (isPrintable_of_isDigit (Reading.isDigit_toDigits (.inr rfl) _ d hd))
  exact ((Shown.of_printable (by decide)).append hdigits).append (.of_printable (by decide))

theorem shown_escape (c : Char) : Shown (escape c) := by
  rcases escape_cases c with ⟨letter, hletter, h⟩ | ⟨-, h⟩ | ⟨-, -, hshown, h⟩
  · have hall : named.all (fun p => ['\\', p.2].all Invisible.isPrintable) = true := by decide
    rw [h]
    exact .of_printable (List.all_eq_true.mp hall _ hletter)
  · rw [h]
    exact shown_codePoint c
  · rw [h]
    intro d hd
    rw [List.mem_singleton.mp hd, hshown]

theorem shown_text (s : String) : Shown (text s).toList := by
  have hquote : Shown ['"'] := .of_printable (by decide)
  rw [toList_text]
  exact (hquote.append (.flatMap shown_escape s.toList)).append hquote

end Quoted

end MetricWire
