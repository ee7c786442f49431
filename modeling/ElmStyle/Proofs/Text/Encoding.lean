import ElmStyle.Text.Plain
import ElmStyle.Text.Utf8
import Mathlib.Data.String.Basic

/-!
# Texts that can be encoded

A text can be encoded exactly if it holds no lone surrogate. The half of a pair that an escape
writes is found again in the character that stands for it, and no styling sequence has one in it, so
that a line can be printed exactly if its text can be encoded.
-/
namespace ElmStyle.Text

/-- A code point has a character that stands for it and for nothing else, those apart that are left
out. -/
theorem codePoint_ofCodePoint (code : Nat) (last : code < 0x110000)
    (kept : isHighSurrogate (code - surrogatePlane) = false ∧
      isLowSurrogate (code - surrogatePlane) = false) :
    codePoint (ofCodePoint code) = code := by
  have toNat_ofNat : ∀ n : Nat, n.isValidChar → (Char.ofNat n).toNat = n := by
    intro n valid
    rw [Char.ofNat, dif_pos valid]
    rfl
  unfold ofCodePoint
  split
  next half =>
    simp only [isHighSurrogate, isLowSurrogate, Bool.or_eq_true, Bool.and_eq_true,
      decide_eq_true_eq] at half
    have valid : (surrogatePlane + code).isValidChar := by
      simp only [Nat.isValidChar, surrogatePlane]
      omega
    have back : surrogatePlane + code - surrogatePlane = code := by omega
    simp [codePoint, surrogate?, toNat_ofNat _ valid, back, isHighSurrogate, isLowSurrogate, half]
  next whole =>
    simp only [isHighSurrogate, isLowSurrogate, Bool.or_eq_true, Bool.and_eq_true,
      decide_eq_true_eq] at whole
    have valid : code.isValidChar := by
      simp only [Nat.isValidChar]
      omega
    simp [codePoint, surrogate?, toNat_ofNat _ valid, kept]

/-- No lone surrogate is among the characters. -/
def Encodable (cs : List Char) : Prop := ∀ c ∈ cs, surrogate? c = none

instance (cs : List Char) : Decidable (Encodable cs) :=
  List.decidableBAll (surrogate? · = none) cs

@[simp] theorem encodable_nil : Encodable [] := List.forall_mem_nil _

@[simp] theorem encodable_cons (c : Char) (cs : List Char) :
    Encodable (c :: cs) ↔ surrogate? c = none ∧ Encodable cs :=
  List.forall_mem_cons

@[simp] theorem encodable_append (cs others : List Char) :
    Encodable (cs ++ others) ↔ Encodable cs ∧ Encodable others :=
  List.forall_mem_append

@[simp] theorem encodable_reverse (cs : List Char) : Encodable cs.reverse ↔ Encodable cs := by
  simp only [Encodable, List.mem_reverse]

theorem surrogate_of_below {c : Char} (below : c.toNat < surrogatePlane) : surrogate? c = none := by
  have outside : ¬surrogatePlane ≤ c.toNat := Nat.not_le.mpr below
  simp [surrogate?, outside]

/-- The digits of a number are no surrogates. -/
@[simp] theorem encodable_toDigits (n : Nat) : Encodable (Nat.toDigits 10 n) := by
  intro c member
  have digit := Nat.isDigit_of_mem_toDigits (by decide) (by decide) member
  simp only [Char.isDigit, Bool.and_eq_true, decide_eq_true_eq] at digit
  exact surrogate_of_below (Nat.lt_of_le_of_lt digit.2 (by decide))

namespace Utf8

theorem loneSurrogates_eq_none (position : Nat) (cs : List Char) :
    loneSurrogates? position cs = none ↔ Encodable cs := by
  induction cs generalizing position with
  | nil => simp [loneSurrogates?]
  | cons c rest ih =>
    rw [loneSurrogates?, encodable_cons]
    cases surrogate? c with
    | some code => simp
    | none => simp [ih]

theorem encodeError_eq_none (s : String) : encodeError? s = none ↔ Encodable s.toList :=
  loneSurrogates_eq_none 0 s.toList

end Utf8

/-- A part of a styling sequence is no surrogate. -/
theorem styling_below {c : Char} (styling : c = stylingStart ∨ c = '[' ∨
    isStylingParameter c = true ∨ c.isAlpha = true) : surrogate? c = none := by
  apply surrogate_of_below
  rcases styling with rfl | rfl | parameter | letter
  · decide
  · decide
  · simp only [isStylingParameter, Bool.or_eq_true, beq_iff_eq] at parameter
    rcases parameter with (digit | rfl) | rfl
    · simp only [Char.isDigit, Bool.and_eq_true, decide_eq_true_eq] at digit
      exact Nat.lt_of_le_of_lt digit.2 (by decide)
    · decide
    · decide
  · delta Char.isAlpha Char.isUpper Char.isLower at letter
    simp only [Bool.or_eq_true, Bool.and_eq_true, decide_eq_true_eq] at letter
    rcases letter with upper | lower
    · exact Nat.lt_of_le_of_lt upper.2 (by decide)
    · exact Nat.lt_of_le_of_lt lower.2 (by decide)

/-- Nothing but styling is dropped, as long as what is held is the start of a sequence. -/
theorem dropStyling_encodable (held cs : List Char) (start : Encodable held) :
    Encodable (dropStyling held cs) ↔ Encodable cs := by
  induction cs generalizing held with
  | nil => simpa [dropStyling] using start
  | cons c rest ih =>
    have letGo : Encodable (held.reverse ++ c :: dropStyling [] rest) ↔ Encodable (c :: rest) := by
      simp [start, ih [] encodable_nil]
    have goOn : surrogate? c = none → (Encodable (dropStyling (c :: held) rest) ↔
        Encodable (c :: rest)) := by
      intro part
      simp [part, ih (c :: held) ((encodable_cons c held).mpr ⟨part, start⟩)]
    unfold dropStyling
    split
    next escape =>
      have part := styling_below (.inl escape)
      simp [start, part, ih [c] (by simp [part])]
    next =>
      split
      next => exact letGo
      next =>
        split
        next bracket => exact goOn (styling_below (.inr (.inl bracket)))
        next => exact letGo
      next =>
        split
        next parameter => exact goOn (styling_below (.inr (.inr (.inl parameter))))
        next =>
          split
          next letter =>
            simp [styling_below (.inr (.inr (.inr letter))), ih [] encodable_nil]
          next => exact letGo

/-- A text without its styling can be encoded exactly if the text can. -/
theorem encodable_plain (s : String) : Encodable (plain s).toList ↔ Encodable s.toList := by
  rw [plain, String.toList_ofList]
  exact dropStyling_encodable [] s.toList encodable_nil

end ElmStyle.Text
