import ElmStyle.Proofs.Decimal.NumberLiteral
import ElmStyle.Proofs.Elm.WholeTokens

/-!
# Lengths

A length has a unit of lower-case letters and, as long as its number rounds to a finite one, a
number literal. A number beyond that is not rejected: its text is an infinity, which Elm takes for a
name.
-/
namespace ElmStyle

namespace Decimal

/-- A number from the limit on has the text of an infinity, and only such a number. -/
theorem ofDecimal_text (negative : Bool) (digits : Nat) (exponent : Int) (text : String)
    (written : (Binary64.ofDecimal negative digits exponent).compactText = text) :
    (digits * 10 ^ exponent < Binary64.limit ∧ IsLiteral text.toList ∧ text ≠ "-0") ∨
      (Binary64.limit ≤ digits * 10 ^ exponent ∧ text = Binary64.sign negative ++ "inf" ∧
        ¬IsLiteral text.toList) := by
  subst written
  rcases lt_or_ge ((digits : ℚ) * 10 ^ exponent) Binary64.limit with small | large
  · obtain ⟨units, rounded, short⟩ := Binary64.ofDecimal_eq_finite negative digits exponent small
    rw [rounded]
    exact .inl ⟨small, compactText_literal negative units short⟩
  · rw [Binary64.ofDecimal_eq_infinite negative digits exponent large]
    exact .inr ⟨large, rfl, infinite_not_literal negative⟩

/-- A one and 309 zeros, or more, are beyond the limit. -/
theorem normalize_power_of_ten (n : Nat) (large : 309 ≤ n) :
    normalize (String.ofList ('1' :: List.replicate n '0')) = .ok "inf" := by
  have each : ∀ c ∈ '1' :: List.replicate n '0', c.isDigit := by
    rintro c (_ | ⟨_, member⟩)
    · decide
    · exact isDigit_of_mem_zeros member
  have value : Numeral.digitsValue ('1' :: List.replicate n '0') = 10 ^ n := by
    simpa [Numeral.digitsValue] using Numeral.digitsValue_zeros ['1'] n
  have reached : Binary64.limit ≤ (10 ^ n : Nat) * (10 : ℚ) ^ (0 : Int) := by
    have first : 2 ^ 1024 ≤ 10 ^ 309 := by decide +kernel
    have order : 2 ^ 1024 ≤ 10 ^ n := first.trans (Nat.pow_le_pow_right (by decide) large)
    rw [zpow_zero, mul_one]
    calc Binary64.limit ≤ 2 ^ 1024 := sub_le_self _ (by positivity)
      _ ≤ (10 ^ n : Nat) := by exact_mod_cast order
  have read : Numeral.read? (String.ofList ('1' :: List.replicate n '0')) =
      some (.decimal false (10 ^ n) 0) := by
    rw [Numeral.read_plain _ fun c member => .inl (each c member),
      ← List.nil_append ('1' :: List.replicate n '0'),
      Numeral.bare_figures [] _ (.inl rfl) fun c member => .inl (each c member),
      Numeral.decimal_digits _ _ (List.cons_ne_nil _ _) each, value]
    rfl
  rw [normalize, read]
  simp only [Binary64.ofNumeral, Binary64.ofDecimal_eq_infinite false _ _ reached]
  rfl

end Decimal

namespace Elm.Argument

open Decimal (Binary64 Numeral IsLiteral)

theorem IsRun.numeral {run : List Char} (isRun : IsRun run) {text : String}
    (normalized : Decimal.normalize (String.ofList run) = .ok text) :
    ∃ negative digits exponent,
      Numeral.read? (String.ofList run) = some (.decimal negative digits exponent) ∧
      (Binary64.ofDecimal negative digits exponent).compactText = text := by
  have plain := isRun.chars
  obtain ⟨sign, figures, rfl, signed, -, each⟩ := isRun
  have row : Decimal.Figures figures := by
    intro c member
    simpa [isFigure] using each c member
  unfold Decimal.normalize at normalized
  split at normalized
  next numeral read =>
    have bare := read
    rw [Numeral.read_plain _ plain, Numeral.bare_figures sign figures signed row] at bare
    obtain ⟨digits, exponent, rfl⟩ := Numeral.decimal_eq bare
    exact ⟨_, digits, exponent, read, Except.ok.inj normalized⟩
  next => cases normalized

/-- Such a token is a length all the same. -/
theorem ofToken_power_of_ten (property unit : String) (n : Nat) (large : 309 ≤ n)
    (filled : unit ≠ "") (letters : ∀ c ∈ unit.toList, c.isLower) :
    ofToken property (String.ofList ('1' :: List.replicate n '0') ++ unit) =
      .ok (.length unit "inf") := by
  have isRun : IsRun (String.ofList ('1' :: List.replicate n '0')).toList := by
    refine ⟨[], '1' :: List.replicate n '0', String.toList_ofList, .inl rfl,
      List.cons_ne_nil _ _, ?_⟩
    rintro c (_ | ⟨_, member⟩)
    · decide
    · simp [isFigure, Decimal.isDigit_of_mem_zeros member]
  exact (ofToken_of_spells (.length _ unit "inf" isRun filled letters rfl
    (Decimal.normalize_power_of_ten n large))).1

/-- A length has a unit of letters. Its number is a literal if the number of the token rounds to a
finite one, and from the limit on the name of an infinity. -/
theorem length_number_below_limit (property token unit text : String)
    (success : ofToken property token = .ok (.length unit text)) :
    (unit ≠ "" ∧ ∀ c ∈ unit.toList, c.isLower) ∧
    (length unit text).expression = "(Css." ++ unit ++ " " ++ text ++ ")" ∧
    ∃ run negative digits exponent, FirstRun token.toList run unit.toList ∧
      Numeral.read? (String.ofList run) = some (.decimal negative digits exponent) ∧
      ((digits * 10 ^ exponent < Binary64.limit ∧ IsLiteral text.toList ∧ text ≠ "-0") ∨
        (Binary64.limit ≤ digits * 10 ^ exponent ∧ text = Binary64.sign negative ++ "inf" ∧
          ¬IsLiteral text.toList)) := by
  obtain ⟨run, first, filled, normalized⟩ :=
    takes_of_shape property token _ (ofToken_success property token _ success)
  obtain ⟨negative, digits, exponent, read, written⟩ := first.isRun.1.numeral normalized
  refine ⟨⟨by simpa using filled, first.isRun.2⟩, rfl, run, negative, digits, exponent, first, read,
    Decimal.ofDecimal_text negative digits exponent text written⟩

/-- A literal with a sign and an exponent. -/
theorem length_number_below_limit_tiny :
    ofToken "margin" "-.00001em" = .ok (.length "em" "-1e-05") ∧
    (length "em" "-1e-05").expression = "(Css.em -1e-05)" ∧ IsLiteral "-1e-05".toList := by
  have success : ofToken "margin" "-.00001em" = .ok (.length "em" "-1e-05") := by decide +kernel
  obtain ⟨-, written, run, negative, digits, exponent, -, -, below | beyond⟩ :=
    length_number_below_limit "margin" "-.00001em" "em" "-1e-05" success
  · exact ⟨success, written, below.2.1⟩
  · have other : ∀ negative, "-1e-05" ≠ Binary64.sign negative ++ "inf" := by decide
    exact absurd beyond.2.1 (other negative)

/-- A one with 309 zeros and a unit gives the call `Css.px inf`. -/
theorem length_number_infinite :
    ofToken "width" (String.ofList ('1' :: List.replicate 309 '0') ++ "px") =
      .ok (.length "px" "inf") ∧
    (length "px" "inf").expression = "(Css.px inf)" ∧ ¬IsLiteral "inf".toList := by
  have letters : ∀ c ∈ "px".toList, c.isLower := List.all_eq_true.mp (by decide)
  exact ⟨ofToken_power_of_ten "width" "px" 309 (by decide) (by decide) letters, by decide,
    Decimal.infinite_not_literal false⟩

end Elm.Argument

end ElmStyle
