import ElmStyle.Command.Invocation
import ElmStyle.Elm.Style
import ElmStyle.Proofs.Document.Loading

/-!
# Blanks inside of a value

The constant for one declaration and the exemptions look at a value as it is written, the arguments
only at its words. For values without blanks around them, as documents and command lines give them,
the two views agree: how the words are set apart does not change the style.
-/
namespace ElmStyle

open Css (Declaration ClassEntry)

/-! ## Where values come from -/

/-- The values of a document have no blanks around them. -/
theorem Document.ofText_stripped (options : Options) (source : String) (entries : List ClassEntry)
    (success : ofText options source = .ok entries) (entry : ClassEntry) (member : entry ∈ entries)
    (d : Declaration) (declared : d ∈ entry.declarations) : Text.strip d.value = d.value := by
  obtain ⟨value, -, success⟩ := bind_success success
  obtain ⟨item, loads⟩ := loadsAs_of_mem options value entries success entry member
  exact (loads.clean d declared).2.2

/-- Nor has the value that is given to be converted. -/
theorem Command.readConvert_stripped (given : Given) (d : Declaration)
    (success : readConvert given = .ok (.convert d)) : Text.strip d.value = d.value := by
  unfold readConvert at success
  split at success
  · cases success
  · cases success
  next first second rest _ =>
    obtain ⟨_, -, success⟩ := bind_success success
    split at success
    · cases success
    · cases success
      exact Text.strip_strip second

namespace Elm

/-! ## What a style sees of a value -/

/-- The constant is for the only stripped value with that word. -/
theorem eq_flexDisplay_iff (d : Declaration) (stripped : Text.strip d.value = d.value) :
    d = flexDisplay ↔ d.property = "display" ∧ d.tokens = ["flex"] := by
  rw [Declaration.ext_iff]
  refine and_congr_right fun _ => ⟨?_, Text.eq_of_words_eq_singleton d.value "flex" stripped⟩
  intro spelled
  rw [Declaration.tokens, spelled]
  decide

/-- Two stripped values with the same words have the same form, unless one of them is exempt. -/
theorem formOf_eq_of_words (t : ExemptionTable) (v w : Declaration)
    (property : v.property = w.property) (vStripped : Text.strip v.value = v.value)
    (wStripped : Text.strip w.value = w.value) (same : v.tokens = w.tokens)
    (vRegular : t.isExempt v.property v.value = false)
    (wRegular : t.isExempt w.property w.value = false) : formOf t v = formOf t w := by
  have constant : v = flexDisplay ↔ w = flexDisplay := by
    rw [eq_flexDisplay_iff v vStripped, eq_flexDisplay_iff w wStripped, property, same]
  have sameArguments : arguments v = arguments w := by
    simp only [arguments, property, same]
  have sameKind : v.isCustom = w.isCustom := by
    simp only [Declaration.isCustom, property]
  simp only [formOf, sameKind, vRegular, wRegular, same, sameArguments]
  rw [property]
  by_cases flex : w = flexDisplay
  · rw [if_pos flex, if_pos (constant.mpr flex)]
  · rw [if_neg flex, if_neg (mt constant.mp flex)]

/-- How the words of a value are set apart does not change the style: function, arguments and
fallback are the same, and so is the expression if it is typed. -/
theorem style_of_words (t : ExemptionTable) (property v w : String) (filled : property ≠ "")
    (vStripped : Text.strip v = v) (wStripped : Text.strip w = w)
    (same : Text.words v = Text.words w) (vRegular : t.isExempt property v = false)
    (wRegular : t.isExempt property w = false) :
    let first := Style.of t ⟨property, v, filled⟩
    let second := Style.of t ⟨property, w, filled⟩
    first.function? = second.function? ∧ first.arguments = second.arguments ∧
      first.fallback? = second.fallback? ∧
      (first.fallback? = none → first.expression = second.expression) := by
  intro first second
  have forms : first.form = second.form :=
    formOf_eq_of_words t ⟨property, v, filled⟩ ⟨property, w, filled⟩ rfl vStripped wStripped same
      vRegular wRegular
  refine ⟨by rw [Style.function?, forms, Style.function?],
    by rw [Style.arguments, forms, Style.arguments],
    by rw [Style.fallback?, forms, Style.fallback?], ?_⟩
  intro typed
  unfold Style.fallback? at typed
  unfold Style.expression
  rw [← forms]
  cases form : first.form with
  | typed function arguments => rfl
  | generic reason => simp [form] at typed

/-- A tab and a wide space between the words of a typed value. -/
theorem style_of_words_tab :
    let v := "0 auto"
    let w := "0\t\u3000auto"
    Text.strip v = v ∧ Text.strip w = w ∧ Text.words v = Text.words w ∧
    ExemptionTable.stock.isExempt "margin" v = false ∧
    ExemptionTable.stock.isExempt "margin" w = false ∧
    (Style.of .stock (.mk "margin" v)).arguments = (Style.of .stock (.mk "margin" w)).arguments ∧
    (Style.of .stock (.mk "margin" v)).fallback? = none ∧
    (Style.of .stock (.mk "margin" w)).expression = "Css.margin2 (Css.px 0) Css.auto" := by
  intro v w
  have vStripped : Text.strip v = v := by decide
  have wStripped : Text.strip w = w := by decide
  have same : Text.words v = Text.words w := by decide
  have vRegular : ExemptionTable.stock.isExempt "margin" v = false := by decide +kernel
  have wRegular : ExemptionTable.stock.isExempt "margin" w = false := by decide +kernel
  have typed : (Style.of .stock (.mk "margin" v)).fallback? = none := by decide +kernel
  have written :
      (Style.of .stock (.mk "margin" v)).expression = "Css.margin2 (Css.px 0) Css.auto" := by
    decide +kernel
  obtain ⟨-, arguments, -, expression⟩ :=
    style_of_words .stock "margin" v w (by decide) vStripped wStripped same vRegular wRegular
  exact ⟨vStripped, wStripped, same, vRegular, wRegular, arguments, typed,
    (expression typed).symm.trans written⟩

end Elm

end ElmStyle
