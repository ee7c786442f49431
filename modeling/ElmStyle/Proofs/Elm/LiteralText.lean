import ElmStyle.Proofs.Elm.Literal
import Mathlib.Data.List.Chain
import Mathlib.Data.List.Count

/-!
# Texts in string literals

What the string literals of a style denote. A value is escaped before it is written: its literal
denotes it whatever it holds, and no quote in it can be taken for the start of the value, so the
generic form loses nothing. The property before it and the token of a colour are written as they
are, and their literals denote them exactly if there is nothing to escape. A line break is never
escaped.
-/
namespace ElmStyle.Elm.Code

open Css (Declaration)

/-! ## Literals -/

/-- The text of a literal and the text after it, read from behind the opening quote: a backslash
yields the next character, and an unescaped quote ends the literal. -/
def readLiteral : List Char → Option (List Char × List Char)
  | [] => none
  | ['\\'] => none
  | '\\' :: c :: rest => (readLiteral rest).map fun (text, after) => (c :: text, after)
  | c :: rest =>
    if c = Text.doubleQuote then some ([], rest)
    else (readLiteral rest).map fun (text, after) => (c :: text, after)

/-- What stands between the quotes of a literal, and the text that it denotes. A backslash only
starts the escape of a backslash or a quote, and there is no quote but an escaped one, so that the
quote after it is the one that closes the literal. -/
inductive Denotes : List Char → List Char → Prop
  | nil : Denotes [] []
  | plain {written text : List Char} (c : Char) (bare : c ≠ '\\' ∧ c ≠ Text.doubleQuote)
    (rest : Denotes written text) : Denotes (c :: written) (c :: text)
  | escape {written text : List Char} (c : Char) (special : c = '\\' ∨ c = Text.doubleQuote)
    (rest : Denotes written text) : Denotes ('\\' :: c :: written) (c :: text)

theorem readLiteral_plain (c : Char) (rest : List Char)
    (bare : c ≠ '\\' ∧ c ≠ Text.doubleQuote) :
    readLiteral (c :: rest) =
      (readLiteral rest).map fun (text, after) => (c :: text, after) := by
  rw [readLiteral.eq_4 c rest (fun same => absurd same bare.1) (fun _ _ same => absurd same bare.1),
    if_neg bare.2]

/-- A literal is read up to the quote that closes it, whatever follows. -/
theorem Denotes.read {written text : List Char} (denotes : Denotes written text)
    (rest : List Char) :
    readLiteral (written ++ Text.doubleQuote :: rest) = some (text, rest) := by
  induction denotes with
  | nil => simp [readLiteral, Text.doubleQuote]
  | plain c bare _ ih => rw [List.cons_append, readLiteral_plain _ _ bare, ih, Option.map_some]
  | escape c special _ ih =>
    rw [List.cons_append, List.cons_append, readLiteral, ih, Option.map_some]

theorem Denotes.length_le {written text : List Char} (denotes : Denotes written text) :
    text.length ≤ written.length := by
  induction denotes with
  | nil => exact Nat.le_refl _
  | plain c bare _ ih =>
    rw [List.length_cons, List.length_cons]
    omega
  | escape c special _ ih =>
    rw [List.length_cons, List.length_cons, List.length_cons]
    omega

/-- Each quote of the text is written once. -/
theorem Denotes.count_quote {written text : List Char} (denotes : Denotes written text) :
    written.count Text.doubleQuote = text.count Text.doubleQuote := by
  have other : '\\' ≠ Text.doubleQuote := by decide
  induction denotes with
  | nil => rfl
  | plain c bare _ ih => rw [List.count_cons, List.count_cons, ih]
  | escape c special _ ih =>
    rw [List.count_cons_of_ne other, List.count_cons, List.count_cons, ih]

/-- Each backslash of the text is written twice, and each quote brings in one more. -/
theorem Denotes.count_backslash {written text : List Char} (denotes : Denotes written text) :
    written.count '\\' = 2 * text.count '\\' + text.count Text.doubleQuote := by
  have other : '\\' ≠ Text.doubleQuote := by decide
  induction denotes with
  | nil => rfl
  | plain c bare _ ih =>
    rw [List.count_cons_of_ne bare.1, List.count_cons_of_ne bare.1, List.count_cons_of_ne bare.2,
      ih]
  | escape c special _ ih =>
    rcases special with rfl | rfl
    · rw [List.count_cons_self, List.count_cons_self, List.count_cons_self,
        List.count_cons_of_ne other, ih]
      omega
    · rw [List.count_cons_self, List.count_cons_of_ne other.symm, List.count_cons_of_ne other.symm,
        List.count_cons_self, ih]
      omega

/-- A literal denotes what is written in it exactly if nothing in it is to be escaped. -/
theorem denotes_self_iff (cs : List Char) : Denotes cs cs ↔ Unescaped cs := by
  constructor
  · intro denotes
    have doubled := denotes.count_backslash
    have noQuote : cs.count Text.doubleQuote = 0 := by omega
    have noEscape : cs.count '\\' = 0 := by omega
    exact ⟨List.count_eq_zero.mp noQuote, List.count_eq_zero.mp noEscape⟩
  · intro bare
    obtain ⟨noQuote, noEscape⟩ := bare
    induction cs with
    | nil => exact .nil
    | cons c rest ih =>
      simp only [List.mem_cons, not_or] at noQuote noEscape
      exact .plain c ⟨Ne.symm noEscape.1, Ne.symm noQuote.1⟩ (ih noQuote.2 noEscape.2)

/-- A text that stands unescaped before a quote is denoted by no other literal that starts there:
a longer one would have one quote too many. -/
theorem Denotes.eq_of_written {written text rest after : List Char}
    (denotes : Denotes written text)
    (same : text ++ Text.doubleQuote :: rest = written ++ Text.doubleQuote :: after) :
    written = text := by
  rcases List.append_eq_append_iff.mp same with ⟨more, longer, opens⟩ | ⟨more, longer, -⟩
  · cases more with
    | nil => rw [longer, List.append_nil]
    | cons c more =>
      obtain ⟨rfl, -⟩ := List.cons.inj opens
      have quotes := denotes.count_quote
      rw [longer, List.count_append, List.count_cons_self] at quotes
      omega
  · have shorter := denotes.length_le
    have none : more = [] := by
      apply List.length_eq_zero_iff.mp
      rw [longer, List.length_append] at shorter
      omega
    rw [longer, none, List.append_nil]

/-! ## Escaped texts -/

theorem escape_toList (s : String) : (escape s).toList = s.toList.flatMap escapeChar :=
  String.toList_ofList

theorem escape_denotes (text : List Char) : Denotes (text.flatMap escapeChar) text := by
  induction text with
  | nil => exact .nil
  | cons c rest ih =>
    rw [List.flatMap_cons, escapeChar]
    split
    next special => exact .escape c special ih
    next bare => exact .plain c (not_or.mp bare) ih

/-- A backslash before every `mark`. -/
def guard (mark : Char) (text : List Char) : List Char :=
  text.flatMap fun c => if c = mark then ['\\', c] else [c]

/-- Escaping doubles the backslashes and then guards the quotes. In the other order the backslashes
that guard the quotes would be doubled as well. -/
theorem escape_eq_guard (text : List Char) :
    text.flatMap escapeChar = guard Text.doubleQuote (guard '\\' text) := by
  rw [guard, guard, List.flatMap_assoc]
  congr 1
  funext c
  by_cases backslash : c = '\\'
  · subst backslash
    decide
  · simp [escapeChar, backslash]

/-- In an escaped text a quote stands right after a backslash only. -/
def Guards (before c : Char) : Prop := c = Text.doubleQuote → before = '\\'

/-- Whatever stands before an escaped text, each quote of the text is guarded. -/
theorem escape_guarded (before : Char) (text : List Char) :
    (before :: text.flatMap escapeChar).IsChain Guards := by
  induction text generalizing before with
  | nil => exact .singleton before
  | cons c rest ih =>
    rw [List.flatMap_cons, escapeChar]
    split
    next special =>
      refine .cons_cons ?_ (.cons_cons (fun _ => rfl) (ih c))
      exact fun quote => absurd quote (by decide)
    next bare =>
      exact .cons_cons (fun quote => absurd quote (not_or.mp bare).2) (ih c)

/-- What stands between the property and the value of a generic form. -/
def valueOpening : List Char := [Text.doubleQuote, ' ', Text.doubleQuote]

/-- The opening of a value does not occur a second time, neither in the escaped value nor across its
start: its second quote would not be guarded. -/
theorem valueOpening_last (front value rest : List Char)
    (same : valueOpening ++ value.flatMap escapeChar = front ++ (valueOpening ++ rest)) :
    front = [] := by
  match front with
  | [] => rfl
  | [c] =>
    have blank : ' ' = Text.doubleQuote := (List.cons.inj (List.cons.inj same).2).1
    exact absurd blank (by decide)
  | c :: d :: front =>
    have inside : Text.doubleQuote :: value.flatMap escapeChar =
        (front ++ [Text.doubleQuote]) ++ ' ' :: Text.doubleQuote :: rest := by
      rw [List.append_assoc]
      exact (List.cons.inj (List.cons.inj same).2).2
    have chain := escape_guarded Text.doubleQuote value
    rw [inside, List.isChain_append_cons_cons] at chain
    exact absurd (chain.2.1 rfl) (by decide)

theorem flatMap_escape_injective (one two : List Char)
    (same : one.flatMap escapeChar = two.flatMap escapeChar) : one = two := by
  have first := (escape_denotes one).read []
  rw [same, (escape_denotes two).read []] at first
  cases first
  rfl

/-- A property, the opening of the value and the escaped value can be told apart in their text,
although the property is not escaped. -/
theorem opening_unique (one two value other : List Char)
    (same : one ++ (valueOpening ++ value.flatMap escapeChar) =
      two ++ (valueOpening ++ other.flatMap escapeChar)) : one = two ∧ value = other := by
  have properties : one = two := by
    rcases List.append_eq_append_iff.mp same with ⟨more, rfl, opens⟩ | ⟨more, rfl, opens⟩
    · rw [valueOpening_last more value _ opens, List.append_nil]
    · rw [valueOpening_last more other _ opens, List.append_nil]
  subst properties
  have values := List.append_cancel_left (List.append_cancel_left same)
  exact ⟨rfl, flatMap_escape_injective value other values⟩

/-- The text of a generic form: what is not escaped, and the escaped value up to the last quote. -/
theorem generic_toList (d : Declaration) :
    (genericExpression d).toList =
      "Css.property \"".toList ++ ((d.property.toList ++
        (valueOpening ++ d.value.toList.flatMap escapeChar)) ++ [Text.doubleQuote]) := by
  simp [genericExpression, cssModule, escape, valueOpening, Text.doubleQuote]

/-- The generic form loses nothing. Two declarations with the same generic form are the same,
whatever their properties and values hold; and the literal of a value, whose backslashes are doubled
before its quotes are guarded, is read back as the value from whatever follows it. -/
theorem genericExpression_lossless (a b : Declaration) (value : String) (rest : List Char) :
    (genericExpression a = genericExpression b ↔ a.property = b.property ∧ a.value = b.value) ∧
      (escape value).toList = guard Text.doubleQuote (guard '\\' value.toList) ∧
      readLiteral ((escape value).toList ++ Text.doubleQuote :: rest) =
        some (value.toList, rest) := by
  refine ⟨⟨?_, ?_⟩, ?_, ?_⟩
  · intro same
    have texts := congrArg String.toList same
    rw [generic_toList, generic_toList] at texts
    have inner := (List.append_left_inj _).mp (List.append_cancel_left texts)
    obtain ⟨properties, values⟩ := opening_unique _ _ _ _ inner
    exact ⟨String.toList_injective properties, String.toList_injective values⟩
  · rintro ⟨properties, values⟩
    rw [genericExpression, genericExpression, properties, values]
  · rw [escape_toList, escape_eq_guard]
  · rw [escape_toList]
    exact (escape_denotes value.toList).read rest

/-- The text between two literals in a property, and the same text in a value. -/
example : genericExpression (.mk "a\" \"b" "c") ≠ genericExpression (.mk "a" "b\" \"c") := by decide

/-! ## The literals of a style -/

/-- A character that ends a line of code. -/
def isLineBreak (c : Char) : Bool := c == '\n' || c == '\r'

def SingleLine (cs : List Char) : Prop := ∀ c ∈ cs, isLineBreak c = false

/-- A literal that stands on one line and denotes a text. -/
structure IsLiteral (written text : List Char) : Prop where
  singleLine : SingleLine written
  denotes : Denotes written text

/-- The code of a generic form, with a literal for the property and one for the value. -/
def WritesGeneric (code property value : String) : Prop :=
  ∃ name content : String, code = "Css.property \"" ++ name ++ "\" \"" ++ content ++ "\"" ∧
    IsLiteral name.toList property.toList ∧ IsLiteral content.toList value.toList

/-- The code of a colour, with a literal for its token. -/
def WritesColour (code token : String) : Prop :=
  ∃ content : String, code = "(Css.hex \"" ++ content ++ "\")" ∧
    IsLiteral content.toList token.toList

/-- Each literal of a style denotes what it is written for. -/
@[mk_iff] structure LiteralsRight (s : Style) : Prop where
  generic : ∀ reason, s.form = .generic reason →
    WritesGeneric s.expression s.declaration.property s.declaration.value
  colours : ∀ token, .hex token ∈ s.arguments →
    WritesColour (Argument.hex token).expression token

theorem isLiteral_self_iff (cs : List Char) : IsLiteral cs cs ↔ Unescaped cs ∧ SingleLine cs := by
  rw [← denotes_self_iff]
  exact ⟨fun literal => ⟨literal.denotes, literal.singleLine⟩, fun both => ⟨both.2, both.1⟩⟩

/-- Escaping neither adds a line break nor takes one away. -/
theorem singleLine_escape (text : List Char) :
    SingleLine (text.flatMap escapeChar) ↔ SingleLine text := by
  constructor
  · intro single c member
    apply single c
    refine List.mem_flatMap.mpr ⟨c, member, ?_⟩
    unfold escapeChar
    split <;> simp
  · intro single c member
    obtain ⟨x, held, written⟩ := List.mem_flatMap.mp member
    have either : c = '\\' ∨ c = x := by
      unfold escapeChar at written
      split at written
      · simpa using written
      · exact .inr (List.mem_singleton.mp written)
    rcases either with rfl | rfl
    · decide
    · exact single c held

/-- The property decides alone whether its literal is right, and so does the value up to its line
breaks. -/
theorem writesGeneric_iff (d : Declaration) :
    WritesGeneric (genericExpression d) d.property d.value ↔
      Unescaped d.property.toList ∧ SingleLine d.property.toList ∧ SingleLine d.value.toList := by
  constructor
  · rintro ⟨name, content, code, nameLiteral, contentLiteral⟩
    have texts : "Css.property \"".toList ++ ((d.property.toList ++
          (valueOpening ++ d.value.toList.flatMap escapeChar)) ++ [Text.doubleQuote]) =
        "Css.property \"".toList ++ ((name.toList ++ (valueOpening ++ content.toList)) ++
          [Text.doubleQuote]) := by
      rw [← generic_toList, code]
      simp [valueOpening, Text.doubleQuote]
    have inner := (List.append_left_inj _).mp (List.append_cancel_left texts)
    have written : name.toList = d.property.toList := nameLiteral.denotes.eq_of_written inner
    rw [written] at nameLiteral inner
    have content : d.value.toList.flatMap escapeChar = content.toList :=
      List.append_cancel_left (List.append_cancel_left inner)
    obtain ⟨bare, single⟩ := (isLiteral_self_iff _).mp nameLiteral
    refine ⟨bare, single, (singleLine_escape _).mp ?_⟩
    rw [content]
    exact contentLiteral.singleLine
  · rintro ⟨bare, single, valueSingle⟩
    refine ⟨d.property, escape d.value, rfl, (isLiteral_self_iff _).mpr ⟨bare, single⟩, ?_, ?_⟩
    · rw [escape_toList]
      exact (singleLine_escape _).mpr valueSingle
    · rw [escape_toList]
      exact escape_denotes _

theorem colour_expression (token : String) :
    (Argument.hex token).expression = "(Css.hex \"" ++ token ++ "\")" := by
  apply String.toList_injective
  simp [Argument.expression, Argument.call, Argument.name, cssModule]

theorem writesColour_iff (token : String) :
    WritesColour (Argument.hex token).expression token ↔
      Unescaped token.toList ∧ SingleLine token.toList := by
  rw [← isLiteral_self_iff]
  constructor
  · rintro ⟨content, code, literal⟩
    rw [colour_expression] at code
    have same : token = content := by
      apply String.toList_injective
      simpa using congrArg String.toList code
    rwa [← same] at literal
  · intro literal
    exact ⟨token, colour_expression token, literal⟩

/-- The token of a colour is a word of the value, and so it stands on one line. -/
theorem colour_token (t : ExemptionTable) (d : Declaration) (token : String)
    (member : .hex token ∈ (Style.of t d).arguments) :
    token ∈ d.tokens ∧ SingleLine token.toList := by
  obtain ⟨word, held, parts⟩ := mem_arguments_parts t d _ member
  have same : token = word := parts
  subst same
  refine ⟨held, ?_⟩
  intro c inside
  have solid := (Text.mem_words d.value token held).2 c inside
  simp only [isLineBreak, Bool.or_eq_false_iff, beq_eq_false_iff_ne]
  constructor
  · rintro rfl
    exact absurd solid (by decide)
  · rintro rfl
    exact absurd solid (by decide)

theorem literalsRight_iff_bare (t : ExemptionTable) (d : Declaration) :
    LiteralsRight (Style.of t d) ↔
      (∀ reason, formOf t d = .generic reason → Unescaped d.property.toList ∧
        SingleLine d.property.toList ∧ SingleLine d.value.toList) ∧
      ∀ token, .hex token ∈ (Style.of t d).arguments → Unescaped token.toList := by
  rw [literalsRight_iff]
  refine and_congr (forall₂_congr fun reason form => ?_) (forall₂_congr fun token member => ?_)
  · have generic : formOf t d = .generic reason := form
    have code : (Style.of t d).expression = genericExpression d := by
      rw [Style.of_eq generic, Style.expression_generic]
    rw [code]
    exact writesGeneric_iff d
  · rw [writesColour_iff]
    exact and_iff_left (colour_token t d token member).2

/-- The literals of a style are right exactly if its unescaped texts, a property in the generic form
and the tokens of colours in the typed one, hold no quote and no backslash, and there is no line
break in the property and the value of a generic form. The literal of a value denotes it in any
case, and that of a colour never has a line break. -/
theorem literals_of_style (t : ExemptionTable) (d : Declaration) :
    (LiteralsRight (Style.of t d) ↔
      (∀ reason, formOf t d = .generic reason → Unescaped d.property.toList ∧
        SingleLine d.property.toList ∧ SingleLine d.value.toList) ∧
      ∀ token, .hex token ∈ (Style.of t d).arguments → Unescaped token.toList) ∧
    (∀ reason, formOf t d = .generic reason →
      ∃ content : String,
        (Style.of t d).expression =
          "Css.property \"" ++ d.property ++ "\" \"" ++ content ++ "\"" ∧
        Denotes content.toList d.value.toList ∧
        (SingleLine content.toList ↔ SingleLine d.value.toList)) ∧
    ∀ token, .hex token ∈ (Style.of t d).arguments →
      (Argument.hex token).expression = "(Css.hex \"" ++ token ++ "\")" ∧
        token ∈ d.tokens ∧ SingleLine token.toList := by
  refine ⟨literalsRight_iff_bare t d, fun reason form => ⟨escape d.value, ?_, ?_, ?_⟩, ?_⟩
  · rw [Style.of_eq form]
    rfl
  · rw [escape_toList]
    exact escape_denotes _
  · rw [escape_toList]
    exact singleLine_escape _
  · intro token member
    exact ⟨colour_expression token, colour_token t d token member⟩

/-- Quotes and backslashes in a value, and a colour. -/
theorem literals_of_style_quoted :
    (formOf .stock (.mk "--font" "\"a\\b\"") = .generic .customProperty ∧
      LiteralsRight (Style.of .stock (.mk "--font" "\"a\\b\""))) ∧
    formOf .stock (.mk "color" "#fff") = .typed "color" [.hex "#fff"] ∧
      LiteralsRight (Style.of .stock (.mk "color" "#fff")) := by
  have generic : formOf .stock (.mk "--font" "\"a\\b\"") = .generic .customProperty := by decide
  have typed : formOf .stock (.mk "color" "#fff") = .typed "color" [.hex "#fff"] := by
    decide +kernel
  have single : ∀ text : String, text.toList.all (!isLineBreak ·) → SingleLine text.toList := by
    intro text all c member
    simpa using List.all_eq_true.mp all c member
  refine ⟨⟨generic, (literals_of_style .stock _).1.mpr ⟨fun reason form => ?_, ?_⟩⟩, typed,
    (literals_of_style .stock _).1.mpr ⟨fun reason form => ?_, ?_⟩⟩
  · exact ⟨⟨by decide, by decide⟩, single "--font" (by decide), single "\"a\\b\"" (by decide)⟩
  · intro token member
    simp [Style.of_eq generic] at member
  · rw [typed] at form
    cases form
  · intro token member
    rw [Style.arguments_of_typed typed, List.mem_singleton] at member
    cases member
    exact ⟨by decide, by decide⟩

/-- A quote in the token of a colour, a quote in a property and a line break in a value. -/
theorem literals_wrong :
    (Style.of .stock (.mk "fill" "url(\"#a\")")).expression = "Css.fill (Css.hex \"url(\"#a\")\")" ∧
    ¬LiteralsRight (Style.of .stock (.mk "fill" "url(\"#a\")")) ∧
    ¬LiteralsRight (Style.of .stock (.mk "--a\"b" "x")) ∧
    ¬LiteralsRight (Style.of .stock (.mk "--a" "x\ny")) := by
  refine ⟨by decide +kernel, ?_, ?_, ?_⟩
  · rw [literalsRight_iff_bare]
    rintro ⟨-, colours⟩
    exact (colours "url(\"#a\")" (by decide +kernel)).1 (by decide)
  · rw [literalsRight_iff_bare]
    rintro ⟨generic, -⟩
    exact (generic .customProperty (by decide)).1.1 (by decide)
  · rw [literalsRight_iff_bare]
    rintro ⟨generic, -⟩
    exact absurd ((generic .customProperty (by decide)).2.2 '\n' (by decide)) (by decide)

end ElmStyle.Elm.Code
