import ElmStyle.Proofs.Elm.Characters

/-!
# Styles as closed code

A scanner of generated code that knows string literals. It stops at a comma, a line break or an
opening bracket, but only outside literals, so that a value can hold any of them. Every style is
closed code: the scanner passes through it without a stop and is outside literals at its end.
-/
namespace ElmStyle.Elm.Code

/-- Where the scanner is: outside literals, in one, or in one right after a backslash. -/
inductive Mode where
  | code | literal | escape
  deriving DecidableEq, Repr

def Mode.next : Mode → Char → Mode
  | .code, c => if c = Text.doubleQuote then .literal else .code
  | .literal, c =>
    if c = '\\' then .escape else if c = Text.doubleQuote then .code else .literal
  | .escape, _ => .literal

/-- A character that no style holds outside its literals. -/
def isStop (c : Char) : Bool := c == ',' || c == '\n' || c == '['

/-- The text up to the first stop outside literals, and the text from it on. -/
def splitAtStop (mode : Mode) : List Char → List Char × List Char
  | [] => ([], [])
  | c :: rest =>
    if mode = .code ∧ isStop c then ([], c :: rest)
    else (c :: (splitAtStop (mode.next c) rest).1, (splitAtStop (mode.next c) rest).2)

/-- The mode at the end of a text, if there is no stop outside literals in it. -/
def scan (mode : Mode) : List Char → Option Mode
  | [] => some mode
  | c :: rest => if mode = .code ∧ isStop c then none else scan (mode.next c) rest

def Closed (cs : List Char) : Prop := scan .code cs = some .code

theorem scan_append (mode : Mode) (front back : List Char) :
    scan mode (front ++ back) = (scan mode front).bind (scan · back) := by
  induction front generalizing mode with
  | nil => rfl
  | cons c rest ih =>
    simp only [List.cons_append, scan]
    split
    · rfl
    · exact ih (mode.next c)

theorem Closed.append {front back : List Char} (first : Closed front) (second : Closed back) :
    Closed (front ++ back) := by
  unfold Closed at *
  rw [scan_append, first, Option.bind_some, second]

/-- The scanner finds the end of a text in whatever follows, provided that it starts with a stop. -/
theorem splitAtStop_append (mode : Mode) (cs rest : List Char) (stops : rest.head?.any isStop)
    (passed : scan mode cs = some .code) : splitAtStop mode (cs ++ rest) = (cs, rest) := by
  induction cs generalizing mode with
  | nil =>
    cases passed
    cases rest with
    | nil => rfl
    | cons c later =>
      have stop : isStop c := by simpa using stops
      simp [splitAtStop, stop]
  | cons c later ih =>
    simp only [scan] at passed
    split at passed
    · cases passed
    next goes =>
      simp only [List.cons_append, splitAtStop, if_neg goes, ih _ passed]

/-- A character of code that opens no literal and stops no scan. -/
def isPlain (c : Char) : Bool := !isStop c && c != Text.doubleQuote

theorem closed_of_plain (cs : List Char) (plain : ∀ c ∈ cs, isPlain c) : Closed cs := by
  induction cs with
  | nil => rfl
  | cons c rest ih =>
    have first := plain c (by simp)
    simp only [isPlain, Bool.and_eq_true, Bool.not_eq_true', bne_iff_ne] at first
    have later := ih (fun x member => plain x (by simp [member]))
    simpa [Closed, scan, Mode.next, first] using later

/-- A class of characters is plain as soon as it leaves out these four. -/
theorem isPlain_of_class (belongs : Char → Bool)
    (outside : belongs ',' = false ∧ belongs '\n' = false ∧ belongs '[' = false ∧
      belongs Text.doubleQuote = false) (c : Char) (member : belongs c) : isPlain c := by
  simp only [isPlain, isStop, Bool.and_eq_true, Bool.not_eq_true', Bool.or_eq_false_iff,
    beq_eq_false_iff_ne, bne_iff_ne]
  refine ⟨⟨⟨?_, ?_⟩, ?_⟩, ?_⟩ <;> rintro rfl <;> simp [outside] at member

theorem isPlain_of_isCamelChar (c : Char) (camel : isCamelChar c) : isPlain c :=
  isPlain_of_class isCamelChar (by decide) c camel

/-- A text that a literal can hold as it is. -/
def Unescaped (cs : List Char) : Prop := Text.doubleQuote ∉ cs ∧ '\\' ∉ cs

theorem scan_unescaped (cs : List Char) (bare : Unescaped cs) :
    scan .literal cs = some .literal := by
  obtain ⟨noQuote, noEscape⟩ := bare
  induction cs with
  | nil => rfl
  | cons c rest ih =>
    simp only [List.mem_cons, not_or] at noQuote noEscape
    have kept : Mode.next .literal c = .literal := by
      simp [Mode.next, Ne.symm noQuote.1, Ne.symm noEscape.1]
    simpa [scan, kept] using ih noQuote.2 noEscape.2

/-- An escaped text never closes the literal that it stands in. -/
theorem scan_escape (cs : List Char) : scan .literal (cs.flatMap escapeChar) = some .literal := by
  induction cs with
  | nil => rfl
  | cons c rest ih =>
    have one : scan .literal (escapeChar c) = some .literal := by
      unfold escapeChar
      split
      · simp [scan, Mode.next]
      next other =>
        simp only [not_or] at other
        simp [scan, Mode.next, other]
    rw [List.flatMap_cons, scan_append, one]
    exact ih

theorem closed_literal (inside : List Char) (held : scan .literal inside = some .literal) :
    Closed (Text.doubleQuote :: inside ++ [Text.doubleQuote]) := by
  have opened : scan .code [Text.doubleQuote] = some .literal := by decide
  have shut : scan .literal [Text.doubleQuote] = some .code := by decide
  unfold Closed
  rw [List.cons_append, ← List.singleton_append, scan_append, opened, Option.bind_some, scan_append,
    held, Option.bind_some, shut]

theorem closed_text (s : String) (plain : s.toList.all isPlain) : Closed s.toList :=
  closed_of_plain s.toList (List.all_eq_true.mp plain)

theorem quoted_closed (inside : String) (held : scan .literal inside.toList = some .literal) :
    Closed ("\"" ++ inside ++ "\"").toList := by
  simpa [Text.doubleQuote] using closed_literal inside.toList held

theorem call_closed (function argument : String) (name : Closed function.toList)
    (operand : Closed argument.toList) : Closed (Argument.call function argument).toList := by
  simp only [Argument.call, String.toList_append]
  have front : Closed ("(".toList ++ cssModule.toList ++ ".".toList) :=
    closed_text "(Css." (by decide)
  exact (((front.append name).append (closed_text " " (by decide))).append
    operand).append (closed_text ")" (by decide))

/-- An argument is closed code. Only a colour brings in a literal, and its token is not escaped. -/
theorem argument_closed (token : String) (a : Argument) (parts : a.PartsHold token)
    (bare : ∀ text, a = .hex text → Unescaped text.toList) : Closed a.expression.toList := by
  have number : ∀ text : String, (∀ c ∈ text.toList, Decimal.isNumberChar c) →
      Closed text.toList := by
    intro text held
    apply closed_of_plain
    intro c member
    exact isPlain_of_class Decimal.isNumberChar (by decide) c (held c member)
  cases a with
  | hex text =>
    have literal := quoted_closed text (scan_unescaped _ (bare text rfl))
    exact call_closed "hex" _ (closed_text _ (by decide)) literal
  | zeroLength => exact call_closed "px" _ (closed_text _ (by decide)) (closed_text "0" (by decide))
  | number text => exact call_closed "num" text (closed_text _ (by decide)) (number text parts)
  | integer text => exact call_closed "int" text (closed_text _ (by decide)) (number text parts)
  | percentage text => exact call_closed "pct" text (closed_text _ (by decide)) (number text parts)
  | length unit text =>
    apply call_closed unit text (closed_of_plain _ _) (number text parts.2)
    intro c member
    exact isPlain_of_class Char.isLower (by decide) c (parts.1 c member)
  | keyword name =>
    simp only [Argument.expression, String.toList_append]
    have front : Closed (cssModule.toList ++ ".".toList) := closed_text "Css." (by decide)
    apply front.append
    apply closed_of_plain
    intro c member
    exact isPlain_of_class isNameChar (by decide) c (mem_valueName _ parts c member)

/-- The style of a declaration can be read back: its property is a CSS name, and the colours of its
typed form need no escape. The value may hold anything. -/
structure Legible (t : ExemptionTable) (d : Css.Declaration) : Prop where
  property : ∀ c ∈ d.property.toList, isKebabChar c
  colours : ∀ text, .hex text ∈ (Style.of t d).arguments → Unescaped text.toList

theorem unescaped_of_kebab (cs : List Char) (kebab : ∀ c ∈ cs, isKebabChar c) : Unescaped cs := by
  constructor
  · intro member
    exact absurd (kebab _ member) (by decide)
  · intro member
    exact absurd (kebab _ member) (by decide)

theorem generic_closed (d : Css.Declaration) (kebab : ∀ c ∈ d.property.toList, isKebabChar c) :
    Closed (genericExpression d).toList := by
  have name := quoted_closed d.property (scan_unescaped _ (unescaped_of_kebab _ kebab))
  have value := quoted_closed (escape d.value) (by simpa [escape] using scan_escape d.value.toList)
  have front : Closed (cssModule ++ ".property ").toList := closed_text _ (by decide)
  have whole := ((front.append name).append (closed_text " " (by decide))).append value
  simpa [genericExpression, String.toList_append] using whole

theorem arguments_closed (codes : List String) (each : ∀ code ∈ codes, Closed code.toList) :
    Closed (codes.flatMap fun code => ' ' :: code.toList) := by
  induction codes with
  | nil => rfl
  | cons code rest ih =>
    rw [List.flatMap_cons]
    have first : Closed ([' '] ++ code.toList) :=
      (closed_text " " (by decide)).append (each code (by simp))
    exact first.append (ih (fun later member => each later (by simp [member])))

theorem spaced_toList (head : String) (codes : List String) :
    (" ".intercalate (head :: codes)).toList =
      head.toList ++ codes.flatMap fun code => ' ' :: code.toList := by
  induction codes generalizing head with
  | nil => simp
  | cons code rest ih =>
    rw [String.intercalate_cons_cons, String.toList_append, ih code]
    simp

/-- The text of a typed style: the function, and each argument after a blank. -/
theorem typed_expression_toList (d : Css.Declaration) (function : String)
    (arguments : List Argument) :
    (Style.expression ⟨d, .typed function arguments⟩).toList =
      "Css.".toList ++ function.toList ++
        (arguments.map Argument.expression).flatMap fun code => ' ' :: code.toList := by
  rw [Style.expression, spaced_toList]
  simp [cssModule]

theorem typed_function_plain (t : ExemptionTable) (d : Css.Declaration) (function : String)
    (arguments : List Argument) (kebab : ∀ c ∈ d.property.toList, isKebabChar c)
    (typed : formOf t d = .typed function arguments) : ∀ c ∈ function.toList, isPlain c := by
  rcases formOf_typed t d function arguments typed with ⟨rfl, -⟩ | ⟨rfl, -, -⟩
  · exact List.all_eq_true.mp (by decide)
  · intro c member
    exact isPlain_of_isCamelChar c (functionName_camel d.property _ kebab c member)

/-- A style that can be read back is closed code, whatever its value holds. -/
theorem style_closed (t : ExemptionTable) (d : Css.Declaration) (legible : Legible t d) :
    Closed (Style.of t d).expression.toList := by
  cases form : formOf t d with
  | generic reason =>
    simpa [Style.of_eq form] using generic_closed d legible.property
  | typed function arguments =>
    have given := Style.arguments_of_typed form
    have each : ∀ code ∈ arguments.map Argument.expression, Closed code.toList := by
      intro code member
      obtain ⟨a, held, rfl⟩ := List.mem_map.mp member
      rw [← given] at held
      obtain ⟨token, -, parts⟩ := mem_arguments_parts t d a held
      apply argument_closed token a parts
      rintro text rfl
      exact legible.colours text held
    have plain := typed_function_plain t d function arguments legible.property form
    have front : Closed ("Css.".toList ++ function.toList) :=
      (closed_text "Css." (by decide)).append (closed_of_plain _ plain)
    rw [Style.of_eq form, typed_expression_toList]
    exact front.append (arguments_closed _ each)

/-- No style is empty, so an empty batch differs from a batch of any styles. -/
theorem style_filled (s : Style) : s.expression.toList ≠ [] := by
  obtain ⟨d, form⟩ := s
  cases form with
  | generic reason => simp [genericExpression, cssModule]
  | typed function arguments => simp [typed_expression_toList]

end ElmStyle.Elm.Code
