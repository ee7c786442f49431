import ElmStyle.Document
import ElmStyle.Proofs.Success
import ElmStyle.Proofs.Text.Words

/-!
# Loading class by class

A list of classes is loaded as each of its classes is by itself. If one cannot be loaded, the error
is that of the first such class, at its own place, and inside of the class at the first declaration
that is wrong. What is loaded can be formed: nothing stops for an empty name or property.
-/
namespace ElmStyle

open Css (Declaration ClassEntry)

namespace Css.Selector

/-- A state in a selector has a name. -/
theorem splitState_filled (raw rest state : List Char)
    (found : splitState raw = (rest, some state)) : state ≠ [] := by
  simp only [splitState] at found
  split at found
  next first others before heads _ =>
    intro empty
    split at found
    · split at found
      · cases found
        simp [heads] at empty
      · cases found
    · cases found
  · cases found

theorem styled_pseudo (selector : String) : (styled selector).pseudo ≠ some "" := by
  unfold styled
  generalize found : splitState (target (compounds selector.toList)) = parts
  obtain ⟨name, state?⟩ := parts
  intro empty
  obtain ⟨state, rfl, blank⟩ := Option.map_eq_some_iff.mp empty
  exact splitState_filled _ name state found (by simpa using blank)

end Css.Selector

namespace Elm

theorem withLead_filled (lead : String) (cs : List Char) (given : lead.toList ≠ []) :
    withLead lead cs ≠ [] := by
  unfold withLead
  split
  next lower =>
    rintro rfl
    simp at lower
  · simp [given]

/-- A definition has a name whatever the class is called. -/
theorem definitionName_filled (className affix : String) (style : NameStyle) :
    definitionName className affix style ≠ "" := by
  intro empty
  have chars := congrArg String.toList empty
  cases style with
  | snake =>
    simp only [definitionName, String.toList_ofList] at chars
    exact withLead_filled "c_" _ (by decide) chars
  | camel =>
    simp only [definitionName, String.toList_ofList] at chars
    exact withLead_filled "c" _ (by decide) chars

theorem NameStyle.ofName_name (style : NameStyle) : NameStyle.ofName style.name = .ok style := by
  cases style <;> rfl

end Elm

namespace Document

/-- The item at the index is the first one that is bad. -/
structure FirstAt {α : Type} (bad : α → Prop) (items : List α) (index : Nat) (item : α) : Prop where
  found : items[index]? = some item
  isBad : bad item
  before : ∀ earlier other, earlier < index → items[earlier]? = some other → ¬ bad other

theorem FirstAt.cons {α : Type} {bad : α → Prop} {items : List α} {index : Nat} {item : α}
    (first : FirstAt bad items index item) (head : α) (good : ¬ bad head) :
    FirstAt bad (head :: items) (index + 1) item where
  found := by simpa using first.found
  isBad := first.isBad
  before := by
    intro earlier other below held
    cases earlier with
    | zero =>
      simp only [List.getElem?_cons_zero, Option.some.injEq] at held
      exact held ▸ good
    | succ earlier => exact first.before earlier other (by omega) (by simpa using held)

section Numbered

variable {α β ε δ : Type} (read : α → Except ε β) (locate : Nat → ε → δ)

/-- All items are read, in their order, or the fault is that of the first one that cannot be. -/
theorem readNumbered_cases (start : Nat) (items : List α) :
    (∃ results, readNumbered read locate start items = .ok results ∧
      List.Forall₂ (fun item result => read item = .ok result) items results) ∨
    ∃ index item fault,
      readNumbered read locate start items = .error (locate (start + index) fault) ∧
      read item = .error fault ∧
      FirstAt (fun item => ∀ result, read item ≠ .ok result) items index item := by
  induction items generalizing start with
  | nil => exact .inl ⟨[], rfl, .nil⟩
  | cons item rest ih =>
    cases outcome : read item with
    | error fault =>
      refine .inr ⟨0, item, fault, ?_, outcome, ?_⟩
      · simp [readNumbered, outcome, Except.mapError, bind, Except.bind]
      · refine ⟨rfl, by simp [outcome], ?_⟩
        intro earlier _ below
        exact absurd below (Nat.not_lt_zero earlier)
    | ok result =>
      have step : readNumbered read locate start (item :: rest) =
          (readNumbered read locate (start + 1) rest).map (result :: ·) := by
        simp only [readNumbered, outcome, Except.mapError]
        rfl
      rcases ih (start + 1) with
        ⟨results, success, each⟩ | ⟨index, bad, fault, failure, faulty, first⟩
      · exact .inl ⟨result :: results, by rw [step, success, Except.map], .cons outcome each⟩
      · refine .inr ⟨index + 1, bad, fault, ?_, faulty, first.cons item (by simp [outcome])⟩
        rw [step, failure, Except.map, Nat.add_right_comm, Nat.add_assoc]

end Numbered

/-- The item writes the declaration: its property and its value without the blanks around them. -/
def Declares (item : Json.Value) (d : Declaration) : Prop :=
  ∃ pairs property value, item = .object pairs ∧
    string? (propertyKey pairs) pairs = some property ∧ string? "value" pairs = some value ∧
    d.property = Text.strip property ∧ d.value = Text.strip value

/-- A declaration is read if the item writes it, and else the document is at fault. -/
theorem readDeclaration_cases (item : Json.Value) :
    (∃ d, readDeclaration item = .ok d ∧ Declares item d) ∨
    ∃ fault, readDeclaration item = .error (.fault fault) ∧ ∀ d, ¬ Declares item d := by
  unfold readDeclaration
  split
  next pairs =>
    split
    next unnamed =>
      refine .inr ⟨_, rfl, ?_⟩
      rintro d ⟨_, property, _, ⟨⟩, named, -⟩
      simp [unnamed] at named
    next property named =>
      split
      next empty =>
        refine .inr ⟨_, rfl, ?_⟩
        rintro d ⟨_, other, _, ⟨⟩, otherNamed, -, same, -⟩
        rw [named, Option.some.injEq] at otherNamed
        exact d.filled (same.trans (otherNamed ▸ empty))
      next filled =>
        split
        next absent =>
          refine .inr ⟨_, rfl, ?_⟩
          rintro d ⟨_, _, value, ⟨⟩, -, given, -⟩
          simp [absent] at given
        next value given =>
          rw [Declaration.of_filled filled]
          exact .inl ⟨_, rfl, pairs, property, value, rfl, named, given, rfl, rfl⟩
  next notObject =>
    refine .inr ⟨_, rfl, ?_⟩
    rintro d ⟨pairs, _, _, rfl, -⟩
    exact notObject pairs rfl

theorem Declares.unique {item : Json.Value} {d other : Declaration} (first : Declares item d)
    (second : Declares item other) : d = other := by
  obtain ⟨_, property, value, rfl, named, given, properties, values⟩ := first
  obtain ⟨_, _, _, ⟨⟩, otherNamed, otherGiven, otherProperties, otherValues⟩ := second
  rw [named, Option.some.injEq] at otherNamed
  rw [given, Option.some.injEq] at otherGiven
  subst otherNamed otherGiven
  exact Declaration.ext (properties.trans otherProperties.symm) (values.trans otherValues.symm)

theorem readDeclaration_eq_ok (item : Json.Value) (d : Declaration) :
    readDeclaration item = .ok d ↔ Declares item d := by
  rcases readDeclaration_cases item with ⟨own, success, declares⟩ | ⟨fault, failure, wrong⟩
  · rw [success, Except.ok.injEq]
    exact ⟨fun same => same ▸ declares, declares.unique⟩
  · simp [failure, wrong d]

theorem Declares.clean {item : Json.Value} {d : Declaration} (declares : Declares item d) :
    d.property ≠ "" ∧ Text.strip d.property = d.property ∧ Text.strip d.value = d.value := by
  obtain ⟨_, property, value, -, -, -, properties, values⟩ := declares
  refine ⟨d.filled, ?_, ?_⟩
  · rw [properties, Text.strip_strip]
  · rw [values, Text.strip_strip]

/-- The item is an object whose own fields are right: a selector with a class in it, a
pseudo-selector that is a string or null if there is one, and these items for its declarations. -/
def HasFields (item : Json.Value) (declarations : List Json.Value) : Prop :=
  ∃ pairs selector, item = .object pairs ∧ string? "selector" pairs = some selector ∧
    (Css.Selector.styled selector).className ≠ "" ∧
    (∀ value, pairs.lookup "pseudo" = some value → value = .null ∨ ∃ s, value = .string s) ∧
    pairs.lookup "declarations" = some (.array declarations)

/-- A pseudo-selector is read exactly if it is a string or null, and is then not empty. -/
theorem readPseudo_cases (pairs : List (String × Json.Value)) (ofSelector : Option String)
    (named : ofSelector ≠ some "") :
    (∃ pseudo, readPseudo pairs ofSelector = .ok pseudo ∧ pseudo ≠ some "" ∧
      ∀ value, pairs.lookup "pseudo" = some value → value = .null ∨ ∃ s, value = .string s) ∨
    readPseudo pairs ofSelector = .error .pseudoNotString ∧
      ∃ value, pairs.lookup "pseudo" = some value ∧ value ≠ .null ∧ ∀ s, value ≠ .string s := by
  unfold readPseudo
  split
  next absent => exact .inl ⟨ofSelector, rfl, named, by simp [absent]⟩
  next given => exact .inl ⟨none, rfl, by simp, by simp [given]⟩
  next s given =>
    refine .inl ⟨_, rfl, ?_, by simp [given]⟩
    split
    · simp
    next filled => simpa using filled
  next value others texts given =>
    refine .inr ⟨rfl, value, given, ?_, ?_⟩
    · exact fun null => others (null ▸ rfl)
    · exact fun s text => texts s (text ▸ rfl)

/-- Either the fields of an item are wrong, and the fault is at the item itself, or only its
declarations decide. -/
theorem readEntry_cases (options : Options) (item : Json.Value) :
    (∃ fault, readEntry options item = .error (.fault fault) ∧ fault.place = "" ∧
      ∀ declarations, ¬ HasFields item declarations) ∨
    ∃ declarations className pseudo, HasFields item declarations ∧ pseudo ≠ some "" ∧
      readEntry options item =
        (readNumbered readDeclaration Stop.ofDeclaration 0 declarations).map fun ds =>
          ⟨_, ds, pseudo,
            Elm.definitionName_filled className options.affix options.nameStyle⟩ := by
  unfold readEntry
  split
  next pairs =>
    split
    next noSelector =>
      refine .inl ⟨.selectorNotString, rfl, rfl, ?_⟩
      rintro declarations ⟨_, selector, ⟨⟩, given, -⟩
      simp [noSelector] at given
    next selector given =>
      by_cases unnamed : (Css.Selector.styled selector).className = ""
      · refine .inl ⟨.noClassName, by simp [unnamed], rfl, ?_⟩
        rintro declarations ⟨_, other, ⟨⟩, otherGiven, named, -⟩
        rw [given, Option.some.injEq] at otherGiven
        exact named (otherGiven ▸ unnamed)
      simp only [unnamed, if_false]
      rcases readPseudo_cases pairs _ (Css.Selector.styled_pseudo selector) with
        ⟨pseudo, read, filled, right⟩ | ⟨read, value, held, notNull, notText⟩
      · simp only [read, Except.mapError, bind, Except.bind]
        split
        next declarations listed =>
          refine .inr ⟨declarations, (Css.Selector.styled selector).className, pseudo,
            ⟨pairs, selector, rfl, given, unnamed, right, listed⟩, filled, ?_⟩
          cases readNumbered readDeclaration Stop.ofDeclaration 0 declarations with
          | error stop => rfl
          | ok ds => exact congrArg (Except.mapError _) (ClassEntry.of_named _ ds pseudo)
        next notListed =>
          refine .inl ⟨.declarationsNotList, rfl, rfl, ?_⟩
          rintro declarations ⟨_, _, ⟨⟩, -, -, -, listed⟩
          exact notListed declarations listed
      · refine .inl ⟨.pseudoNotString, by simp [read, Except.mapError, bind, Except.bind], rfl, ?_⟩
        rintro declarations ⟨_, _, ⟨⟩, -, -, right, -⟩
        rcases right value held with null | ⟨s, text⟩
        · exact notNull null
        · exact notText s text
  next notObject =>
    refine .inl ⟨.notObject, rfl, rfl, ?_⟩
    rintro declarations ⟨pairs, _, rfl, -⟩
    exact notObject pairs rfl

theorem ofJson_single (options : Options) (item : Json.Value) :
    ofJson options (.array [item]) =
      ((readEntry options item).mapError (Stop.ofEntry 0)).map fun entry => [entry] := by
  simp only [ofJson, readNumbered]
  cases readEntry options item <;> rfl

theorem ofJson_single_eq_ok (options : Options) (item : Json.Value) (entry : ClassEntry) :
    ofJson options (.array [item]) = .ok [entry] ↔ readEntry options item = .ok entry := by
  rw [ofJson_single]
  cases readEntry options item <;> simp [Except.mapError, Except.map]

/-- The class is loaded by itself as this entry, in which nothing is empty or has blanks around it.
-/
structure LoadsAs (options : Options) (item : Json.Value) (entry : ClassEntry) : Prop where
  alone : ofJson options (.array [item]) = .ok [entry]
  named : entry.name ≠ ""
  pseudo : entry.pseudo ≠ some ""
  declared : ∃ declarations, HasFields item declarations ∧
    List.Forall₂ Declares declarations entry.declarations
  clean : ∀ d ∈ entry.declarations,
    d.property ≠ "" ∧ Text.strip d.property = d.property ∧ Text.strip d.value = d.value

/-- The place of the error is the class or, if the fields of the class are right, its first wrong
declaration. -/
def PlacedAt (item : Json.Value) (index : Nat) (fault : EntryFault) : Prop :=
  (Error.entry index fault).place? = some s!"[{index}]" ∧
    (∀ declarations, ¬ HasFields item declarations) ∨
  ∃ declarations j declaration,
    (Error.entry index fault).place? = some s!"[{index}].declarations[{j}]" ∧
    HasFields item declarations ∧
    FirstAt (fun declaration => ∀ d, ¬ Declares declaration d) declarations j declaration

/-- The error at the index is that of the class by itself, except for the index. -/
structure FailsAt (options : Options) (item : Json.Value) (index : Nat) (fault : EntryFault) :
    Prop where
  alone : ofJson options (.array [item]) = .error (.entry 0 fault)
  message : ∃ tail, (Error.entry index fault).message = s!"[{index}]" ++ tail ∧
    (Error.entry 0 fault).message = "[0]" ++ tail
  place : PlacedAt item index fault

theorem loadsAs_of_readEntry (options : Options) (item : Json.Value) (entry : ClassEntry)
    (success : readEntry options item = .ok entry) : LoadsAs options item entry := by
  have alone := (ofJson_single_eq_ok options item entry).mpr success
  rcases readEntry_cases options item with
    ⟨fault, failure, -⟩ | ⟨declarations, className, pseudo, fields, filled, read⟩
  · simp [failure] at success
  · rcases readNumbered_cases readDeclaration Stop.ofDeclaration 0 declarations with
      ⟨ds, all, each⟩ | ⟨_, _, _, stopped, -⟩
    · rw [read, all] at success
      cases success
      have declared := each.imp fun item d => (readDeclaration_eq_ok item d).mp
      refine ⟨alone, ClassEntry.named _, filled, ⟨declarations, fields, declared⟩, ?_⟩
      intro d member
      obtain ⟨item, -, declares⟩ := forall₂_mem_right declared d member
      exact declares.clean
    · rw [read, stopped] at success
      cases success

theorem entry_message (index : Nat) (fault : EntryFault) :
    (Error.entry index fault).message =
      s!"[{index}]" ++ (fault.place ++ ": " ++ fault.message) := by
  simp [Error.message, Error.place?, String.append_assoc]

/-- What stops the reading of a class is a fault of the document. -/
theorem readEntry_stop (options : Options) (item : Json.Value) (index : Nat)
    (stop : Stop EntryFault) (failure : readEntry options item = .error stop) :
    ∃ fault, stop = .fault fault ∧ PlacedAt item index fault := by
  rcases readEntry_cases options item with
    ⟨own, failed, atItem, wrong⟩ | ⟨declarations, className, pseudo, fields, -, read⟩
  · rw [failed] at failure
    cases failure
    exact ⟨own, rfl, .inl ⟨by simp only [Error.place?, atItem, String.append_empty], wrong⟩⟩
  · rcases readNumbered_cases readDeclaration Stop.ofDeclaration 0 declarations with
      ⟨ds, all, -⟩ | ⟨j, declaration, inner, stopped, faulty, first⟩
    · rw [read, all] at failure
      cases failure
    rcases readDeclaration_cases declaration with ⟨d, success, -⟩ | ⟨fault, same, -⟩
    · rw [success] at faulty
      cases faulty
    rw [same] at faulty
    cases faulty
    rw [read, stopped, Nat.zero_add] at failure
    cases failure
    refine ⟨.declaration j fault, rfl, .inr ⟨declarations, j, declaration, ?_, fields, ?_⟩⟩
    · delta Error.place? EntryFault.place
      simp only [String.append_assoc]
      rfl
    · simpa only [ne_eq, readDeclaration_eq_ok] using first

theorem failsAt_of_readEntry (options : Options) (item : Json.Value) (index : Nat)
    (stop : Stop EntryFault) (failure : readEntry options item = .error stop) :
    ∃ fault, stop = .fault fault ∧ FailsAt options item index fault := by
  obtain ⟨fault, rfl, place⟩ := readEntry_stop options item index stop failure
  refine ⟨fault, rfl, ?_, ⟨_, entry_message index fault, entry_message 0 fault⟩, place⟩
  rw [ofJson_single, failure]
  rfl

theorem loadsAs_of_mem (options : Options) (value : Json.Value) (entries : List ClassEntry)
    (success : ofJson options value = .ok entries) (entry : ClassEntry) (member : entry ∈ entries) :
    ∃ item, LoadsAs options item entry := by
  unfold ofJson at success
  split at success
  next items =>
    rcases readNumbered_cases (readEntry options) Stop.ofEntry 0 items with
      ⟨all, read, each⟩ | ⟨_, _, _, stopped, -⟩
    · rw [read] at success
      cases success
      obtain ⟨item, -, loaded⟩ := forall₂_mem_right each entry member
      exact ⟨item, loadsAs_of_readEntry options item entry loaded⟩
    · rw [stopped] at success
      cases success
  · cases success

/-- No class that is loaded has an empty pseudo-selector. -/
theorem ofFile_pseudo (tree : Files.Tree) (options : Options) (path : String)
    (entries : List ClassEntry) (success : ofFile tree options path = .ok entries)
    (entry : ClassEntry) (member : entry ∈ entries) : entry.pseudo ≠ some "" := by
  obtain ⟨source, -, success⟩ := bind_success success
  obtain ⟨value, -, success⟩ := bind_success success
  obtain ⟨item, loads⟩ := loadsAs_of_mem options value entries success entry member
  exact loads.pseudo

/-- Nothing that is loaded is refused when it is formed: the style of the options exists, a
definition has a name and a declaration has a property. -/
structure Formable (options : Options) : Prop where
  style : Elm.NameStyle.ofName options.nameStyle.name = .ok options.nameStyle
  entry : ∀ className declarations pseudo,
    let name := Elm.definitionName className options.affix options.nameStyle
    ClassEntry.of name declarations pseudo =
      .ok ⟨name, declarations, pseudo, Elm.definitionName_filled _ _ _⟩
  declaration : ∀ item d, Declares item d → Declaration.of d.property d.value = .ok d

theorem formable (options : Options) : Formable options where
  style := Elm.NameStyle.ofName_name options.nameStyle
  entry := fun _ declarations pseudo => ClassEntry.of_named _ declarations pseudo
  declaration := fun _ d _ => Declaration.of_filled d.filled d.value

/-- A list of classes is loaded class by class, or fails as the first class that cannot be loaded by
itself does. -/
theorem ofText_class_by_class (options : Options) (source : String) (items : List Json.Value)
    (written : Json.read source = .ok (.array items)) :
    ((∃ entries, ofText options source = .ok entries ∧
        List.Forall₂ (LoadsAs options) items entries) ∨
      ∃ index item fault, ofText options source = .error (.entry index fault) ∧
        FirstAt (fun item => ∀ entry, ofJson options (.array [item]) ≠ .ok [entry])
          items index item ∧
        FailsAt options item index fault) ∧
    Formable options := by
  refine ⟨?_, formable options⟩
  have loaded : ofText options source = readNumbered (readEntry options) Stop.ofEntry 0 items := by
    rw [ofText, written]
    rfl
  rw [loaded]
  rcases readNumbered_cases (readEntry options) Stop.ofEntry 0 items with
    ⟨entries, all, each⟩ | ⟨index, item, stop, stopped, failure, first⟩
  · exact .inl ⟨entries, all, each.imp (loadsAs_of_readEntry options)⟩
  · obtain ⟨fault, rfl, fails⟩ := failsAt_of_readEntry options item index stop failure
    rw [Nat.zero_add] at stopped
    refine .inr ⟨index, item, fault, stopped, ?_, fails⟩
    simpa only [ne_eq, ofJson_single_eq_ok] using first

/-- Two classes, of which the second has something that is no declaration after a right one. -/
def halfRight : String :=
  "[\x7b\"selector\":\".a\",\"declarations\":[]\x7d," ++
    "\x7b\"selector\":\".b\",\"declarations\":[\x7b\"prop\":\" c\",\"value\":\"d\"\x7d,null]\x7d]"

theorem ofText_class_by_class_half_right :
    ofText .stock halfRight = .error (.entry 1 (.declaration 1 .notObject)) ∧
    ∃ items, Json.read halfRight = .ok (.array items) ∧
      ((∃ entries, ofText .stock halfRight = .ok entries ∧
          List.Forall₂ (LoadsAs .stock) items entries) ∨
        ∃ index item fault, ofText .stock halfRight = .error (.entry index fault) ∧
          FirstAt (fun item => ∀ entry, ofJson .stock (.array [item]) ≠ .ok [entry])
            items index item ∧
          FailsAt .stock item index fault) ∧
      Formable .stock := by
  have failure : ofText .stock halfRight = .error (.entry 1 (.declaration 1 .notObject)) := by
    decide +kernel
  have written : ∃ items, Json.read halfRight = .ok (.array items) := by
    rw [ofText] at failure
    generalize Json.read halfRight = outcome at failure ⊢
    cases outcome with
    | error e => cases e <;> cases failure
    | ok value =>
      cases value with
      | array items => exact ⟨items, rfl⟩
      | _ => cases failure
  obtain ⟨items, written⟩ := written
  exact ⟨failure, items, written, ofText_class_by_class .stock halfRight items written⟩

end Document

end ElmStyle
