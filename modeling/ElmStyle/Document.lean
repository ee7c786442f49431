import ElmStyle.Css.Selector
import ElmStyle.Options

/-!
# Documents of classes

A document is a JSON list with one object for each class: its selector, its declarations and, if it
is not to be taken from the selector, its pseudo-selector. The first fault in the order of the
document is named with its place. `ofText` and `ofFile` are `load_entries` and `load_entries_file`
of `twelm`.
-/
namespace ElmStyle

open Css (Declaration ClassEntry)

namespace Document

/-- What is wrong with a declaration of a document. -/
inductive DeclarationFault where
  | notObject
  | notString (key : String)
  | emptyProperty
  deriving DecidableEq, Repr

def DeclarationFault.message : DeclarationFault → String
  | .notObject => "declaration must be an object"
  | .notString key => s!"expected a string for {Text.quoted key}"
  | .emptyProperty => "declaration property must not be empty"

/-- What is wrong with a class of a document. -/
inductive EntryFault where
  | notObject
  | selectorNotString
  | noClassName
  | pseudoNotString
  | declarationsNotList
  | declaration (index : Nat) (fault : DeclarationFault)
  deriving DecidableEq, Repr

def EntryFault.message : EntryFault → String
  | .notObject => "entry must be an object"
  | .selectorNotString => "expected a string for 'selector'"
  | .noClassName => "selector has no class name"
  | .pseudoNotString => "expected a string or null for 'pseudo'"
  | .declarationsNotList => "expected a list for 'declarations'"
  | .declaration _ fault => fault.message

/-- The place of a fault inside its class. -/
def EntryFault.place : EntryFault → String
  | .declaration index _ => s!".declarations[{index}]"
  | _ => ""

/-- What stops a reader: a fault of the document, or parts that nothing can be formed of. -/
inductive Stop (φ : Type) where
  | fault (found : φ)
  | unformed (error : Css.FormError)
  deriving DecidableEq, Repr

/-- Why a document gives no classes. -/
inductive Error where
  | unreadable (path : String) (fault : Files.Fault)
  | badEncoding (error : Text.Utf8.Error)
  | malformed (fault : Json.Fault) (place : Json.Place)
  | integerTooLong (digits : Nat)
  | notList
  | entry (index : Nat) (fault : EntryFault)
  | unformed (error : Css.FormError)
  deriving DecidableEq, Repr

/-- Where in the document the fault is, if it is in one of its classes. -/
def Error.place? : Error → Option String
  | .entry index fault => some (s!"[{index}]" ++ fault.place)
  | _ => none

def Error.message (e : Error) : String :=
  let cause := match e with
    | .unreadable path fault => s!"cannot read {path}: {fault.message}"
    | .badEncoding error => error.message
    | .malformed fault place =>
      s!"invalid JSON: {fault.message} (line {place.line}, column {place.column})"
    | .integerTooLong digits => Json.integerTooLongMessage digits
    | .notList => "top-level value must be a list of entries"
    | .entry _ fault => fault.message
    | .unformed error => error.message
  match e.place? with
  | some place => place ++ ": " ++ cause
  | none => cause

/-- The string that a member holds. -/
def string? (key : String) (pairs : List (String × Json.Value)) : Option String :=
  match pairs.lookup key with
  | some (.string s) => some s
  | _ => none

/-- The key of a declaration's property, which has a short form. -/
def propertyKey (pairs : List (String × Json.Value)) : String :=
  if (pairs.lookup "prop").isSome then "prop" else "property"

/-- A fault of a declaration is one of its class. -/
def Stop.ofDeclaration (index : Nat) : Stop DeclarationFault → Stop EntryFault
  | .fault found => .fault (.declaration index found)
  | .unformed error => .unformed error

/-- A fault of a class is one of the document. -/
def Stop.ofEntry (index : Nat) : Stop EntryFault → Error
  | .fault found => .entry index found
  | .unformed error => .unformed error

/-- Read the items in turn, from the one with the given index on; what stops the reader is located
by the index of its item. -/
def readNumbered {α β ε δ : Type} (read : α → Except ε β) (locate : Nat → ε → δ) (index : Nat) :
    List α → Except δ (List β)
  | [] => .ok []
  | item :: rest => do
    let first ← (read item).mapError (locate index)
    return first :: (← readNumbered read locate (index + 1) rest)

/-- A declaration, with the blanks around its property and value removed. -/
def readDeclaration : Json.Value → Except (Stop DeclarationFault) Declaration
  | .object pairs =>
    match string? (propertyKey pairs) pairs with
    | none => .error (.fault (.notString (propertyKey pairs)))
    | some property =>
      if Text.strip property = "" then .error (.fault .emptyProperty)
      else match string? "value" pairs with
        | none => .error (.fault (.notString "value"))
        | some value =>
          (Declaration.of (Text.strip property) (Text.strip value)).mapError .unformed
  | _ => .error (.fault .notObject)

/-- The pseudo-selector: that of the object if it has one, which may be null or empty for none, and
else that of the selector. -/
def readPseudo (pairs : List (String × Json.Value)) (ofSelector : Option String) :
    Except EntryFault (Option String) :=
  match pairs.lookup "pseudo" with
  | none => .ok ofSelector
  | some .null => .ok none
  | some (.string s) => .ok (if s = "" then none else some s)
  | some _ => .error .pseudoNotString

/-- A class. -/
def readEntry (options : Options) : Json.Value → Except (Stop EntryFault) ClassEntry
  | .object pairs =>
    match string? "selector" pairs with
    | none => .error (.fault .selectorNotString)
    | some selector =>
      let target := Css.Selector.styled selector
      if target.className = "" then .error (.fault .noClassName)
      else do
        let pseudo ← (readPseudo pairs target.pseudo).mapError .fault
        match pairs.lookup "declarations" with
        | some (.array items) =>
          let name := Elm.definitionName target.className options.affix options.nameStyle
          let declarations ← readNumbered readDeclaration Stop.ofDeclaration 0 items
          (ClassEntry.of name declarations pseudo).mapError .unformed
        | _ => .error (.fault .declarationsNotList)
  | _ => .error (.fault .notObject)

/-- The classes of a document that has been read as JSON. -/
def ofJson (options : Options) : Json.Value → Except Error (List ClassEntry)
  | .array items => readNumbered (readEntry options) Stop.ofEntry 0 items
  | _ => .error .notList

/-- The classes of a document. -/
def ofText (options : Options) (source : String) : Except Error (List ClassEntry) := do
  let value ← (Json.read source).mapError fun
    | .malformed fault place => .malformed fault place
    | .integerTooLong digits => .integerTooLong digits
  ofJson options value

/-- The classes of the document in a file. -/
def ofFile (tree : Files.Tree) (options : Options) (path : String) :
    Except Error (List ClassEntry) := do
  let source ← (tree.readText path).mapError fun
    | .unreadable fault => .unreadable path fault
    | .badEncoding error => .badEncoding error
  ofText options source

end Document

end ElmStyle
