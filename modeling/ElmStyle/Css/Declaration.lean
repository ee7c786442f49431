import ElmStyle.Text.Blank

/-!
# Declarations and classes

A declaration gives a property a value. A class is a name for its declarations in order, which may
apply only in the state that a pseudo-selector names.
-/
namespace ElmStyle.Css

/-- A property with its value. -/
@[ext]
structure Declaration where
  property : String
  value : String
  filled : property ≠ "" := by decide
  deriving DecidableEq, Repr

/-- The declarations of one utility class, under the name of their Elm definition. -/
@[ext]
structure ClassEntry where
  name : String
  declarations : List Declaration
  pseudo : Option String
  named : name ≠ "" := by decide
  deriving DecidableEq, Repr

/-- Why a declaration or a class cannot be formed. -/
inductive FormError where
  | emptyProperty | emptyName
  deriving DecidableEq, Repr

def FormError.message : FormError → String
  | .emptyProperty => "Declaration property must be a non-empty string"
  | .emptyName => "ClassEntry target_identifier must be a non-empty string"

namespace Declaration

/-- A declaration of a property, which needs a name. -/
def of (property value : String) : Except FormError Declaration :=
  if empty : property = "" then .error .emptyProperty else .ok ⟨property, value, empty⟩

theorem of_filled {property : String} (filled : property ≠ "") (value : String) :
    of property value = .ok ⟨property, value, filled⟩ :=
  dif_neg filled

theorem of_eq_ok {property value : String} {d : Declaration} :
    of property value = .ok d ↔ d.property = property ∧ d.value = value := by
  unfold of
  split
  next empty =>
    have other : d.property ≠ property := empty ▸ d.filled
    simp [other]
  next => simp [Declaration.ext_iff, eq_comm]

/-- A custom property starts with two hyphens. -/
def isCustom (d : Declaration) : Bool :=
  ['-', '-'].isPrefixOf d.property.toList

/-- The tokens of the value. -/
def tokens (d : Declaration) : List String := Text.words d.value

end Declaration

namespace ClassEntry

/-- A class, which needs a name. -/
def of (name : String) (declarations : List Declaration) (pseudo : Option String) :
    Except FormError ClassEntry :=
  if empty : name = "" then .error .emptyName else .ok ⟨name, declarations, pseudo, empty⟩

theorem of_named {name : String} (named : name ≠ "") (declarations : List Declaration)
    (pseudo : Option String) :
    of name declarations pseudo = .ok ⟨name, declarations, pseudo, named⟩ :=
  dif_neg named

theorem of_eq_ok {name : String} {declarations : List Declaration} {pseudo : Option String}
    {entry : ClassEntry} :
    of name declarations pseudo = .ok entry ↔
      entry.name = name ∧ entry.declarations = declarations ∧ entry.pseudo = pseudo := by
  unfold of
  split
  next empty =>
    have other : entry.name ≠ name := empty ▸ entry.named
    simp [other]
  next => simp [ClassEntry.ext_iff, eq_comm]

/-- The pseudo-selector that wraps the declarations; an empty one counts as none. -/
def state? (entry : ClassEntry) : Option String :=
  entry.pseudo.filter (· != "")

end ClassEntry

end ElmStyle.Css
