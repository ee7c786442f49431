import ElmStyle.Json.Value
import ElmStyle.Text.Lower
import ElmStyle.Text.Order

/-!
# Exemptions

An exemption says of a property which of its values elm-css has no typed form for. A table holds at
most one exemption of a property, and what writes or merges tables keeps to that. `ofMembers` and
`merge` are `from_mapping` and `merged` of `twelm`.
-/
namespace ElmStyle

/-- The values of a property that are exempt. -/
inductive Exemption where
  | all
  | values (listed : List String)
  deriving DecidableEq, Repr

namespace Exemption

/-- The listed values as a set: each once and in order. -/
def ofValues (listed : List String) : Exemption := .values (Text.sorted listed.eraseDups)

def covers (value : String) : Exemption → Bool
  | .all => true
  | .values listed => listed.contains value

/-- How a table of exemptions is written for all values of a property. -/
def wildcard : String := "*"

/-- A rule of a written table: the wildcard, or a list of values. -/
def ofJson? : Json.Value → Option Exemption
  | .string s => if s = wildcard then some .all else none
  | .array items => (Json.Value.strings? items).map ofValues
  | _ => none

end Exemption

/-- The exemptions by property, each property once, in the order in which they came in. -/
structure ExemptionTable where
  entries : List (String × Exemption)
  distinct : (Json.names entries).Nodup
  deriving DecidableEq, Repr

namespace ExemptionTable

def empty : ExemptionTable := ⟨[], List.nodup_nil⟩

/-- The table of these exemptions; of several for one property the last one counts. -/
def of (pairs : List (String × Exemption)) : ExemptionTable :=
  ⟨Json.members pairs, Json.nodup_members pairs⟩

def size (t : ExemptionTable) : Nat := t.entries.length

def get? (t : ExemptionTable) (property : String) : Option Exemption := t.entries.lookup property

def contains (t : ExemptionTable) (property : String) : Bool := (t.get? property).isSome

/-- The value of the property must skip typed rendering. -/
def isExempt (t : ExemptionTable) (property value : String) : Bool :=
  (t.get? property).any (·.covers value)

/-- Both tables, where an exemption of the second one replaces that of the first. -/
def merge (t other : ExemptionTable) : ExemptionTable :=
  ⟨Json.setMembers t.entries other.entries,
    Json.nodup_setMembers t.entries other.entries t.distinct⟩

/-- The tables exempt the same properties in the same way, in whatever order. -/
def same (t other : ExemptionTable) : Bool :=
  t.size == other.size && t.entries.all fun entry => other.get? entry.1 == some entry.2

/-- The entries in the order of their properties. -/
def sorted (t : ExemptionTable) : List (String × Exemption) :=
  t.entries.mergeSort fun a b => decide (a.1 ≤ b.1)

/-- Why a written table is refused. -/
inductive Invalid where
  | property (name : String)
  | rule (property : String) (given : Json.Value)
  deriving Repr

def Invalid.message : Invalid → String
  | .property name => s!"Exemption key must be a lowercase property name: {Text.quoted name}"
  | .rule name given =>
    s!"Exemption for {Text.quoted name} must be {Text.quoted Exemption.wildcard} or a list of " ++
      s!"values, got {given.text}"

/-- One member of a written table. -/
def readMember (property : String) (rule : Json.Value) : Except Invalid (String × Exemption) :=
  if property = "" ∨ ¬ Text.isLowered property then .error (.property property)
  else match Exemption.ofJson? rule with
    | some e => .ok (property, e)
    | none => .error (.rule property rule)

/-- The table that an object of rules by property writes; the first member that is wrong is named.
-/
def ofMembers (pairs : List (String × Json.Value)) : Except Invalid ExemptionTable :=
  ((Json.members pairs).mapM fun pair => readMember pair.1 pair.2).map of

/-- The declarations for which elm-css has no typed form, as few as possible. -/
def stock : ExemptionTable where
  entries := [
    ("appearance", .all),
    ("display", .ofValues ["flow-root", "inline-grid", "grid"]),
    ("box-shadow", .all),
    ("background-position", .all),
    ("clip", .all),
    ("flex", .all),
    ("align-content", .all),
    ("align-self", .ofValues ["auto"]),
    ("justify-content", .ofValues ["space-evenly"]),
    ("font-family", .all),
    ("content", .all),
    ("object-fit", .all),
    ("object-position", .all),
    ("cursor", .ofValues ["text"]),
    ("clear", .all),
    ("stroke-width", .all),
    ("stroke", .all),
    ("transform-origin", .all),
    ("word-break", .all),
    ("user-select", .all),
    ("float", .all),
    ("outline", .ofValues ["0"]),
    ("-webkit-overflow-scrolling", .all),
    ("-webkit-font-smoothing", .all),
    ("-moz-osx-font-smoothing", .all)]
  distinct := by decide +kernel

end ExemptionTable

end ElmStyle
