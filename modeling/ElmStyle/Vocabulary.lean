/-!
# Vocabulary

The names that elm-css is known to export. Function names come from property names by a rule, so
that alone does not say that elm-css has them; a lint compares them with these lists.
-/
namespace ElmStyle

structure Vocabulary where
  functions : List String
  units : List String
  pseudoClasses : List String
  deriving DecidableEq, Repr

namespace Vocabulary

/-- The parts of names that say which side of a box is meant. -/
def sides : List String := ["Top", "Right", "Bottom", "Left"]

/-- The functions of a property that exists for every side. -/
def sided (base : String) (parts : List String) : List String :=
  sides.flatMap fun side => parts.map fun part => base ++ side ++ part

/-- The functions that do not belong to one side of a border. -/
def baseFunctions : List String := [
    "alignItems", "alignSelf", "backgroundAttachment", "backgroundBlendMode", "backgroundClip",
    "backgroundColor", "backgroundImage", "backgroundOrigin", "backgroundRepeat",
    "backgroundRepeat2", "backgroundSize", "backgroundSize2", "border", "border2", "border3",
    "borderCollapse", "borderColor", "borderColor2", "borderColor3", "borderColor4", "borderRadius",
    "borderRadius2", "borderRadius3", "borderRadius4", "borderBottomLeftRadius",
    "borderBottomRightRadius", "borderTopLeftRadius", "borderTopRightRadius", "borderSpacing",
    "borderStyle", "borderWidth", "borderWidth2", "borderWidth3", "borderWidth4", "bottom",
    "boxSizing", "color", "cursor", "display", "displayFlex", "fill", "flexBasis", "flexDirection",
    "flexFlow1", "flexFlow2", "flexGrow", "flexShrink", "flexWrap", "fontSize", "fontStyle",
    "fontVariant", "fontWeight", "height", "justifyContent", "left", "letterSpacing", "lineHeight",
    "listStylePosition", "listStyleType", "margin", "margin2", "margin3", "margin4", "marginBottom",
    "marginLeft", "marginRight", "marginTop", "maxHeight", "maxWidth", "minHeight", "minWidth",
    "opacity", "order", "outline", "outline3", "outlineColor", "outlineOffset", "outlineStyle",
    "outlineWidth", "overflow", "overflowWrap", "overflowX", "overflowY", "padding", "padding2",
    "padding3", "padding4", "paddingBottom", "paddingLeft", "paddingRight", "paddingTop",
    "pointerEvents", "position", "resize", "right", "tableLayout", "textAlign", "textDecoration",
    "textDecorationColor", "textDecorationLine", "textDecorationStyle", "textIndent",
    "textOverflow", "textShadow", "textTransform", "top", "transform", "transforms",
    "verticalAlign", "visibility", "whiteSpace", "width", "wordSpacing", "zIndex"]

/-- Functions that make lengths, angles, times and percentages, then those that make other values.
-/
def stockUnits : List String := [
    "px", "em", "rem", "ex", "ch", "vh", "vw", "vmin", "vmax", "pct", "cm", "mm", "pt", "pc", "deg",
    "rad", "grad", "turn", "sec", "ms", "hex", "num", "int"]

def stockPseudoClasses : List String := [
    "active", "checked", "disabled", "empty", "enabled", "firstChild", "firstOfType", "focus",
    "focusWithin", "hover", "invalid", "lastChild", "lastOfType", "link", "onlyChild", "onlyOfType",
    "readOnly", "required", "target", "valid", "visited"]

/-- The names that generated modules are known to compile with. -/
def stock : Vocabulary where
  functions := baseFunctions ++ sided "border" ["2", "3", "Color", "Style", "Width"]
  units := stockUnits
  pseudoClasses := stockPseudoClasses

/-- A set of names: each once, where it came first. -/
def names (given : List String) : List String := given.eraseDups

/-- The vocabulary with further names. -/
def extend (v : Vocabulary) (functions units pseudoClasses : List String) : Vocabulary where
  functions := names (v.functions ++ functions)
  units := names (v.units ++ units)
  pseudoClasses := names (v.pseudoClasses ++ pseudoClasses)

/-- How many names of each kind there are. -/
def sizes (v : Vocabulary) : List Nat :=
  [v.functions.length, v.units.length, v.pseudoClasses.length]

/-- Of which kinds a name is. -/
def kinds (v : Vocabulary) (name : String) : List Bool :=
  [v.functions.contains name, v.units.contains name, v.pseudoClasses.contains name]

end Vocabulary

end ElmStyle
