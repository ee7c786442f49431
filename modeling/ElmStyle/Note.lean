/-!
# Notes

What a run tells about its progress when it is asked to be verbose.
-/
namespace ElmStyle

inductive Note where
  /-- A declaration is rendered in the generic form. -/
  | generic (message : String)
  /-- A module is being put together. -/
  | assembling (moduleName : String) (classes : Nat)
  deriving DecidableEq, Repr

/-- One line, with the importance of the note and the part of the program it comes from. -/
def Note.line : Note → String
  | .generic message => s!"DEBUG twelm.transpiler.declaration: {message}"
  | .assembling moduleName classes =>
    s!"INFO twelm.module.assembly: Generating {moduleName} with {classes} class(es)"

end ElmStyle
