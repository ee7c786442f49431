import ElmStyle.Command.Run

/-!
# The command line program

Takes a picture of the part of the file system that the arguments can name, runs the command on it,
and carries out what the outcome asks for.
-/
namespace ElmStyle

open Files (Tree Place Node)

/-- What is at a place, as far as reading can tell. -/
def lookAt (place : Place) : IO (Option Node) := do
  try
    return some (.file (← IO.FS.readBinFile (Files.joined "/" place)).data.toList)
  catch
    | .inappropriateType .. => return some .directory
    | _ => return none

/-- Add what is found along a path. -/
def survey (tree : Tree) (place : Place) : List String → IO Tree
  | [] => return tree
  | name :: rest => do
    let next := Files.step place name
    if (tree.get? next).isSome then survey tree next rest
    else match ← lookAt next with
      | some node => survey (tree.set next node) next rest
      | none => return tree

/-- The paths that a command line may name: every argument, and what follows an equals sign in it.
-/
def candidatePaths (arguments : List String) : List String :=
  Options.stock.file :: arguments.flatMap fun argument =>
    argument :: (Command.splitValue argument).2.toList

/-- The part of the file system that a command line can see. -/
def picture (arguments : List String) : IO Tree := do
  let here := Files.names (← IO.currentDir).toString
  (candidatePaths arguments).foldlM
    (fun tree path => survey tree (tree.start (Files.rootOf path)) (Files.steps path)) (.bare here)

/-- Bring a place of the file system into the state of its node. -/
def establish (before : Tree) (place : Place) (node : Node) : IO Unit := do
  if before.get? place = some node then return
  match node with
  | .directory => IO.FS.createDirAll (Files.joined "/" place)
  | .file bytes => IO.FS.writeBinFile (Files.joined "/" place) ⟨bytes.toArray⟩

end ElmStyle

open ElmStyle in
/-- Run the command line and exit with its code. -/
def main (arguments : List String) : IO UInt32 := do
  let before ← picture arguments
  let outcome := Command.run before arguments
  outcome.tree.nodes.reverse.forM fun (place, node) => establish before place node
  let ending := outcome.ending
  IO.print (Command.outputText ending.lines)
  IO.eprint (Command.errorText ending.lines)
  if let some failure := ending.failure then IO.eprintln s!"Error: {failure.message}"
  return UInt32.ofNat ending.exit
