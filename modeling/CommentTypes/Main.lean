import CommentTypes.Command.Session
import CommentTypes.Workspace.Outlines

/-!
# The program

The program. It looks at the files that the command line names, carries the command line out on
what it saw, and then prints, logs and writes what came out.
-/

namespace CommentTypes.Main

/-- The names that lead to a place from the root, without those that are taken back. -/
def settled (parts : List String) : List String :=
  (parts.foldl (fun names part => if part = ".." then names.tail else part :: names) []).reverse

/-- A file or a directory with all that is in it, as far as it can be listed. -/
partial def look (path : String) : IO Entry := do
  let here := (← IO.currentDir) / path
  if ← here.isDir then
    match ← here.readDir.toBaseIO with
    | .error _ => return .dir [] false
    | .ok inside =>
      .dir <$> inside.toList.mapM fun e => do
        return (e.fileName, ← look (joinPath path e.fileName))
  else
    return .file (← IO.FS.readBinFile here).toList

/-- Adds to a workspace what names lead to, or the last directory or file on the way to it. -/
def addSeen (w : Workspace) (names : List String) : IO Workspace := do
  let here ← IO.currentDir
  (List.range (names.length + 1)).foldlM
    (fun w n => do
      let way := names.take n
      let path := Path.render { anchor := "/", parts := way }
      let place := here / path
      if !(← place.pathExists) then return w
      else if way = names || !(← place.isDir) then
        return { w with root := w.root.put way (← look path) }
      else if (w.root.get? way).isSome then return w
      else return { w with root := w.root.put way (.dir []) })
    w

/-- A workspace with all that the options name, and the outlines of the files among it. -/
def seen (o : Command.Options) : IO Workspace := do
  let here ← IO.currentDir
  let current := settled (Path.ofString here.toString).parts
  let homes := (← IO.getEnv "HOME").toList.map fun home => ("", home)
  let start : Workspace := { root := (Entry.dir []).put current (.dir []), current, homes }
  let report := o.report.toList.filterMap fun path =>
    (start.atHome (.ofString path)).toOption.map Path.render
  let named := report ++ o.config.toList ++ o.paths.map (· ++ outlineEnding) ++ o.paths
  (named.filter fun path => path ≠ "" && !hasNull path).foldlM
    (fun w (path : String) =>
      addSeen w (settled (Path.ofString (here / path).toString).parts))
    start

/-- Milliseconds in words. -/
def inSeconds (ms : Nat) : String :=
  let rest := (toString (ms % 1000)).toList.leftpad 3 '0'
  s!"{ms / 1000}.{String.ofList rest}s"

/-- Prints and logs what came out. -/
def tell (o : Command.Outcome) : IO UInt32 := do
  IO.print o.output
  IO.eprint o.complaint
  o.records.forM fun r => IO.eprintln r.render
  return UInt32.ofNat o.exit.number

/-- Writes the report that came out. -/
def writeReport (w : Workspace) (destination : String) : IO Unit := do
  let here ← IO.currentDir
  if let .ok path := w.atHome (.ofString destination) then
    if let .ok bytes := w.readBytes path then
      IO.FS.createDirAll (here / path.parent.render)
      IO.FS.writeBinFile (here / path.render) ⟨bytes.toArray⟩

/-- Carries out a check. -/
def check (o : Command.Options) : IO UInt32 := do
  let w ← seen o
  let start ← IO.monoMsNow
  let checked ← IO.lazyPure fun _ => o.check w.grammar w
  let stop ← IO.monoMsNow
  let outcome := o.finish w (inSeconds (stop - start)) checked
  if let .ok _ := checked.value then
    (Command.given o.report).forM (writeReport outcome.workspace)
  tell outcome

end CommentTypes.Main

open CommentTypes

/-- Runs the program. -/
def main (arguments : List String) : IO UInt32 := do
  match Command.Request.ofArguments arguments with
  | .ok (.check options) => Main.check options
  | _ => Main.tell (Command.run Grammar.misfit { root := .dir [] } "" arguments)
