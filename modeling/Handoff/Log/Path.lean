/-!
# Paths of log files

A path names a file by its last part, unless that part leads upwards.
-/

namespace Handoff.Log

def pathParts (path : String) : List String :=
  (path.splitOn "/").filter fun part => part != "" && part != "."

/-- The parts of the path of a log file, unless the path names no file. -/
def logFile? (path : String) : Option (List String) :=
  match (pathParts path).getLast? with
  | none | some ".." => none
  | some _ => some (pathParts path)

/-- A path without steps upwards, unless it leads out of the directory where it starts. -/
def resolve (parts : List String) : Option (List String) :=
  (parts.foldlM (fun (found : List String) part =>
    if part = ".." then
      match found with
      | [] => none
      | _ :: found => some found
    else some (part :: found)) []).map List.reverse

/-- The path of a log file below the working directory, if it is there. -/
def localPath? (path : String) : Option String := do
  let parts ← logFile? path
  if path.startsWith "/" then none
  else return "/".intercalate (← resolve parts)

end Handoff.Log
