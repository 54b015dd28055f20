import QueryAlgebra.Defaults.Json
import QueryAlgebra.Defaults.Yaml

/-!
# Defaults in files

A file of defaults is read whole before its name is looked at. The part of the name after
the last point says which format it has; a name that only starts with a point has no such
part.
-/

namespace QueryAlgebra

/-- What is found under a file's name. -/
inductive FileContent where
  | missing
  | directory
  | bytes (data : ByteArray)

/-- The text of a file. -/
def FileContent.text : FileContent → Except Fault String
  | missing => .error (.file .missing)
  | directory => .error (.file .directory)
  | bytes data =>
    match String.fromUTF8? data with
    | some text => .ok text
    | none => .error (.file .notUtf8)

/-- The last part of a path. A path that ends by going up has none. -/
def fileName? (path : String) : Option (List Char) :=
  match (path.toList.splitOn '/').filter (fun part => part ≠ [] ∧ part ≠ ['.']) |>.getLast? with
  | some ['.', '.'] => none
  | last => last

/-- What follows the last point of a file's name, where something stands before it. -/
def extension? (path : String) : Option String :=
  (fileName? path).bind fun name =>
    let ending := name.reverse.takeWhile (· ≠ '.')
    if ending.length + 1 < name.length then some (String.ofList ending.reverse) else none

/-- Reads defaults from a file and checks them. -/
def Defaults.ofFile (path : String) (file : FileContent) : Except Fault Defaults :=
  file.text.bind fun text =>
    match extension? path with
    | some "yaml" | some "yml" => Defaults.ofYaml text
    | some "json" => Defaults.ofJson text
    | _ => .error (.defaults (.unknownFormat path))

end QueryAlgebra
