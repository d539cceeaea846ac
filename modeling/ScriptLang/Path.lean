/-!
# Paths as texts

A path is a text of components between slashes.  The functions here cut and join that text; what a
path names in a file tree is `FileSystem`'s business.  Empty components and `.` components say
nothing, except for a `.` that a relative path begins with.
-/

namespace ScriptLang.Path

/-- Whether a path begins at the root of the file tree. -/
def isAbsolute (path : String) : Bool := path.toList.head? == some '/'

/-- Cut a text at its slashes. -/
def pieces (cs : List Char) : List (List Char) :=
  match cs with
  | [] => [[]]
  | c :: cs =>
    if c = '/' then [] :: pieces cs
    else
      match pieces cs with
      | [] => [[c]]
      | p :: ps => (c :: p) :: ps

/-- The root or the `.` that a path begins with, and the text after it. -/
def splitStart : List Char → List Char × List Char
  | '/' :: cs => (['/'], cs)
  | ['.'] => (['.'], [])
  | '.' :: '/' :: cs => (['.'], '/' :: cs)
  | cs => ([], cs)

/-- Whether a component says nothing. -/
def isIdle (piece : List Char) : Bool := piece.isEmpty || piece == ['.']

/-- Drop the components at the end that say nothing; components come last first. -/
def dropIdle (reversed : List (List Char)) : List (List Char) := reversed.dropWhile isIdle

/-- Put reversed components back together. -/
def joinReversed (reversed : List (List Char)) : List Char :=
  [('/' : Char)].intercalate reversed.reverse

/-- The path without its last component; none for the root and for the empty path. -/
def parent? (path : String) : Option String :=
  let (start, body) := splitStart path.toList
  match dropIdle (pieces body).reverse with
  | _ :: rest => some (String.ofList (start ++ joinReversed (dropIdle rest)))
  | [] => if start = ['.'] then some "" else none

/-- The last component, unless it leads to a parent directory. -/
def fileName? (path : String) : Option String :=
  let (_, body) := splitStart path.toList
  match dropIdle (pieces body).reverse with
  | name :: _ => if name = ['.', '.'] then none else some (String.ofList name)
  | [] => none

/-- A file name before and after its last dot; a dot in front of the name does not count. -/
def splitName (name : String) : String × Option String :=
  let reversed := name.toList.reverse
  let after := reversed.takeWhile (· ≠ '.')
  match reversed.dropWhile (· ≠ '.') with
  | _ :: before =>
    if before.isEmpty then (name, none)
    else (String.ofList before.reverse, some (String.ofList after.reverse))
  | [] => (name, none)

/-- The file name without its extension. -/
def stem? (path : String) : Option String := (fileName? path).map fun n => (splitName n).1

/-- What follows the last dot of the file name. -/
def extension? (path : String) : Option String := (fileName? path).bind fun n => (splitName n).2

/-- The path that `path` names when read from the directory `dir`. -/
def join (dir path : String) : String :=
  if isAbsolute path || dir.isEmpty then path
  else if dir.toList.getLast? = some '/' then dir ++ path
  else dir ++ "/" ++ path

end ScriptLang.Path
