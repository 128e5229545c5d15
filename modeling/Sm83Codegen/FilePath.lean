import Sm83Codegen.Text.Word

/-!
# File paths

How the paths of the command line and of the settings are compared and taken apart.

* `FilePath.parts` -- the steps of a path; two paths are the same if their steps are;
* `FilePath.staging` -- where a file is written before it replaces its target.
-/

namespace Sm83Codegen.FilePath

/-! ## 1. Steps -/

/-- Whether a path starts at the root. -/
def isAbsolute (path : String) : Bool := path.toList.head? == some '/'

/-- Whether a piece is a step of its own: empty ones and dots inside a path are not. -/
def isStep (s : String) : Bool := s != "" && s != "."

/-- The steps of a path. A dot counts only at the start of a relative path. -/
def parts (path : String) : List String :=
  let all := (Text.pieces (fun c => c == '/') path.toList).map String.ofList
  if isAbsolute path then "/" :: all.filter isStep
  else
    match all with
    | "." :: rest => "." :: rest.filter isStep
    | _ => all.filter isStep

/-- Whether two paths have the same steps. -/
def same (p q : String) : Bool := parts p == parts q

/-! ## 2. Siblings -/

/-- The name of the file that a path leads to, if it ends in a name. -/
def fileName? (path : String) : Option String :=
  match (parts path).getLast? with
  | some "/" | some "." | some ".." | none => none
  | some name => some name

/-- A path without slashes and dots at its end, last character first. -/
def bareEnd : List Char → List Char
  | ['/'] => ['/']
  | '/' :: cs => bareEnd cs
  | '.' :: '/' :: cs => bareEnd ('/' :: cs)
  | cs => cs

/-- A path without its last name. -/
def parent (path : String) : String :=
  let bare := bareEnd path.toList.reverse
  let rest := bare.dropWhile (fun c => c != '/')
  String.ofList (bareEnd rest).reverse

/-- A name below a path. -/
def join (path name : String) : String :=
  if path.isEmpty then name
  else if path.toList.getLast? == some '/' then path ++ name
  else path ++ "/" ++ name

/-- The suffix of a file that is being staged. -/
def stagingSuffix : String := ".opgen-tmp"

/-- The sibling at which a file is staged. -/
def staging (path : String) : String :=
  match fileName? path with
  | some name => join (parent path) (name ++ stagingSuffix)
  | none => join path stagingSuffix

end Sm83Codegen.FilePath
