/-!
# Paths

A path is a text in which slashes separate names. The operations here only look at the text: what a
name stands for, and whether it exists, is a matter of the files.
-/

namespace CompiledScript.Path

def isAbsolute (path : String) : Bool :=
  path.toList.head? = some '/'

/-- A path behind another one. An absolute path stands for itself. -/
def join (base path : String) : String :=
  if isAbsolute path then path
  else if base.isEmpty ∨ base.toList.getLast? = some '/' then base ++ path
  else base ++ "/" ++ path

/-- The last name of a path; there is none after a slash. -/
def lastName (path : List Char) : List Char :=
  (path.reverse.takeWhile (· ≠ '/')).reverse

/-- What stands in front of the last name, with the slash. -/
def front (path : List Char) : List Char :=
  (path.reverse.dropWhile (· ≠ '/')).reverse

/-- A path without the slashes at its end, unless it has nothing else. -/
def dropSlashes (path : List Char) : List Char :=
  if path.all (· = '/') then path else (path.reverse.dropWhile (· = '/')).reverse

/-- The path of the directory that a path lies in, which may be empty. -/
def parent (path : String) : String :=
  String.ofList (dropSlashes (front path.toList))

def base (path : String) : String :=
  String.ofList (lastName path.toList)

/-- The last dot of the last name and what follows it. Dots in front of everything else belong to
the name itself. -/
def fileExtension (path : String) : String :=
  let name := (lastName path.toList).reverse
  let letters := name.takeWhile (· ≠ '.')
  match name.drop letters.length with
  | [] => ""
  | dot :: stem =>
    if stem.all (· = '.') then "" else String.ofList (dot :: letters.reverse)

/-- The parts of a text between the characters that satisfy a condition. -/
def splitAt (isSeparator : Char → Bool) : List Char → List (List Char)
  | [] => [[]]
  | c :: rest =>
    if isSeparator c then [] :: splitAt isSeparator rest
    else match splitAt isSeparator rest with
      | [] => [[c]]
      | first :: others => (c :: first) :: others

/-- Whether a name is one that a file or directory of its own can have. -/
def isPlainName (name : List Char) : Bool :=
  name ≠ [] && name ≠ ['.'] && name ≠ ['.', '.']

/-- The names in a text whose separators are slashes of either kind, without those that stand for
other places. -/
def plainNames (text : String) : List String :=
  ((splitAt (fun c ↦ c = '/' || c = '\\') text.toList).filter isPlainName).map String.ofList

/-- A path below a base, whatever names the texts hold: none of them leads out again. -/
def below (root : String) (texts : List String) : String :=
  (texts.flatMap plainNames).foldl join root

/-- The names that lead along a path. Several slashes count as one, and a slash at the end asks for
a directory. -/
def steps (path : String) : List String :=
  let names := (splitAt (· = '/') path.toList).filter (· ≠ [])
  let final := if path.toList.getLast? = some '/' then [['.']] else []
  (names ++ final).map String.ofList

/-- A path and the paths of the directories it lies in, from the inside out. -/
def chain (path : List Char) : List (List Char) :=
  let outer := dropSlashes (front path)
  if _shorter : outer.length < path.length then
    if outer = [] then [path] else path :: chain outer
  else [path]
  termination_by path.length

end CompiledScript.Path
