/-
# Files

A path is cut into its parts at slashes; parts that are empty or a single point count for nothing.
A directory is seen as the function that says what stands at a path.
-/
import ContractInterface.Bytes
import ContractInterface.Text.Basic
import ContractInterface.Text.Quoted

namespace ContractInterface

/-- What stands at a path. -/
inductive Node where
  | missing
  | folder
  | file (contents : Bytes)
  /-- A part of the path that should be a folder is a file. -/
  | blocked
deriving DecidableEq, Repr

/-- Why a file cannot be read or written. -/
inductive FileError where
  | notFound (path : String)
  | isFolder (path : String)
  | notFolder (path : String)
deriving DecidableEq, Repr

/-- The wording of an error. -/
def FileError.message : FileError → String
  | .notFound path => "[Errno 2] No such file or directory: " ++ Text.quoted path
  | .isFolder path => "[Errno 21] Is a directory: " ++ Text.quoted path
  | .notFolder path => "[Errno 20] Not a directory: " ++ Text.quoted path

namespace Files

/-- The parts of a path that count. -/
def parts (path : String) : List String :=
  ((Text.splitAt '/' path.toList).filter fun part => part ≠ [] ∧ part ≠ ['.']).map String.ofList

/-- What an absolute path begins with: one slash, or exactly two, which count as another root. -/
def root (path : String) : String :=
  match path.toList with
  | '/' :: '/' :: '/' :: _ => "/"
  | '/' :: '/' :: _ => "//"
  | '/' :: _ => "/"
  | _ => ""

/-- The path of parts under a root; the path to the current folder is a point. -/
def ofParts (root : String) : List String → String
  | [] => if root = "" then "." else root
  | parts => root ++ "/".intercalate parts

/-- A path without the parts that count for nothing. -/
def normalize (path : String) : String :=
  ofParts (root path) (parts path)

/-- The path to the folder that holds a path. -/
def parent (path : String) : String :=
  ofParts (root path) (parts path).dropLast

/-- The parts of a path in which each part that leads up is taken together with the part before
it.  Those that are done come first, the last of them in front.  At the front of an absolute path
nothing leads up. -/
def straightParts (absolute : Bool) : List String → List String → List String
  | base, [] => base.reverse
  | base, part :: rest =>
    if part = ".." then
      match base with
      | [] => straightParts absolute (if absolute then [] else [".."]) rest
      | ".." :: base => straightParts absolute (".." :: ".." :: base) rest
      | _ :: base => straightParts absolute base rest
    else straightParts absolute (part :: base) rest

/-- The shortest path that is spelled like a path, whatever stands there. -/
def straighten (path : String) : String :=
  ofParts (root path) (straightParts (root path ≠ "") [] (parts path))

/-- The shortest path to what stands at a path, if it lies inside the current folder. -/
def inside? (path : String) : Option String :=
  if root path = "" ∧ (parts (straighten path)).head? ≠ some ".." then some (straighten path)
  else none

/-- What stands at the end of a walk along parts, from a folder given by its own parts, the last
of them first.  Around the outermost folder, only the folders that it lies in are known. -/
def walk (files : List (List String × Bytes)) : List String → List String → Node
  | _, [] => .folder
  | base, part :: rest =>
    if part = ".." then
      match base with
      | [] => if rest.all (· = "..") then .folder else .missing
      | _ :: base => walk files base rest
    else
      let here := (part :: base).reverse
      match files.find? (·.1 = here) with
      | some (_, contents) => if rest.isEmpty then .file contents else .blocked
      | none =>
        if files.any fun (path, _) => here.isPrefixOf path && here.length < path.length then
          walk files (part :: base) rest
        else .missing

/-- What stands at the parts of an absolute path, as far as it is the same on every system: the
folders for devices and for temporary files, and the device that is always empty. -/
def system : List String → Node
  | [] | ["dev"] | ["tmp"] => .folder
  | ["dev", "null"] => .file []
  | "dev" :: "null" :: _ => .blocked
  | _ => .missing

/-- What stands at a path, where the current folder holds the given files, by path and contents. -/
def ofList (files : List (String × Bytes)) (path : String) : Node :=
  if root path = "" then
    walk (files.map fun (path, contents) => (parts path, contents)) [] (parts path)
  else system (parts path)

/-- What stands at a path once an empty file has been created at another one, given by its shortest
path. -/
def withFile (node : String → Node) (file : String) (path : String) : Node :=
  let all := parts path
  let leadsTo (front : List String) : Bool :=
    straighten (ofParts (root path) front) = file &&
      node (ofParts (root path) front.dropLast) = .folder
  match ((List.range all.length).map fun n => all.take (n + 1)).find? leadsTo with
  | some front => if front.length = all.length then .file [] else .blocked
  | none => node path

/-- The contents of a file. -/
def read (node : String → Node) (path : String) : Except FileError Bytes :=
  let path := normalize path
  match node path with
  | .file contents => .ok contents
  | .missing => .error (.notFound path)
  | .folder => .error (.isFolder path)
  | .blocked => .error (.notFolder path)

/-- Refuses a path at which no file can be written. -/
def checkWritable (node : String → Node) (path : String) : Except FileError Unit :=
  let path := normalize path
  match node path with
  | .file _ => .ok ()
  | .folder => .error (.isFolder path)
  | .blocked => .error (.notFolder path)
  | .missing =>
    match node (parent path) with
    | .folder => .ok ()
    | .file _ => .error (.notFolder path)
    | _ => .error (.notFound path)

end Files

end ContractInterface
