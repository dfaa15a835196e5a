/-
Module: CLike.CommandLine.Folder
Layer: Command line
Purpose: A folder of source files that is held in memory, so that commands can be carried out
  without a disk.
Main exports: Folder, Folder.read, Folder.carryOut
-/
import CLike.CommandLine.Report

namespace CLike

/-- A folder with files and with empty folders.  It lies somewhere in a tree of which nothing else
is known. -/
structure Folder where
  files : List (String × ByteArray)
  folders : List String

namespace Folder

/-- Where a path can lead: above the folder, to the folder itself, to one of the folders in it, or
to a file. -/
inductive Place where
  | above
  | here
  | inside
  | file (content : ByteArray)

/-- The longest name that can be looked up, in bytes. -/
def longestName : Nat := 255

/-- The longest path that can be walked, in bytes. -/
def longestPath : Nat := 4095

/-- Goes from a place to what a name there stands for. -/
def enter (folder : Folder) (place : Place) (name : String) : Except ReadFailure Place :=
  match place with
  | .file _ => .error .notFolder
  | place =>
    if name = "" ∨ name = "." then .ok place
    else if name = ".." then
      match place with
      | .inside => .ok .here
      | _ => .ok .above
    else if name.utf8ByteSize > longestName then .error .nameTooLong
    else
      match place, folder.files.lookup name with
      | .here, some content => .ok (.file content)
      | .here, none => if folder.folders.contains name then .ok .inside else .error .notFound
      | _, _ => .error .notFound

/-- The content of the file that a path leads to.  The path is walked name by name. -/
def read (folder : Folder) (path : String) : Except ReadFailure ByteArray := do
  if path = "" then throw .notFound
  if path.utf8ByteSize > longestPath then throw .nameTooLong
  let start := if path.toList.head? = some '/' then Place.above else Place.here
  match ← (path.splitOn "/").foldlM folder.enter start with
  | .file content => return content
  | _ => throw .isFolder

/-- Carries out the command that some arguments ask for. -/
def carryOut (folder : Folder) (arguments : List String) : Report :=
  (Command.ofArguments arguments).report (m := Id) folder.read

end Folder

end CLike
