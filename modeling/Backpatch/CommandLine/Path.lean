import Backpatch.Text.Split

/-!
# Paths

A path is followed part by part from the working directory or, when it starts with a slash, from the
root. The working directory holds plain files only. Of what lies outside, only landmarks are known:
directories that every system has, the devices that are empty, endless, full or absent, the standard
streams, and the ways back to the working directory. A plain name leads into the working directory
(`ofPath_name`).
-/

namespace Backpatch.CommandLine

/-- Why the system refuses to read or write what a path leads to. -/
inductive PathError where
  | missing
  | noDevice
  | outOfMemory
  | denied
  | notDirectory
  | isDirectory
  | noSpace
  | nameTooLong
  deriving DecidableEq, Repr

/-- The reason in the words of the system. -/
def PathError.reason : PathError → String
  | .missing => "No such file or directory (os error 2)"
  | .noDevice => "No such device or address (os error 6)"
  | .outOfMemory => "out of memory"
  | .denied => "Permission denied (os error 13)"
  | .notDirectory => "Not a directory (os error 20)"
  | .isDirectory => "Is a directory (os error 21)"
  | .noSpace => "No space left on device (os error 28)"
  | .nameTooLong => "File name too long (os error 36)"

/-- What a path can lead to besides a directory. -/
inductive Target where
  /-- A name in the working directory, of a file that is there or not. -/
  | inside (name : String)
  /-- A name elsewhere. No file is known there, and a new one is accepted and forgotten. -/
  | outside
  /-- A name of no file and for no file, with the reasons that refuse reading and writing. -/
  | absent (reading writing : PathError)
  /-- The terminal of the run, which has none. -/
  | terminal
  /-- Something that is empty, and takes whatever is written. -/
  | void
  /-- Something that never ends, and takes whatever is written. -/
  | endless
  /-- Something that never ends, and takes nothing. -/
  | full
  /-- The standard output. -/
  | output
  /-- The standard error. -/
  | error
  deriving DecidableEq, Repr

/-- A directory that a path can pass through. -/
inductive Folder where
  /-- The working directory itself. -/
  | working
  /-- The directory some steps up from it, of which nothing is known. -/
  | above (steps : Nat)
  /-- The directory that some names lead to from the root. -/
  | fixed (names : List String)
  deriving DecidableEq, Repr

/-- What a name stands for in a directory. -/
inductive Entry where
  | folder (folder : Folder)
  | target (target : Target)
  deriving DecidableEq, Repr

/-- The directories below the root that every system has. -/
def landmarkFolders : List (List String) :=
  [["bin"], ["boot"], ["dev"], ["dev", "pts"], ["dev", "shm"], ["etc"], ["home"], ["lib"], ["media"],
    ["mnt"], ["opt"], ["proc"], ["proc", "1"], ["proc", "self"], ["proc", "self", "fd"],
    ["proc", "self", "fdinfo"], ["proc", "self", "ns"], ["proc", "self", "task"], ["proc", "sys"],
    ["proc", "tty"], ["root"], ["run"], ["sbin"], ["srv"], ["sys"], ["sys", "block"], ["sys", "bus"],
    ["sys", "class"], ["sys", "dev"], ["sys", "devices"], ["sys", "firmware"], ["sys", "fs"],
    ["sys", "kernel"], ["sys", "module"], ["tmp"], ["usr"], ["usr", "bin"], ["usr", "lib"],
    ["usr", "local"], ["usr", "sbin"], ["usr", "share"], ["var"], ["var", "cache"], ["var", "lib"],
    ["var", "log"], ["var", "tmp"]]

/-- The devices, the streams and the ways back, each under the names that lead to it from the root.
Nothing comes in on the standard input. -/
def landmarks : List (List String × Entry) :=
  [(["dev", "null"], .target .void),
    (["dev", "zero"], .target .endless),
    (["dev", "random"], .target .endless),
    (["dev", "urandom"], .target .endless),
    (["dev", "full"], .target .full),
    (["dev", "tty"], .target .terminal),
    (["dev", "stdin"], .target .void),
    (["dev", "stdout"], .target .output),
    (["dev", "stderr"], .target .error),
    (["dev", "fd"], .folder (.fixed ["proc", "self", "fd"])),
    (["proc", "self", "fd", "0"], .target .void),
    (["proc", "self", "fd", "1"], .target .output),
    (["proc", "self", "fd", "2"], .target .error),
    (["proc", "self", "cwd"], .folder .working),
    (["proc", "self", "root"], .folder (.fixed []))]

/-- The entry at some names from the root, if it is known. -/
def landmark? (names : List String) : Option Entry :=
  if names ∈ landmarkFolders then some (.folder (.fixed names)) else landmarks.lookup names

namespace Folder

/-- The directory one step up. The working directory lies at most five steps below the root. -/
def parent : Folder → Folder
  | working => above 1
  | above steps => if steps < 4 then above (steps + 1) else fixed []
  | fixed names => fixed names.dropLast

/-- The meaning of a name in a directory where no landmark has it. A disk takes names of up to 255
bytes; the processes and the settings of the kernel take no new file, and names of any length. -/
def unknown (folder : Folder) (name : String) : Target :=
  match folder with
  | fixed ("proc" :: _) => .absent .missing .missing
  | fixed ("sys" :: _) => .absent .missing .denied
  | _ =>
    if 255 < name.utf8ByteSize then .absent .nameTooLong .nameTooLong
    else if folder = working then .inside name
    else .outside

/-- The meaning of a name in a directory. -/
def entry (folder : Folder) (name : String) : Entry :=
  match folder with
  | fixed names => (landmark? (names ++ [name])).getD (.target (folder.unknown name))
  | _ => .target (folder.unknown name)

end Folder

/-- Where a path leads. -/
inductive Place where
  /-- To a directory. -/
  | folder
  /-- To a target, with a slash behind its name or not. -/
  | target (target : Target) (slash : Bool)
  deriving DecidableEq, Repr

namespace Place

/-- Follows the parts of a path from a directory. A path goes on only behind a directory, and `find`
tells why a target is not there; one that is there is no directory. -/
def follow (find : Target → Except PathError Unit) (folder : Folder) :
    List String → Except PathError Place
  | [] => .ok .folder
  | part :: rest =>
    if part = "" ∨ part = "." then follow find folder rest
    else if part = ".." then follow find folder.parent rest
    else
      match folder.entry part with
      | .folder inner => follow find inner rest
      | .target reached =>
        if rest.all (· = "") then .ok (.target reached !rest.isEmpty)
        else do
          find reached
          .error .notDirectory

/-- Where a path leads. -/
def ofPath (find : Target → Except PathError Unit) (path : String) : Except PathError Place :=
  if path = "" then .error .missing
  else if 4096 ≤ path.utf8ByteSize then .error .nameTooLong
  else
    follow find (if path.toList.head? = some '/' then .fixed [] else .working)
      ((Text.splitOn '/' path.toList).map String.ofList)

/-- A plain name, without a slash and short enough, leads into the working directory. -/
theorem ofPath_name (find : Target → Except PathError Unit) {name : String} (hne : name ≠ "")
    (hdot : name ≠ ".") (hup : name ≠ "..") (hlen : name.utf8ByteSize ≤ 255) (hslash : '/' ∉ name.toList) :
    ofPath find name = .ok (.target (.inside name) false) := by
  have hsplit : Text.splitOn '/' name.toList = [name.toList] := Text.splitOn_of_not_mem hslash
  have hhead : name.toList.head? ≠ some '/' := fun h => hslash (List.mem_of_head? h)
  have hshort : ¬4096 ≤ name.utf8ByteSize := by omega
  have hfits : ¬255 < name.utf8ByteSize := by omega
  rw [ofPath, if_neg hne, if_neg hshort, if_neg hhead, hsplit]
  simp [follow, hne, hdot, hup, hfits, Folder.entry, Folder.unknown]

end Place

end Backpatch.CommandLine
