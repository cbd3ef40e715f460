import Cryptoki.Bytes

/-!
Files by their paths. A path is walked part by part, from the root or from the directory at
work, and what is found at its end is what a reader of the file gets.
-/
namespace Cryptoki.Vendor

inductive FileContent where
  | missing
  | directory
  | notDirectory
  | nameTooLong
  | bytes (b : Bytes)
  deriving DecidableEq, Repr

inductive Tree where
  | file (b : Bytes)
  | directory (entries : List (String × Tree))

namespace Tree

def longestName : Nat := 255

def longestPath : Nat := 4095

/-- Walks on from `here`, which the directories `above` lead to, the nearest first. The root is
above itself. -/
def walk (here : Tree) (above : List Tree) : List String → FileContent
  | [] =>
    match here with
    | .file b => .bytes b
    | .directory _ => .directory
  | part :: path =>
    match here with
    | .file _ => .notDirectory
    | .directory entries =>
      if part = "" ∨ part = "." then walk here above path
      else if part = ".." then
        match above with
        | [] => walk here [] path
        | up :: above => walk up above path
      else if longestName < part.utf8ByteSize then .nameTooLong
      else
        match entries.lookup part with
        | none => .missing
        | some next => walk next (here :: above) path

/-- What is found at a path. It starts at the root if it starts with a slash, else in a directory
at work that is right below the root and has no entries. -/
def find (root : Tree) (path : String) : FileContent :=
  if path = "" then .missing
  else if longestPath < path.utf8ByteSize then .nameTooLong
  else
    match path.splitOn "/" with
    | "" :: parts => walk root [] parts
    | parts => walk (.directory []) [root] parts

def bare : Tree :=
  .directory <| [("dev", .directory [("null", .file [])]),
    ("etc", .directory [
      ("hostname", .file (Bytes.ofString "localhost\n")),
      ("hosts", .file (Bytes.ofString "127.0.0.1 localhost\n")),
      ("passwd", .file (Bytes.ofString "root:x:0:0:root:/root:/bin/sh\n"))]),
    ("usr", .directory <| ["bin", "lib", "local", "share"].map (·, .directory [])),
    ("var", .directory <| ["lib", "log", "tmp"].map (·, .directory []))] ++
    ["bin", "boot", "home", "lib", "media", "mnt", "opt", "proc", "root", "run", "sbin", "srv",
      "sys", "tmp"].map (·, .directory [])

end Tree

end Cryptoki.Vendor
