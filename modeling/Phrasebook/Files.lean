import Phrasebook.Failure
import Phrasebook.Text.Split
import Phrasebook.Tree

/-!
# Files

The part of a file system that bundles are read from: directories with named entries, and files
with bytes. A path that starts with slashes leads on from the top directory, any other from the
directory in which the program works. Empty and single-dot components of a path do not count and are
not shown; a double dot leads to the directory above and is shown. Above the top directory there is
only the top directory again.

Names and paths have a greatest length, counted in bytes.
-/

namespace Phrasebook

/-- A file or a directory. -/
inductive FileTree where
  | file (content : List UInt8)
  | directory (entries : List (String × FileTree))
deriving Inhabited

/-! ## Paths -/

/-- A path: the slashes that it starts from, if any, and the names on the way. -/
structure Path where
  root : String := ""
  components : List String
deriving Repr, DecidableEq, Inhabited

namespace Path

/-- The slashes that a path starts from. Two stay two, any other number counts as one. -/
def rootOf (s : List Char) : String :=
  match s.takeWhile (· = '/') with
  | [] => ""
  | ['/', '/'] => "//"
  | _ => "/"

/-- Reads a path. -/
def ofString (s : String) : Path :=
  let parts := (Text.split ['/'] s.toList).map String.ofList
  { root := rootOf s.toList, components := parts.filter fun p => p != "" && p != "." }

/-- How a path is shown. -/
def text (p : Path) : String :=
  if p.root = "" && p.components.isEmpty then "."
  else p.root ++ "/".intercalate p.components

/-- The path of an entry of the directory. -/
def child (p : Path) (name : String) : Path :=
  { p with components := p.components ++ [name] }

/-- The most bytes that a path may have. -/
def maxBytes : Nat := 4095

/-- The most bytes that a name in a path may have. -/
def maxNameBytes : Nat := 255

end Path

/-! ## Names of files -/

/-- Stem and suffix of a name. The suffix starts at the last dot; a dot at either end starts
none. -/
def splitName (name : String) : String × String :=
  let s := name.toList
  let after := (s.reverse.takeWhile (· != '.')).reverse
  let before := s.take (s.length - after.length - 1)
  if after.length = s.length || before.isEmpty || after.isEmpty then (name, "")
  else (String.ofList before, String.ofList ('.' :: after))

example : splitName "en.US.yml" = ("en.US", ".yml") := by decide +kernel
example : splitName ".yml" = (".yml", "") := by decide +kernel
example : splitName "en." = ("en.", "") := by decide +kernel

/-! ## Looking up and adding -/

namespace FileTree

/-- Follows components from a place whose directories above are given, nearest first. Above the top
is the top. Where nothing is, the names after it do not matter, however long. -/
def walk? : List FileTree → FileTree → List String → Except Mishap (Option FileTree)
  | _, here, [] => .ok (some here)
  | _, .file _, _ :: _ => .ok none
  | above, .directory entries, ".." :: rest =>
    match above with
    | [] => walk? [] (.directory entries) rest
    | parent :: further => walk? further parent rest
  | above, .directory entries, name :: rest =>
    if Path.maxNameBytes < name.utf8ByteSize then .error .nameTooLong
    else
      match valueUnder? name entries with
      | none => .ok none
      | some next => walk? (.directory entries :: above) next rest

/-- Puts a file or directory at the end of a row of components; missing directories on the way are
made, and a directory that is there keeps its entries. -/
def putAt (new : FileTree) : List String → FileTree → FileTree
  | [], old =>
    match new, old with
    | .directory [], .directory entries => .directory entries
    | _, _ => new
  | name :: rest, .directory entries =>
    let old := (valueUnder? name entries).getD (.directory [])
    .directory (putEntry name (putAt new rest old) entries)
  | _ :: _, old => old

/-- Puts a file or directory at a path. -/
def put (root : FileTree) (p : Path) (new : FileTree) : FileTree :=
  putAt new p.components root

/-- Whether a name leads on from a directory that has it: it is no double dot and not too long. -/
def LeadsOn (name : String) : Prop := name ≠ ".." ∧ name.utf8ByteSize ≤ Path.maxNameBytes

theorem walk?_of_leadsOn {name : String} {entries : List (String × FileTree)} {next : FileTree}
    (h : LeadsOn name) (hnext : valueUnder? name entries = some next) (above : List FileTree)
    (rest : List String) : walk? above (.directory entries) (name :: rest)
      = walk? (.directory entries :: above) next rest := by
  rw [walk?, if_neg (Nat.not_lt.2 h.2), hnext]
  exact h.1

/-- The directory from which a row of names leads to a file or directory, and no other names lead
anywhere. -/
def under (here : FileTree) : List String → FileTree
  | [] => here
  | name :: rest => .directory [(name, here.under rest)]

theorem walk?_under {names : List String} (h : ∀ name ∈ names, LeadsOn name) (here : FileTree)
    (above : List FileTree) : walk? above (here.under names) names = .ok (some here) := by
  induction names generalizing above with
  | nil => rw [under, walk?]
  | cons name rest ih =>
    obtain ⟨hname, hrest⟩ := List.forall_mem_cons.1 h
    have hnext : valueUnder? name [(name, here.under rest)] = some (here.under rest) := if_pos rfl
    rw [under, walk?_of_leadsOn hname hnext]
    exact ih hrest _

end FileTree

/-! ## File systems -/

/-- All files that there are, from the top on, and the names that lead to the directory in which the
program works. -/
structure FileSystem where
  top : FileTree
  working : List String := []
deriving Inhabited

namespace FileSystem

/-- The names that lead from the top to where a path leads. -/
def fromTop (files : FileSystem) (p : Path) : List String :=
  if p.root = "" then files.working ++ p.components else p.components

/-- The file or directory at a path, if there is one. No path with a null character leads
anywhere. -/
def find? (files : FileSystem) (p : Path) : Except Mishap (Option FileTree) :=
  if p.text.toList.contains '\x00' then .ok none
  else if Path.maxBytes < p.text.utf8ByteSize then .error .nameTooLong
  else FileTree.walk? [] files.top (files.fromTop p)

/-- A tree by itself, as the directory of this name at the top, in which the program works. -/
def workingIn (name : String) (here : FileTree) : FileSystem where
  top := here.under [name]
  working := [name]

instance : Coe FileTree FileSystem := ⟨workingIn "work"⟩

/-- **Every path of names can lead to anything**, be it from the top or from a directory in which
the program works. -/
theorem exists_find?_eq_some {p : Path} {working : List String} (hnull : '\x00' ∉ p.text.toList)
    (hbytes : p.text.utf8ByteSize ≤ Path.maxBytes)
    (hnames : ∀ name ∈ p.components, FileTree.LeadsOn name)
    (hworking : ∀ name ∈ working, FileTree.LeadsOn name) (here : FileTree) :
    ∃ top, FileSystem.find? { top, working } p = .ok (some here) := by
  refine ⟨here.under (fromTop { top := here, working } p), ?_⟩
  rw [find?, if_neg (by simpa using hnull), if_neg (Nat.not_lt.2 hbytes)]
  refine FileTree.walk?_under (fun name hname => ?_) here []
  rw [fromTop] at hname
  split at hname
  · exact (List.mem_append.1 hname).elim (hworking name) (hnames name)
  · exact hnames name hname

end FileSystem

end Phrasebook
