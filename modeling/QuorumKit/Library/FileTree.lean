/-
A directory tree under deletion, hard links and the creation of directories.

A path is the list of its components below the root of the tree.  Every file
carries a value that says what is known of its content.  A deletion removes a
file or an empty directory and leaves a directory that is not empty alone.
-/

import QuorumKit.Library.FileSystem

namespace QuorumKit
namespace Library

abbrev Path := List String

structure FileTree (C : Type) where
  files : List (Path × C) := []
  dirs : List Path := []
deriving DecidableEq, Repr

namespace FileTree

variable {C : Type}

def file (tree : FileTree C) (path : Path) : Option C := tree.files.lookup path

def isDir (tree : FileTree C) (path : Path) : Bool := path = [] ∨ path ∈ tree.dirs

def hasChild (tree : FileTree C) (path : Path) : Bool :=
  tree.files.any (fun entry => entry.1.dropLast = path) ∨
    tree.dirs.any (fun dir => dir.dropLast = path)

def topLevel (tree : FileTree C) : List Path :=
  (tree.files.map Prod.fst ++ tree.dirs).filter (fun path => path.length = 1)

def delete (tree : FileTree C) (path : Path) : FileTree C :=
  if (tree.file path).isSome then
    { tree with files := tree.files.filter (fun entry => entry.1 ≠ path) }
  else if path ∈ tree.dirs ∧ ¬ tree.hasChild path then
    { tree with dirs := tree.dirs.filter (fun dir => dir ≠ path) }
  else tree

/-- The file of a path is created, or opened for writing and truncated. -/
def openFile (tree : FileTree C) (path : Path) (content : C) : Option (FileTree C) :=
  if tree.isDir path.dropLast ∧ path ∉ tree.dirs then
    some { tree with
      files := (path, content) :: tree.files.filter (fun entry => entry.1 ≠ path) }
  else none

def link {S : Type} (source : FileTree S) (tree : FileTree C) (path : Path) (content : C) :
    Option (FileTree C) :=
  if (source.file path).isSome ∧ (tree.file path).isNone then tree.openFile path content
  else none

def makeDirectory (tree : FileTree C) (path : Path) : Bool × FileTree C :=
  if tree.isDir path then (true, tree)
  else if (tree.file path).isNone ∧ tree.isDir path.dropLast then
    (true, { tree with dirs := path :: tree.dirs })
  else (false, tree)

def makeDirectories : List Path → FileTree C → Bool × FileTree C
  | [], tree => (true, tree)
  | path :: rest, tree =>
      match tree.makeDirectory path with
      | (true, tree) => makeDirectories rest tree
      | (false, tree) => (false, tree)

def ancestors (path : Path) : List Path := path.dropLast.inits.tail

theorem file_delete (tree : FileTree C) (gone path : Path) :
    (tree.delete gone).file path = if path = gone then none else tree.file path := by
  unfold delete
  by_cases present : (tree.file gone).isSome
  · rw [if_pos present]
    have filtered := lookup_filter_key tree.files (fun key => decide (key ≠ gone)) path
    change (tree.files.filter (fun entry => entry.1 ≠ gone)).lookup path = _
    rw [filtered]
    by_cases same : path = gone
    · simp [same]
    · simp [same, file]
  · have absent : tree.file gone = none := Option.not_isSome_iff_eq_none.mp present
    rw [if_neg present]
    have unchanged : tree.file path = if path = gone then none else tree.file path := by
      by_cases same : path = gone
      · rw [if_pos same, same, absent]
      · rw [if_neg same]
    split
    · exact unchanged
    · exact unchanged

theorem file_foldl_delete (paths : List Path) (tree : FileTree C) (path : Path) :
    (paths.foldl delete tree).file path =
      if path ∈ paths then none else tree.file path := by
  induction paths generalizing tree with
  | nil => simp
  | cons gone rest ih =>
      rw [List.foldl_cons, ih, file_delete]
      by_cases later : path ∈ rest
      · simp [later]
      · by_cases same : path = gone
        · simp [same]
        · simp [later, same]

theorem file_openFile {tree opened : FileTree C} {path : Path} {content : C}
    (success : tree.openFile path content = some opened) (other : Path) :
    opened.file other = if other = path then some content else tree.file other := by
  unfold openFile at success
  split at success
  · cases success
    change List.lookup other ((path, content) ::
      tree.files.filter (fun entry => entry.1 ≠ path)) = _
    have filtered := lookup_filter_key tree.files (fun key => decide (key ≠ path)) other
    by_cases same : other = path
    · simp [same]
    · have skip : (other == path) = false := by simpa using same
      rw [List.lookup_cons, skip]
      simp only [filtered, same, if_false]
      simp [same, file]
  · cases success

theorem file_link {S : Type} {source : FileTree S} {tree linked : FileTree C} {path : Path}
    {content : C}
    (success : source.link tree path content = some linked) (other : Path) :
    linked.file other = if other = path then some content else tree.file other := by
  unfold link at success
  split at success
  · exact file_openFile success other
  · cases success

theorem link_present {S : Type} {source : FileTree S} {tree linked : FileTree C} {path : Path}
    {content : C}
    (success : source.link tree path content = some linked) :
    (source.file path).isSome := by
  unfold link at success
  split at success
  case isTrue ready => exact ready.1
  case isFalse => cases success

theorem file_makeDirectory (tree : FileTree C) (path other : Path) :
    (tree.makeDirectory path).2.file other = tree.file other := by
  unfold makeDirectory
  split
  · rfl
  · split
    · rfl
    · rfl

theorem file_makeDirectories (paths : List Path) (tree : FileTree C) (other : Path) :
    (makeDirectories paths tree).2.file other = tree.file other := by
  induction paths generalizing tree with
  | nil => rfl
  | cons path rest ih =>
      have created := file_makeDirectory tree path other
      unfold makeDirectories
      split
      case h_1 after made =>
        rw [ih, ← created, made]
      case h_2 after failed =>
        rw [← created, failed]

end FileTree

end Library
end QuorumKit
