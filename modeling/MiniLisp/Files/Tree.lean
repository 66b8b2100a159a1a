import MiniLisp.Table
import MiniLisp.Text.Line

/-! # Trees of files

The files that a program can see are data: a table of contents by location. A location is the list
of names on the way to a file from the directory that the program runs in; it begins with double
dots if the way leads up from there first, and with a slash if it begins at the root. Directories
exist when something lies below them or when they are listed, and so do the root and those on the
way up. Devices take what is written to them and keep nothing, so that nothing is read from them.
-/

namespace MiniLisp

structure Path where
  /-- How many slashes the path begins with: two only if its text begins with exactly two. -/
  slashes : Nat
  parts : List String
deriving DecidableEq, Repr

namespace Path

/-- Empty parts and single dots say nothing and are dropped. A double dot stays, since what it means
depends on the directories that it stands in. -/
def ofString (text : String) : Path :=
  let chars := text.toList
  let leading := (chars.takeWhile (· = '/')).length
  let parts := (chars.splitOnP (· = '/')).filter fun part => part ≠ [] ∧ part ≠ ['.']
  { slashes := if leading ≤ 2 then leading else 1
    parts := parts.map String.ofList }

/-- The path that says nothing is written as a dot. -/
def text (p : Path) : String :=
  let written := "".pushn '/' p.slashes ++ "/".intercalate p.parts
  if written.isEmpty then "." else written

def child (p : Path) (name : String) : Path :=
  { p with parts := p.parts ++ [name] }

example : (ofString "./p//s/").text = "p/s" ∧ (ofString "./").text = "." := by decide +kernel

end Path

abbrev Location := List String

structure FileTree where
  files : Table Location ByteArray := {}
  directories : List Location := []
  devices : List Location := []

/-- Why a file cannot be read or written. -/
inductive FileError where
  | missing
  | isDirectory
  /-- Something on the way to the file is no directory. -/
  | notDirectory
  | nameTooLong
  /-- Paths are written with a null character at their end, so that none can stand within. -/
  | nullInName
  /-- The bytes are no UTF-8 text. -/
  | badEncoding
deriving DecidableEq, Repr

def FileError.message : FileError → String
  | .missing => "no such file or directory"
  | .isDirectory => "is a directory"
  | .notDirectory => "not a directory"
  | .nameTooLong => "file name too long"
  | .nullInName => "embedded null byte"
  | .badEncoding => "not UTF-8 text"

namespace FileTree

/-- All that is known to exist. -/
def locations (t : FileTree) : List Location :=
  t.files.keys ++ t.directories ++ t.devices

def isFile (t : FileTree) (l : Location) : Bool :=
  t.files.contains l

def isDirectory (t : FileTree) (l : Location) : Bool :=
  l.all (· = "..") || l = ["/"] || t.directories.contains l ||
    t.locations.any fun k => l.isPrefixOf k && k ≠ l

/-- The names in a directory, in the order of their characters. -/
def names (t : FileTree) (l : Location) : List String :=
  let below := t.locations.filterMap fun k =>
    if l.isPrefixOf k then (k.drop l.length).head? else none
  below.eraseDups.mergeSort (· ≤ ·)

/-- The location that a double dot leads to from a location, which is given with its last name
first. The root is its own parent. -/
def parent : List String → List String
  | ["/"] => ["/"]
  | here => if here.all (· = "..") then ".." :: here else here.drop 1

/-- How many bytes a name may have. -/
def longestName : Nat := 255

/-- How many bytes the text of a path may have. -/
def longestPath : Nat := 4095

/-- Follows parts from a location, given with its last name first. Every location on the way has to
be a directory; the last one need not exist. -/
def follow (t : FileTree) : List String → List String → Except FileError Location
  | here, [] => .ok here.reverse
  | here, part :: rest =>
    let l := here.reverse
    if !t.isDirectory l then
      .error (if t.isFile l || t.devices.contains l then .notDirectory else .missing)
    else if part = ".." then t.follow (parent here) rest
    else if longestName < part.utf8ByteSize then .error .nameTooLong
    else t.follow (part :: here) rest

/-- The location that a path begins at. -/
def origin (p : Path) : Location :=
  if p.slashes = 0 then [] else ["/"]

/-- Whether a text can be the path of a file at all. -/
def checkText (text : String) : Except FileError Unit :=
  if text.toList.contains '\x00' then .error .nullInName
  else if longestPath < text.utf8ByteSize then .error .nameTooLong
  else .ok ()

/-- Where a path leads. -/
def locate (t : FileTree) (p : Path) : Except FileError Location := do
  checkText p.text
  t.follow (origin p) p.parts

/-- The text of a file, with all line ends alike. -/
def readText (t : FileTree) (p : Path) : Except FileError String :=
  match t.locate p with
  | .error reason => .error reason
  | .ok l =>
    match t.files.find? l with
    | some bytes =>
      match String.fromUTF8? bytes with
      | some text => .ok (String.ofList (Text.unifyLineEnds text.toList))
      | none => .error .badEncoding
    | none =>
      if t.devices.contains l then .ok ""
      else .error (if t.isDirectory l then .isDirectory else .missing)

/-- Where a path leads when each double dot takes back the part before it, whatever exists. -/
def simplify (p : Path) : Location :=
  (p.parts.foldl (fun here part => if part = ".." then parent here else part :: here)
    (origin p)).reverse

/-- Makes sure that a file can be written at the end, and gives its location. -/
def openToAppend (t : FileTree) (p : Path) : Except FileError (Location × FileTree) := do
  let simple := simplify p
  checkText ("/".intercalate simple)
  let l ← t.follow [] simple
  if t.isDirectory l then throw .isDirectory
  else if t.isFile l || t.devices.contains l then pure (l, t)
  else pure (l, { t with files := t.files.insert l .empty })

/-- Writes at the end of an open file. -/
def append (t : FileTree) (l : Location) (text : String) : FileTree :=
  match t.files.find? l with
  | some before => { t with files := t.files.insert l (before ++ text.toUTF8) }
  | none => t

end FileTree

/-- Directories that every host has. -/
def hostDirectories : List Location :=
  ["bin", "dev", "etc", "home", "lib", "opt", "proc", "root", "sys", "tmp", "usr", "var"].map
    (["/", ·])

/-- Devices that every host has. -/
def hostDevices : List Location :=
  [["/", "dev", "null"]]

def FileTree.onHost (t : FileTree) : FileTree :=
  { t with
    directories := t.directories ++ hostDirectories
    devices := t.devices ++ hostDevices }

end MiniLisp
