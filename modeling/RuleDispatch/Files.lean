import RuleDispatch.Keyed

/-! # Files

What a program finds under a path, and a folder with everything in it, so that a path can be
followed without a disk. A path that leads through something that is not there finds nothing; a path
that leads through a file, or to a folder, finds something that cannot be read as text. So does a
path with a name that is too long, or that is too long itself.

* `Found` — what stands under a path; `Found.ofBytes` decides whether bytes are text.
* `Folder` — a folder; `Folder.root` holds what stands at the root of every system.
* `Folder.find` — what a path leads to from a folder. -/

namespace RuleDispatch

/-- What is **found** under a path. -/
inductive Found where
  /-- Nothing. -/
  | missing
  /-- Something, but no text. -/
  | unreadable
  /-- A text. -/
  | text (content : String)
deriving DecidableEq, Repr

/-- The **content of a file**: text, if its bytes are text. -/
def Found.ofBytes (bytes : ByteArray) : Found :=
  match String.fromUTF8? bytes with
  | some content => .text content
  | none => .unreadable

/-- The bytes of a text are that text. -/
@[simp] theorem Found.ofBytes_toUTF8 (s : String) : Found.ofBytes s.toUTF8 = .text s := by
  have h : String.fromUTF8? s.toUTF8 = some s := by
    unfold String.fromUTF8?
    rw [String.toUTF8_eq_toByteArray, dif_pos s.isValidUTF8]
    rfl
  rw [ofBytes, h]

/-- What **stands at a place** of a folder. -/
inductive Item where
  | folder
  | file (content : ByteArray)

/-- A **folder**: what stands at its places, each place given by the names on the way. A folder that
other places lie in need not be listed. -/
abbrev Folder := List (List String × Item)

namespace Folder

/-- The parts of a path. -/
def parts (path : String) : List String :=
  (path.toList.splitOn '/').map String.ofList

/-- The folder with the items under the given paths. -/
def ofPaths (items : Keyed Item) : Folder :=
  items.map fun (path, item) => (parts path, item)

/-- The item **at a place**. -/
def item? (f : Folder) (place : List String) : Option Item :=
  match f.lookup place with
  | some item => some item
  | none => if place = [] ∨ f.any (place.isPrefixOf ·.1) then some .folder else none

/-- The number of bytes that a name must not exceed. -/
def nameLimit : Nat :=
  255

/-- The number of bytes that a path must not exceed. -/
def pathLimit : Nat :=
  4095

/-- What stands **at the root** of every system: some folders, and an empty file among the devices. -/
def root : Folder :=
  [(["bin"], .folder), (["dev", "null"], .file .empty), (["etc"], .folder), (["proc"], .folder),
   (["tmp"], .folder), (["usr"], .folder), (["var"], .folder)]

/-- The **way along a path** from a place in the folder, `none` standing for the folders around it,
in which nothing is found. Two dots lead back to the folder around a place, and from the folder
itself to `around`. -/
def follow (f : Folder) (around : Option (List String)) : Option (List String) → List String → Found
  | none, [] => .unreadable
  | none, part :: rest =>
    if part = "" ∨ part = "." ∨ part = ".." then follow f around none rest
    else if nameLimit < part.utf8ByteSize then .unreadable
    else .missing
  | some place, parts =>
    match f.item? place, parts with
    | none, _ => .missing
    | some (.file content), [] => .ofBytes content
    | some (.file _), _ :: _ => .unreadable
    | some .folder, [] => .unreadable
    | some .folder, part :: rest =>
      if part = "" ∨ part = "." then follow f around (some place) rest
      else if part = ".." then
        follow f around (if place = [] then around else some place.dropLast) rest
      else if nameLimit < part.utf8ByteSize then .unreadable
      else follow f around (some (place ++ [part])) rest

/-- What a path **leads to** from the folder. A path that starts with a slash starts at the root,
around which there is the root again; a path with a null character is none. -/
def find (f : Folder) (path : String) : Found :=
  if path.toList.contains '\x00' ∨ pathLimit < path.utf8ByteSize then .unreadable
  else if path = "" then .missing
  else if path.front = '/' then follow root (some []) (some []) (parts path)
  else follow f none (some []) (parts path)

end Folder

end RuleDispatch
