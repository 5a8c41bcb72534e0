/-
FluidScss/FileTree.lean

File trees.  A tree is a list of places with what stands there, a directory
or a file with its bytes; a place is the list of components from the root,
and the root is always a directory.

A path leads to a place as an operating system would find it: component by
component, each but the last a directory, and a double dot going up from a
directory that exists.  So `a/../b` leads nowhere unless `a` is a directory,
and a path through a file leads nowhere either (`walk`).

Trees have directories and files and nothing else: there are no links, so each
place is reached in one way, and nothing is closed to anyone.  Names are texts,
and a tree keeps them at any length.  What a system has to say of a name that
is too long for it, when it is asked whether something stands there, is
`refuses`.

What is read, written and made by path is here; the order of entries in the
list shows nowhere, for listings are sorted.
-/
import FluidScss.Path
import FluidScss.Text.Utf8

namespace FluidScss

/-- A place in a tree: the components from the root. -/
abbrev Place := List Text

/-- Files are compared byte by byte. -/
instance (priority := high) decidableEqBytes : DecidableEq ByteArray := fun a b =>
  decidable_of_iff (a.data = b.data) ⟨ByteArray.ext, congrArg ByteArray.data⟩

/-- What stands at a place. -/
inductive Entry
  | directory
  | file (bytes : ByteArray)
deriving DecidableEq

/-- Why the system refuses. -/
inductive SystemFault
  | notFound
  | alreadyExists
  | notDirectory
  | isDirectory
  | nameTooLong
deriving DecidableEq

/-- Places and what stands there, each place once. -/
structure FileTree where
  entries : List (Place × Entry) := []

namespace FileTree

/-! ### Places -/

/-- What stands at a place. -/
def find? (t : FileTree) (place : Place) : Option Entry :=
  if place = [] then some .directory else t.entries.lookup place

/-- The list of entries with one of them set. -/
def setEntry (entries : List (Place × Entry)) (place : Place) (e : Entry) :
    List (Place × Entry) :=
  match entries with
  | [] => [(place, e)]
  | (p, d) :: rest => if p = place then (p, e) :: rest else (p, d) :: setEntry rest place e

/-- The tree with one entry set. -/
def set (t : FileTree) (place : Place) (e : Entry) : FileTree := ⟨setEntry t.entries place e⟩

theorem lookup_setEntry (entries : List (Place × Entry)) (place : Place) (e : Entry)
    (p : Place) :
    (setEntry entries place e).lookup p = if p = place then some e else entries.lookup p := by
  induction entries with
  | nil =>
    by_cases h : p = place
    · simp [setEntry, h]
    · have hb : (p == place) = false := by simpa using h
      simp [setEntry, h, List.lookup_cons, hb]
  | cons entry rest ih =>
    obtain ⟨q, d⟩ := entry
    by_cases hq : q = place
    · subst hq
      by_cases hp : p = q
      · simp [setEntry, hp]
      · have hb : (p == q) = false := by simpa using hp
        simp [setEntry, hp, List.lookup_cons, hb]
    · simp only [setEntry, hq, if_false, List.lookup_cons]
      by_cases hp : p = q
      · have hb : (p == q) = true := by simpa using hp
        have hne : p ≠ place := fun h => hq (hp ▸ h)
        simp [hb, hne]
      · have hb : (p == q) = false := by simpa using hp
        simp [hb, ih]

/-- Setting an entry changes its place and no other. -/
theorem find?_set (t : FileTree) {place : Place} (hplace : place ≠ []) (e : Entry) (p : Place) :
    (t.set place e).find? p = if p = place then some e else t.find? p := by
  by_cases h : p = []
  · subst h
    have : ¬ ([] : Place) = place := fun e => hplace e.symm
    simp [find?, this]
  · simp [find?, h, set, lookup_setEntry]

/-! ### Following a path -/

/-- The place that components lead to from a place. -/
def walk (t : FileTree) (here : Place) : List Text → Except SystemFault Place
  | [] => .ok here
  | part :: parts =>
    match t.find? here with
    | some .directory =>
      let next := if part = ['.', '.'] then here.dropLast else here ++ [part]
      if (t.find? next).isSome then t.walk next parts else .error .notFound
    | some (.file _) => .error .notDirectory
    | none => .error .notFound

/-- The place that a path leads to. -/
def locate (t : FileTree) (p : Path) : Except SystemFault Place := t.walk [] p.parts

/-- The place that a path names in a directory that exists, whether or not
something stands there. -/
def slot (t : FileTree) (p : Path) : Except SystemFault Place :=
  match p.parts.getLast? with
  | none => .ok []
  | some part =>
    match t.locate p.parent with
    | .error e => .error e
    | .ok here =>
      match t.find? here with
      | some .directory => .ok (if part = ['.', '.'] then here.dropLast else here ++ [part])
      | some (.file _) => .error .notDirectory
      | none => .error .notFound

/-- What a path leads to. -/
def entryAt (t : FileTree) (p : Path) : Except SystemFault Entry :=
  match t.locate p with
  | .error e => .error e
  | .ok place =>
    match t.find? place with
    | some e => .ok e
    | none => .error .notFound

/-- Whether a path leads to something. -/
def has (t : FileTree) (p : Path) : Bool := (t.entryAt p).toOption.isSome

/-- Whether a path leads to a directory. -/
def isDirectory (t : FileTree) (p : Path) : Bool :=
  match t.entryAt p with
  | .ok .directory => true
  | _ => false

/-- Whether a path leads to a file. -/
def isFile (t : FileTree) (p : Path) : Bool :=
  match t.entryAt p with
  | .ok (.file _) => true
  | _ => false

/-! ### Names that are too long -/

/-- The most bytes that a system takes for a name. -/
def maxNameBytes : Nat := 255

/-- The most bytes that a system takes for a path. -/
def maxPathBytes : Nat := 4095

/-- Whether components lead from a place to a name that is too long, where
nothing stands, and through directories up to there. -/
def stopsAtLongName (t : FileTree) (here : Place) : List Text → Bool
  | [] => false
  | part :: parts =>
    match t.find? here with
    | some .directory =>
      let next := if part = ['.', '.'] then here.dropLast else here ++ [part]
      if (t.find? next).isSome then t.stopsAtLongName next parts
      else maxNameBytes < (Text.encode part).size
    | _ => false

/-- Whether the system, asked what stands at a path, refuses to look: nothing
stands there, and the path or a name that it comes to is too long.  A path with
the NUL character is not asked for. -/
def refuses (t : FileTree) (p : Path) : Bool :=
  !p.hasNul && !t.has p
    && (maxPathBytes < (Text.encode p.toText).size || t.stopsAtLongName [] p.parts)

/-! ### Reading and writing -/

/-- The bytes of the file that a path leads to. -/
def readBytes (t : FileTree) (p : Path) : Except SystemFault ByteArray :=
  match t.entryAt p with
  | .ok (.file bytes) => .ok bytes
  | .ok .directory => .error .isDirectory
  | .error e => .error e

/-- The tree with the bytes written to a path; the directory must exist. -/
def writeBytes (t : FileTree) (p : Path) (bytes : ByteArray) : Except SystemFault FileTree :=
  match t.slot p with
  | .error e => .error e
  | .ok place =>
    match t.find? place with
    | some .directory => .error .isDirectory
    | _ => .ok (t.set place (.file bytes))

/-- The tree with one directory made; the one around it must exist. -/
def makeDirectory (t : FileTree) (p : Path) : Except SystemFault FileTree :=
  match t.slot p with
  | .error e => .error e
  | .ok place =>
    match t.find? place with
    | some _ => .error .alreadyExists
    | none => .ok (t.set place .directory)

/-! ### Branches -/

/-- The tree without a place and all below it. -/
def prune (t : FileTree) (place : Place) : FileTree :=
  ⟨t.entries.filter fun (p, _) => !place.isPrefixOf p⟩

/-- The tree without all that is below a place. -/
def clear (t : FileTree) (place : Place) : FileTree :=
  ⟨t.entries.filter fun (p, _) => p = place || !place.isPrefixOf p⟩

/-- The entries below a place, with their components from there. -/
def below (t : FileTree) (place : Place) : List (Place × Entry) :=
  t.entries.filterMap fun (p, e) =>
    match Path.dropParts? place p with
    | some (part :: parts) => some (part :: parts, e)
    | _ => none

end FileTree

/-- The order of places: component by component, by code points. -/
def Place.le : Place → Place → Bool
  | [], _ => true
  | _ :: _, [] => false
  | p :: ps, q :: qs => if p = q then Place.le ps qs else Text.le p q

end FluidScss
