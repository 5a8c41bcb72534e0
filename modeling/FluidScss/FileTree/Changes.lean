/-
FluidScss/FileTree/Changes.lean

What work on a file tree changed: the files that are new or hold other bytes,
the directories that are new, and the places where nothing stands any more.
-/
import FluidScss.FileTree

namespace FluidScss

/-- The changes from one tree to another, in the order of places. -/
structure TreeChanges where
  written : List (Place × ByteArray)
  made : List Place
  removed : List Place

namespace FileTree

/-- Places in order. -/
def sortPlaces (places : List Place) : List Place := places.mergeSort Place.le

/-- The files of `after` that are not the same in `before`. -/
def writtenSince (before after : FileTree) : List (Place × ByteArray) :=
  after.entries.filterMap fun (place, e) =>
    match e with
    | .file bytes => if before.find? place = some e then none else some (place, bytes)
    | .directory => none

/-- The directories of `after` that are none in `before`. -/
def madeSince (before after : FileTree) : List Place :=
  (after.entries.filter fun (place, e) =>
    e = .directory && before.find? place ≠ some .directory).map Prod.fst

/-- The places of `before` where nothing stands in `after`. -/
def removedSince (before after : FileTree) : List Place :=
  (before.entries.filter fun (place, _) => (after.find? place).isNone).map Prod.fst

/-- What changed from one tree to another. -/
def changes (before after : FileTree) : TreeChanges where
  written := before.writtenSince after
  made := sortPlaces (before.madeSince after)
  removed := sortPlaces (before.removedSince after)

end FileTree

/-- One component up. -/
def upwards : Text := ['.', '.']

/-- The way from one place to another: up to where both part, and down
again. -/
def Place.wayFrom (root place : Place) : List Text :=
  match root, place with
  | r :: root, p :: place =>
    if r = p then Place.wayFrom root place
    else List.replicate (root.length + 1) upwards ++ p :: place
  | root, place => List.replicate root.length upwards ++ place

/-- A place as seen from another; seen from itself it is a dot. -/
def Place.seenFrom (root place : Place) : Text :=
  Path.toText ⟨.relative, Place.wayFrom root place⟩

end FluidScss
