/-
FluidScss/Discover.lean

Finding style sheet sources.  Below each directory given, all files with the
ending of sources are found, except those in a directory that is passed over
and those whose normal path is excluded.  They come in the order of their
components, which is the order of a walk that takes the entries of every
directory by name.  A path found is spelled as its directory was.
-/
import FluidScss.Names
import FluidScss.Workspace

namespace FluidScss

/-- The directories that are passed over wherever they stand. -/
def skippedDirs : List Text := ["node_modules", ".git"]

/-- Whether an entry below a directory is a source to be found. -/
def isSourceEntry (found : Place × Entry) : Bool :=
  match found with
  | (_, .directory) => false
  | (parts, .file _) =>
    (parts.getLast?.any fun name => sheetEnding.isSuffixOf name)
      && parts.dropLast.all fun name => name ∉ skippedDirs

/-- The sources below a directory, in order. -/
def sourcesBelow (t : FileTree) (dir : Path) : List Path :=
  match t.locate dir with
  | .error _ => []
  | .ok place =>
    if t.isDirectory dir then
      ((((t.below place).filter isSourceEntry).map Prod.fst).mergeSort Place.le).map
        fun parts => { dir with parts := dir.parts ++ parts }
    else []

/-- The sources below the directories, but for those excluded, whose normal
paths are given. -/
def discoverIn (t : FileTree) (dirs excluded : List Path) : List Path :=
  dirs.flatMap fun dir => (sourcesBelow t dir).filter fun p => p.normalize ∉ excluded

/-- The sources below the directories, but for those excluded. -/
def discover (dirs exclude : List Path) : Action (List Path) := do
  let excluded ← exclude.mapM Action.normalize
  return discoverIn (← Action.tree) dirs excluded

end FluidScss
