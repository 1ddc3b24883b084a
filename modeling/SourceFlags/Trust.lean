import SourceFlags.World.Basic

namespace SourceFlags

open Text

structure Trust where
  -- Absolute paths.
  directories : List String
  accepts : String → Bool

namespace Trust

def directory (w : World) (s : String) : String :=
  w.absoluteText (Path.expandHome w.home s)

def ofDirectories (w : World) (ds : List String) : Trust :=
  ⟨ds.map (directory w), fun _ => false⟩

def add (w : World) (t : Trust) (s : String) : Trust :=
  let d := directory w s
  if t.directories.contains d then t else { t with directories := t.directories ++ [d] }

def ofDirectoriesAt (w : World) (ds : List String) : Except Error Trust :=
  if ds.all fun s => w.reaches (Path.expandHome w.home s) then .ok (ofDirectories w ds)
  else .error .cwdGone

def addAt (w : World) (t : Trust) (s : String) : Except Error Trust :=
  w.about (Path.expandHome w.home s) (.ok (t.add w s))

def covers (d path : String) : Bool :=
  path == d || (Path.joinText d "").toList.isPrefixOf path.toList

def isTrusted (cwd : String) (t : Trust) (path : String) : Bool :=
  let path := Path.absoluteText cwd path
  t.directories.any (covers · path) || t.accepts path

def isTrustedAt (w : World) (t : Trust) (path : String) : Except Error Bool :=
  w.about path (.ok (t.isTrusted w.cwd path))

end Trust
end SourceFlags
