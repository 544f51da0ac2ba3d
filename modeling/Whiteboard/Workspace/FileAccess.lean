/-!
# Whiteboard — access to files

`FileAccess` is what the commands ask of the place they run in. Every call either
succeeds as a whole or fails and changes nothing; `none` and `false` say that it
failed. Files are named by paths, which the place resolves.
-/

namespace Whiteboard.Workspace

/-- Effects that reach files. -/
class FileAccess (m : Type → Type) where
  /-- The content of a file. -/
  read : String → m (Option ByteArray)
  /-- Whether a path leads to a file or a directory. -/
  isPresent : String → m Bool
  /-- Puts a content into a file, which is created if there is none. -/
  write : String → ByteArray → m Bool
  /-- Moves a file to another path, where it takes the place of a file. -/
  rename : String → String → m Bool
  /-- The content of the nearest file of a name, in the working directory or above. -/
  nearest : String → m (Option ByteArray)
  /-- All that standard input holds. -/
  standardInput : m (Option ByteArray)

end Whiteboard.Workspace
