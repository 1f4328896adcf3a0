set_option autoImplicit false

/-!
# Paths of the host

A path is a root and components between slashes.  Repeated slashes and components that are a single
dot mean nothing and go; a component of two dots stays, because what it means depends on links.
Exactly two slashes at the start are a root of their own.
-/

namespace DebugConsole.Text

/-- A path: its root and its components. -/
structure Path where
  root : String
  components : List String
  deriving DecidableEq, Repr

namespace Path

/-- The root of a path. -/
def rootOf (s : String) : String :=
  match (s.toList.takeWhile (· == '/')).length with
  | 0 => ""
  | 2 => "//"
  | _ => "/"

/-- The components of a text that mean something. -/
def componentsOf (s : String) : List String :=
  (s.splitOn "/").filter fun component => component != "" && component != "."

/-- Reads a path. -/
def ofString (s : String) : Path := ⟨rootOf s, componentsOf s⟩

/-- The path of a file below a folder. -/
def below (folder : Path) (components : List String) : Path :=
  { folder with components := folder.components ++ components }

/-- The text of a path. -/
def toString (p : Path) : String := p.root ++ "/".intercalate p.components

end Path

end DebugConsole.Text
