set_option autoImplicit false

/-!
# Variables

A printed value is a tree: scalars hold their text, aggregates hold members.  An aggregate is an
object if each of its members was printed with a name, and an array otherwise; members without a
name are named by their place.
-/

namespace DebugConsole

/-- What a scalar's text is. -/
inductive ScalarKind where
  | integer
  | float
  | string
  /-- a text that is kept as it was printed -/
  | raw
  deriving DecidableEq, Repr

/-- How an aggregate's members are named. -/
inductive Shape where
  /-- some member, at least, by its place -/
  | array
  /-- each by the name it was printed with -/
  | object
  deriving DecidableEq, Repr

/-- A named value. -/
inductive Variable where
  | scalar (name : String) (kind : ScalarKind) (text : String)
  | aggregate (name : String) (shape : Shape) (members : List Variable)
  deriving Repr

namespace Variable

/-- The name of a variable. -/
def name : Variable → String
  | scalar name _ _ => name
  | aggregate name _ _ => name

/-- The same value under another name. -/
def rename (name : String) : Variable → Variable
  | scalar _ kind text => scalar name kind text
  | aggregate _ shape members => aggregate name shape members

/-- The members of an aggregate; a scalar has none. -/
def members : Variable → List Variable
  | scalar .. => []
  | aggregate _ _ members => members

@[simp] theorem name_rename (name : String) (v : Variable) : (v.rename name).name = name := by
  cases v <;> rfl

@[simp] theorem members_rename (name : String) (v : Variable) :
    (v.rename name).members = v.members := by
  cases v <;> rfl

mutual

/-- The number of variables in the tree. -/
def count : Variable → Nat
  | scalar .. => 1
  | aggregate _ _ members => 1 + countAll members

/-- The number of variables in a list of trees. -/
def countAll : List Variable → Nat
  | [] => 0
  | v :: vs => count v + countAll vs

end

end Variable

end DebugConsole
