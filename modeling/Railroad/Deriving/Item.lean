import Railroad.Declaration.Basic
import Railroad.Deriving.Diagnosis

/-!
# The items of an attribute

Model of `parse_nested_meta` as `parse_shape` and `is_skipped` call it. The attribute that governs
drawings holds a list of items between commas, and several attributes add up. An item begins with a
path; what may follow the path depends on who reads it.

* `items` are the items of one attribute. A comma may follow the last item.
* `Item.path` reads the path of an item and leaves the trees after it.
-/

namespace Railroad.Deriving

/-- The attribute governs drawings. -/
def governs (a : Attribute) : Bool :=
  a.name = some ⟨false, "railroad"⟩

/-- The trees between two commas, and where they end. -/
structure Item where
  trees : List TokenTree
  /-- Where the comma or the closing delimiter after them stands. -/
  stop : Position
  /-- They are followed by the closing delimiter. -/
  last : Bool

namespace Item

/-- The trees between commas, the last ones before the delimiter at `closing`. -/
def split (closing : Position) : List TokenTree → List Item
  | [] => [⟨[], closing, true⟩]
  | .mark ',' _ comma :: rest => ⟨[], comma, false⟩ :: split closing rest
  | t :: rest =>
    match split closing rest with
    | [] => [⟨[t], closing, true⟩]
    | item :: items => { item with trees := t :: item.trees } :: items

/-- The items without an empty one at the end. -/
def dropEmptyLast : List Item → List Item
  | [] => []
  | [⟨[], _, _⟩] => []
  | item :: rest => item :: dropEmptyLast rest

/-- Where the trees go on, given those that are left of an item. -/
def next (item : Item) : List TokenTree → Position
  | [] => item.stop
  | t :: _ => t.position

/-- The list of items ends where no trees are left of the last item. -/
def ends (item : Item) (left : List TokenTree) : Bool :=
  item.last && left.isEmpty

/-- A rejection of the place where the trees go on. -/
def reject (item : Item) (left : List TokenTree) (complaint : Complaint) : Rejection :=
  .of complaint (item.next left)

/-- The path that an item begins with. -/
structure Path where
  /-- The first word. -/
  first : Ident
  /-- Where the first word stands. -/
  place : Position
  /-- The path is its first word and nothing else. -/
  single : Bool

/-- The word that a path is, or nothing if it is more than a word. -/
def Path.key (path : Path) : String :=
  if path.single then path.first.spelling else ""

/-- The trees after the words that follow the first word of a path, and whether there are such
words. -/
def pathTail (item : Item) : List TokenTree → Except Rejection (Bool × List TokenTree)
  | .mark ':' true _ :: .mark ':' _ _ :: .ident _ _ :: rest => do
    let (_, left) ← pathTail item rest
    return (true, left)
  | .mark ':' true _ :: .mark ':' _ _ :: rest =>
    .error (item.reject rest (.noWord (item.ends rest)))
  | rest => .ok (false, rest)

/-- The trees begin with a literal, which may be a negative number. -/
def beginsWithLiteral : List TokenTree → Bool
  | .literal _ _ :: _ => true
  | .mark '-' _ _ :: .literal l _ :: _ => l.form = .number
  | _ => false

/-- The path after two colons in front of it, if there were any. -/
def pathAfter (item : Item) (led : Bool) (trees : List TokenTree) :
    Except Rejection (Path × List TokenTree) :=
  match trees with
  | .ident i place :: rest => do
    let (longer, left) ← pathTail item rest
    return (⟨i, place, !led && !longer⟩, left)
  | rest =>
    if item.ends rest then .error (item.reject rest .noItem)
    else if beginsWithLiteral rest then .error (item.reject rest .literalItem)
    else .error (item.reject rest .otherItem)

/-- The path that an item begins with, and the trees after it. -/
def path (item : Item) : Except Rejection (Path × List TokenTree) :=
  match item.trees with
  | .mark ':' true _ :: .mark ':' _ _ :: rest => item.pathAfter true rest
  | rest => item.pathAfter false rest

/-- Nothing may be left of an item. -/
def finish (item : Item) : List TokenTree → Except Rejection Unit
  | [] => .ok ()
  | left => .error (item.reject left .noComma)

end Item

/-- The items of an attribute. -/
def items (a : Attribute) : Except Rejection (List Item) :=
  match a.argument with
  | .absent => .error (.of .noArguments a.path)
  | .assigned equals => .error (.of .assignedArguments equals)
  | .list content closing => .ok (Item.dropEmptyLast (Item.split closing content))

end Railroad.Deriving
