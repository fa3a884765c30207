import Railroad.Source.TokenTree

/-!
# Data type declarations

What `expand` is given (`DeriveInput`). What a source text says about one data type: its name, its
parameters and their predicates, and the fields of a struct or of each variant of an enum, all with
their attributes. Types, bounds and predicates are kept as token trees, since nothing here depends
on what they mean.
-/

namespace Railroad

/-- What follows the path of an attribute. -/
inductive Attribute.Argument where
  /-- Nothing. -/
  | absent
  /-- An equals sign at this position, and a value. -/
  | assigned (equals : Position)
  /-- Trees between delimiters, and where the closing one stands. -/
  | list (content : List TokenTree) (closing : Position)

/-- An attribute of a declaration, a variant or a field. -/
structure Attribute where
  /-- Where the attribute begins. -/
  hash : Position
  /-- The word that is its whole path, if the path is a single word. -/
  name : Option Ident
  /-- Where the first word of the path stands. -/
  path : Position
  /-- What follows the path. -/
  argument : Attribute.Argument

/-- A field of a struct or variant. -/
structure Field where
  attributes : List Attribute
  /-- The declared type. -/
  type : List TokenTree

/-- The fields of a struct or variant. -/
inductive Fields where
  /-- No fields, and no delimiters for them. -/
  | unit
  /-- Fields with names. -/
  | named (fields : List (Ident × Field))
  /-- Fields told apart by their place. -/
  | tuple (fields : List Field)

/-- A variant of an enum. -/
structure Variant where
  attributes : List Attribute
  name : Ident
  fields : Fields

/-- A parameter of a declaration, with its attributes and without its default. -/
inductive Parameter where
  | lifetime (attributes : List TokenTree) (name : Ident) (bounds : List TokenTree)
  | type (attributes : List TokenTree) (name : Ident) (bounds : List TokenTree)
  | const (attributes : List TokenTree) (name : Ident) (type : List TokenTree)

/-- Things separated by commas. -/
structure CommaList (α : Type) where
  items : List α
  /-- A comma follows the last item. -/
  trailing : Bool

/-- What a declaration declares. -/
inductive Declaration.Body where
  | struct (fields : Fields)
  | enum (variants : List Variant)
  /-- A union, and where that word stands. -/
  | union (keyword : Position)

/-- The declaration of a data type. -/
structure Declaration where
  attributes : List Attribute
  name : Ident
  parameters : CommaList Parameter
  /-- The predicates on the parameters. -/
  predicates : CommaList (List TokenTree)
  body : Declaration.Body

/-- The names of the type parameters. -/
def Declaration.typeParameters (d : Declaration) : List Ident :=
  d.parameters.items.filterMap fun
    | .type _ name _ => some name
    | _ => none

end Railroad
