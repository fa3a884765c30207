import Railroad.Deriving.Implementation

/-!
# Derived implementations written out

What `combine`, `variant_arm` and `expand` quote: a derived implementation as source text, token by
token. Marks of several characters are several tokens.

* `Implementation.spelling` are the tokens, `Implementation.text` puts a space between them.
-/

namespace Railroad.Deriving

/-- A path from the root of all names. -/
def path (words : List String) : List String :=
  words.flatMap fun word => [":", ":", word]

/-- Items with a comma between two of them. -/
def commaSeparated : List (List String) → List String
  | [] => []
  | [item] => item
  | item :: next :: rest => item ++ "," :: commaSeparated (next :: rest)

/-- The capability of being drawn. -/
def capability : List String := path ["railkit", "Railroadable"]

/-- Tokens between parentheses. -/
def inParentheses (tokens : List String) : List String :=
  "(" :: tokens ++ [")"]

/-- Tokens between braces. -/
def inBraces (tokens : List String) : List String :=
  "\x7b" :: tokens ++ ["\x7d"]

/-! ## Bodies -/

/-- A member as it is written. -/
def Member.spelling : Member → String
  | .named name => name.spelling
  | .index place => toString place

/-- The expression that reaches a field. -/
def Access.spelling : Access → List String
  | .member m => ["&", "self", ".", m.spelling]
  | .bound name => [name.spelling]

/-- The call that draws a field. -/
def call (field : Access) : List String :=
  capability ++ [":", ":", "create_railroad"]
    ++ inParentheses (field.spelling ++ [",", optionsName.spelling])

/-- The call that makes a diagram of the drawings of several fields. -/
def gathered (maker : String) (fields : List Access) : List String :=
  path ["railkit", "Component", maker]
    ++ inParentheses ("[" :: commaSeparated (fields.map call) ++ ["]"])

/-- A body written out. -/
def Body.spelling : Body → List String
  | .token kind text =>
    path ["railkit", "Component", "token"]
      ++ inParentheses (path ["railkit", "TokenKind", kind.name] ++ [",", text.spelling])
  | .nothing => path ["railkit", "Component", "Nothing"]
  | .one field => call field
  | .sequence fields => gathered "then" fields
  | .choice fields => gathered "or" fields

/-- The name of a variant. -/
def variantPath (variant : Ident) : List String :=
  ["Self", ":", ":", variant.spelling]

/-- A pattern written out. -/
def Pattern.spelling : Pattern → List String
  | .unit variant => variantPath variant
  | .named variant bindings =>
    variantPath variant
      ++ inBraces (bindings.flatMap (fun name => [name.spelling, ","]) ++ [".", "."])
  | .tuple variant slots =>
    variantPath variant
      ++ inParentheses (commaSeparated (slots.map fun slot =>
        [(slot.map (·.spelling)).getD "_"]))
  | .anyTuple variant => variantPath variant ++ inParentheses [".", "."]

/-- An arm written out. -/
def Arm.spelling (arm : Arm) : List String :=
  arm.pattern.spelling ++ ["=", ">"] ++ arm.body.spelling ++ [","]

/-- A method written out. -/
def Method.spelling : Method → List String
  | .direct body => body.spelling
  | .cases arms => ["match", "self"] ++ inBraces (arms.flatMap (·.spelling))
  | .impossible => ["match", "*", "self"] ++ inBraces []

/-! ## Parameters -/

/-- Bounds after a colon; no bounds need no colon. -/
def boundsSpelling (bounds : List TokenTree) : List String :=
  if bounds.isEmpty then [] else ":" :: TokenTree.spellings bounds

/-- The parameter is a lifetime. -/
def isLifetime : Parameter → Bool
  | .lifetime _ _ _ => true
  | _ => false

/-- A parameter as it is declared, without its default. -/
def declared : Parameter → List String
  | .lifetime attributes name bounds =>
    TokenTree.spellings attributes ++ ["'" ++ name.spelling] ++ boundsSpelling bounds
  | .type attributes name bounds =>
    TokenTree.spellings attributes ++ [name.spelling] ++ boundsSpelling bounds
  | .const attributes name type =>
    TokenTree.spellings attributes ++ ["const", name.spelling, ":"] ++ TokenTree.spellings type

/-- A parameter as it is used. -/
def used : Parameter → List String
  | .lifetime _ name _ => ["'" ++ name.spelling]
  | .type _ name _ => [name.spelling]
  | .const _ name _ => [name.spelling]

/-- The parameters, each with whether a comma follows it. -/
def withCommas (parameters : CommaList Parameter) : List (Parameter × Bool) :=
  let last := parameters.items.length - 1
  parameters.items.mapIdx fun place parameter => (parameter, place ≠ last || parameters.trailing)

/-- Parameters one after the other, each with its own comma. -/
def run (write : Parameter → List String) (parameters : List (Parameter × Bool)) : List String :=
  parameters.flatMap fun p => write p.1 ++ if p.2 then [","] else []

/-- Parameters between angle brackets, lifetimes first. No parameters need no brackets. -/
def parameterList (write : Parameter → List String) (parameters : CommaList Parameter) :
    List String :=
  if parameters.items.isEmpty then []
  else
    let all := withCommas parameters
    let lifetimes := all.filter fun p => isLifetime p.1
    let others := all.filter fun p => !isLifetime p.1
    let closed := (lifetimes.getLast?.map (·.2)).getD true
    let between := if closed || others.isEmpty then [] else [","]
    "<" :: run write lifetimes ++ between ++ run write others ++ [">"]

/-! ## Predicates -/

/-- The predicate that a type can be drawn. -/
def bound (type : List TokenTree) : List String :=
  TokenTree.spellings type ++ ":" :: capability

/-- The predicates of the declaration and those that drawing adds. -/
def predicateList (predicates : CommaList (List TokenTree)) (bounds : List (List TokenTree)) :
    List String :=
  let all := predicates.items.map TokenTree.spellings ++ bounds.map bound
  if all.isEmpty then []
  else
    let comma := if bounds.isEmpty && predicates.trailing then [","] else []
    "where" :: commaSeparated all ++ comma

/-! ## The whole -/

/-- The tokens of an implementation. -/
def Implementation.spelling (i : Implementation) : List String :=
  "impl" :: parameterList declared i.parameters ++ capability ++ ["for", i.name.spelling]
    ++ parameterList used i.parameters ++ predicateList i.predicates i.bounds
    ++ inBraces (
      ["#", "[", "allow", "(", "unused_variables", ")", "]", "fn", "create_railroad"]
        ++ inParentheses (["&", "self", ",", optionsName.spelling, ":", "&"]
          ++ path ["railkit", "Options"])
        ++ ["-", ">"] ++ path ["railkit", "Component"] ++ inBraces i.method.spelling)

/-- An implementation as source text. -/
def Implementation.text (i : Implementation) : String :=
  String.intercalate " " i.spelling

end Railroad.Deriving
