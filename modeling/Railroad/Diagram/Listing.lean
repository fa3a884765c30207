import Railroad.Diagram.Visitor

/-!
# Listings

Visitors that pick out one kind of node: the tokens, their texts, the number of empty segments, and
the pairs of roles of the loops. For a list of diagrams, which of them are equal.
-/

namespace Railroad

namespace Listing

/-- Lists every token. -/
def tokens : Visitor (List Token) where
  token := fun t met => met ++ [t]

/-- Lists the text of every token. -/
def tokenTexts : Visitor (List String) where
  token := fun t texts => texts ++ [t.text]

/-- Counts the empty segments. -/
def emptySegments : Visitor Nat where
  nothing := fun count => count + 1

/-- Lists the kinds of body and delimiter of every loop, an outer loop before the inner ones. -/
def loopRoles : Visitor (List (Diagram.Kind × Diagram.Kind)) where
  loop := fun body delimiter walk roles => walk (roles ++ [(body.kind, delimiter.kind)])

/-- The wording of a pair of roles. -/
def rolesText (roles : Diagram.Kind × Diagram.Kind) : String :=
  roles.1.name ++ "/" ++ roles.2.name

/-- For each diagram of a list, where the first diagram equal to it stands. -/
def firstEqual (ds : List Diagram) : List Nat :=
  ds.map fun d => ds.idxOf d

/-- The number of different diagrams in a list. -/
def distinctCount (ds : List Diagram) : Nat :=
  ds.eraseDups.length

end Listing

/-- The tokens of a diagram in the order of a visit. -/
def Diagram.tokens (d : Diagram) : List Token :=
  Listing.tokens.visit d []

end Railroad
