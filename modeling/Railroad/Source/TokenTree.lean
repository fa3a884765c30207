import Railroad.Source.Scan

/-!
# Token trees

Model of `TokenStream` and `TokenTree`: the lexemes of a source text with everything between two
matching delimiters gathered into a group.

* `TokenTree.ofLexemes?` matches the delimiters.
* `TokenTree.spelling` gives the lexemes of a tree back as they are written; trees that differ only
  in position and spacing are spelled alike.
* `TokenTree.layout` tells apart marks that another mark follows at once; trees that differ only in
  position are laid out alike.
* `TokenTree.idents` are the words at any depth, those of lifetimes included.
-/

namespace Railroad

/-- A lexeme, or the trees between two matching delimiters. -/
inductive TokenTree where
  | ident (i : Ident) (place : Position)
  | lifetime (i : Ident) (place : Position)
  | literal (l : Literal) (place : Position)
  | mark (c : Char) (joint : Bool) (place : Position)
  | group (d : Delimiter) (inner : List TokenTree) (opened closed : Position)

namespace TokenTree

/-- Where a tree begins. -/
def position : TokenTree → Position
  | .ident _ p => p
  | .lifetime _ p => p
  | .literal _ p => p
  | .mark _ _ p => p
  | .group _ _ p _ => p

/-- The tree is the given mark. -/
def isMark (c : Char) : TokenTree → Bool
  | .mark d _ _ => d = c
  | _ => false

/-- The tree is a word spelled as given. -/
def isWord (word : String) : TokenTree → Bool
  | .ident i _ => i = ⟨false, word⟩
  | _ => false

/-! ## Matching delimiters -/

/-- A group whose end has not been met: its delimiter, where it begins, and the trees in front of
it, the last one first. -/
structure Open where
  delimiter : Delimiter
  opened : Position
  before : List TokenTree

/-- Matches the delimiters of lexemes, given the trees read in the innermost open group, the last
one first, and the open groups, the innermost first. -/
def gather : List TokenTree → List Open → List Lexeme → Except Lexeme.Fault (List TokenTree)
  | trees, [], [] => .ok trees.reverse
  | _, innermost :: _, [] => .error ⟨innermost.opened⟩
  | trees, groups, .ident i p :: rest => gather (.ident i p :: trees) groups rest
  | trees, groups, .lifetime i p :: rest => gather (.lifetime i p :: trees) groups rest
  | trees, groups, .literal l p :: rest => gather (.literal l p :: trees) groups rest
  | trees, groups, .mark c joint p :: rest => gather (.mark c joint p :: trees) groups rest
  | trees, groups, .opening d p :: rest => gather [] (⟨d, p, trees⟩ :: groups) rest
  | _, [], .closing _ p :: _ => .error ⟨p⟩
  | trees, innermost :: groups, .closing d p :: rest =>
    if d = innermost.delimiter then
      gather (.group d trees.reverse innermost.opened p :: innermost.before) groups rest
    else .error ⟨p⟩

/-- The trees of lexemes. -/
def ofLexemes? (lexemes : List Lexeme) : Except Lexeme.Fault (List TokenTree) :=
  gather [] [] lexemes

end TokenTree

/-! ## Spelling -/

/-- The opening delimiter as it is written. -/
def Delimiter.opening : Delimiter → String
  | .parenthesis => "("
  | .bracket => "["
  | .brace => "\x7b"

/-- The closing delimiter as it is written. -/
def Delimiter.closing : Delimiter → String
  | .parenthesis => ")"
  | .bracket => "]"
  | .brace => "\x7d"

namespace TokenTree

mutual

/-- The lexemes of a tree as they are written. -/
def spelling : TokenTree → List String
  | .ident i _ => [i.spelling]
  | .lifetime i _ => ["'" ++ i.spelling]
  | .literal l _ => [l.spelling]
  | .mark c _ _ => [String.singleton c]
  | .group d inner _ _ => d.opening :: spellings inner ++ [d.closing]

/-- The lexemes of several trees as they are written. -/
def spellings : List TokenTree → List String
  | [] => []
  | t :: rest => spelling t ++ spellings rest

end

mutual

/-- The lexemes of a tree as they are written, each with whether a mark follows it at once. -/
def layout : TokenTree → List (String × Bool)
  | .ident i _ => [(i.spelling, false)]
  | .lifetime i _ => [("'" ++ i.spelling, false)]
  | .literal l _ => [(l.spelling, false)]
  | .mark c joint _ => [(String.singleton c, joint)]
  | .group d inner _ _ => (d.opening, false) :: layouts inner ++ [(d.closing, false)]

/-- The lexemes of several trees as they are written, each with whether a mark follows it at
once. -/
def layouts : List TokenTree → List (String × Bool)
  | [] => []
  | t :: rest => layout t ++ layouts rest

end

mutual

theorem map_fst_layout : ∀ t : TokenTree, (layout t).map (·.1) = spelling t
  | .ident _ _ => rfl
  | .lifetime _ _ => rfl
  | .literal _ _ => rfl
  | .mark _ _ _ => rfl
  | .group d inner _ _ => by simp [layout, spelling, map_fst_layouts inner]

/-- Trees that are laid out alike are spelled alike. -/
theorem map_fst_layouts : ∀ ts : List TokenTree, (layouts ts).map (·.1) = spellings ts
  | [] => rfl
  | t :: rest => by simp [layouts, spellings, map_fst_layout t, map_fst_layouts rest]

end

mutual

/-- The number of lexemes of a tree, where the two delimiters of a group count as one. -/
def size : TokenTree → Nat
  | .ident _ _ => 1
  | .lifetime _ _ => 1
  | .literal _ _ => 1
  | .mark _ _ _ => 1
  | .group _ inner _ _ => 1 + sizes inner

/-- The number of lexemes of several trees. -/
def sizes : List TokenTree → Nat
  | [] => 0
  | t :: rest => size t + sizes rest

end

mutual

/-- The words of a tree at any depth. -/
def idents : TokenTree → List Ident
  | .ident i _ => [i]
  | .lifetime i _ => [i]
  | .literal _ _ => []
  | .mark _ _ _ => []
  | .group _ inner _ _ => identsAll inner

/-- The words of several trees at any depth. -/
def identsAll : List TokenTree → List Ident
  | [] => []
  | t :: rest => idents t ++ identsAll rest

end

theorem identsAll_eq_flatMap (ts : List TokenTree) : identsAll ts = ts.flatMap idents := by
  induction ts with
  | nil => rfl
  | cons t rest ih => simp [identsAll, ih]

end TokenTree

end Railroad
