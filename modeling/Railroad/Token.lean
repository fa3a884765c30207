import Railroad.Refusal

/-!
# Tokens

Model of `TokenKind` and `Token`, the terminal elements of a diagram: a text and what it stands for.
Each kind has a numeric code (`TokenKind::code`), and outside readers may hand in a raw code, which
is checked (`TokenKind::from_code`).

* `TokenKind.ofCode_eq_ok_iff`: a code is accepted exactly when it is the code of the kind.
* `TokenKind.compare`: kinds are ordered by their codes.
-/

namespace Railroad

/-- What the text of a token stands for. -/
inductive TokenKind where
  /-- The name of a grammar rule. -/
  | production
  /-- A text matched as it is. -/
  | text
  /-- A text matched in upper or lower case. -/
  | anyCase
  /-- A remark, not matched at all. -/
  | description
  deriving DecidableEq

namespace TokenKind

/-- Every kind, in the order of the codes. -/
def all : List TokenKind :=
  [.production, .text, .anyCase, .description]

/-- The numeric code of a kind. -/
def code : TokenKind → Nat
  | .production => 1
  | .text => 2
  | .anyCase => 3
  | .description => 4

/-- The name of a kind as it is shown. -/
def name : TokenKind → String
  | .production => "Production"
  | .text => "Text"
  | .anyCase => "AnyCase"
  | .description => "Description"

/-- The kind with a given code, if there is one. -/
def ofCode (code : Int64) : Except Refusal TokenKind :=
  if code = 1 then .ok .production
  else if code = 2 then .ok .text
  else if code = 3 then .ok .anyCase
  else if code = 4 then .ok .description
  else .error (.unknownKindCode code)

/-- The kind with a given name, if there is one. -/
def ofName? (name : String) : Option TokenKind :=
  all.find? fun kind => kind.name == name

theorem ofCode_eq_ok_iff {code : Int64} {kind : TokenKind} :
    ofCode code = .ok kind ↔ code = Int64.ofNat kind.code := by
  constructor
  · intro h
    unfold ofCode at h
    repeat' split at h
    all_goals cases h
    all_goals assumption
  · rintro rfl
    cases kind <;> rfl

/-- Kinds are ordered by their codes. -/
def compare (a b : TokenKind) : Ordering :=
  Ord.compare a.code b.code

/-- The kinds in ascending order. -/
def sort (kinds : List TokenKind) : List TokenKind :=
  kinds.mergeSort fun a b => decide (a.code ≤ b.code)

/-- The greatest of the kinds, if there are any. -/
def greatest? : List TokenKind → Option TokenKind
  | [] => none
  | kind :: rest => some (rest.foldl (fun a b => if a.code ≤ b.code then b else a) kind)

end TokenKind

/-- A terminal element of a diagram. -/
structure Token where
  /-- What the text stands for. -/
  kind : TokenKind
  /-- The text itself. -/
  text : String
  deriving DecidableEq

namespace Token

/-- The token with a given kind code, refused if the code is unknown. -/
def ofCode (code : Int64) (text : String) : Except Refusal Token := do
  let kind ← TokenKind.ofCode code
  return ⟨kind, text⟩

/-- The name of a grammar rule. -/
def production (name : String) : Token := ⟨.production, name⟩

/-- A text matched as it is. -/
def literal (text : String) : Token := ⟨.text, text⟩

/-- A text matched in upper or lower case. -/
def anyCase (text : String) : Token := ⟨.anyCase, text⟩

/-- A remark. -/
def description (text : String) : Token := ⟨.description, text⟩

/-- The token laid out for inspection. -/
def outline (token : Token) : Outline :=
  .record "Token" ["kind", "text"] [.word token.kind.name, .quoted token.text]

end Token

end Railroad
