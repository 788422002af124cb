/-!
# Symbols of normalized formulas

Normalized formula text writes every operator and constant as one reserved character, its glyph.
`Connective` holds the binary connectives, grouped by binding strength into the three families of
`Family`; `Operator` adds negation; `Symbol` adds the two constants. `keywordTable` lists the words
that stand for symbols in text that is not normalized yet, and `keyword?` looks a word up.
-/

namespace Sentential

/-- Binding strengths of binary connectives. -/
inductive Family where
  | equality
  | disjunction
  | conjunction
  deriving DecidableEq

/-- The families from the loosest to the tightest; a loose connective ends up outermost. -/
def Family.looseFirst : List Family := [.equality, .disjunction, .conjunction]

/-- The numeric strength of a family; the larger, the looser. -/
def Family.strength : Family → Nat
  | .equality => 8
  | .disjunction => 4
  | .conjunction => 2

/-- Binary connectives. -/
inductive Connective where
  | and
  | or
  | xor
  | implies
  | equals
  | notEquals
  deriving DecidableEq

namespace Connective

/-- Every connective. -/
def all : List Connective := [.and, .or, .xor, .implies, .equals, .notEquals]

/-- The reserved character of a connective. -/
def glyph : Connective → Char
  | .and => '∧'
  | .or => '∨'
  | .xor => '⊕'
  | .implies => '→'
  | .equals => '='
  | .notEquals => '≠'

/-- The family of a connective. -/
def family : Connective → Family
  | .and => .conjunction
  | .or | .xor | .implies => .disjunction
  | .equals | .notEquals => .equality

/-- The name of a connective in log messages. -/
def kindName : Connective → String
  | .and => "AND"
  | .or => "OR"
  | .xor => "XOR"
  | .implies => "IMPLIES"
  | .equals => "EQUALS"
  | .notEquals => "NOT_EQUALS"

/-- The name of the node that a connective builds. -/
def nodeName : Connective → String
  | .and => "And"
  | .or => "Or"
  | .xor => "Xor"
  | .implies => "Implies"
  | .equals => "Equals"
  | .notEquals => "NotEquals"

/-- The connective of a glyph. -/
def ofGlyph? (c : Char) : Option Connective := all.find? fun op => op.glyph == c

theorem mem_all (op : Connective) : op ∈ all := by cases op <;> decide

/-- A glyph names its own connective. -/
theorem ofGlyph?_glyph (op : Connective) : ofGlyph? op.glyph = some op := by
  cases op <;> decide

/-- Only its glyph names a connective. -/
theorem glyph_of_ofGlyph? {c : Char} {op : Connective} (h : ofGlyph? c = some op) :
    op.glyph = c := by
  simpa using List.find?_some h

end Connective

/-- Operators: negation and the binary connectives. -/
inductive Operator where
  | negation
  | binary (op : Connective)
  deriving DecidableEq

namespace Operator

/-- Every operator. -/
def all : List Operator := .negation :: Connective.all.map .binary

/-- The reserved character of an operator. -/
def glyph : Operator → Char
  | .negation => '¬'
  | .binary op => op.glyph

/-- The number of operands. -/
def arity : Operator → Nat
  | .negation => 1
  | .binary _ => 2

/-- The numeric binding strength; negation binds tightest. -/
def strength : Operator → Nat
  | .negation => 0
  | .binary op => op.family.strength

/-- The name of the node that an operator builds. -/
def nodeName : Operator → String
  | .negation => "Not"
  | .binary op => op.nodeName

/-- The operator of a glyph. -/
def ofGlyph? (c : Char) : Option Operator := all.find? fun op => op.glyph == c

end Operator

/-- The opening parenthesis of a group. -/
def openParen : Char := '('

/-- The closing parenthesis of a group. -/
def closeParen : Char := ')'

/-- The quotation mark of quoted names. -/
def quoteMark : Char := '\x60'

/-- The glyph of a constant. -/
def constGlyph : Bool → Char
  | true => '⊤'
  | false => '⊥'

/-- What a reserved character stands for: a constant or an operator. -/
inductive Symbol where
  | const (value : Bool)
  | operator (op : Operator)
  deriving DecidableEq

/-- The reserved character of a symbol. -/
def Symbol.glyph : Symbol → Char
  | .const value => constGlyph value
  | .operator op => op.glyph

/-- Every symbol. -/
def Symbol.all : List Symbol := [.const true, .const false] ++ Operator.all.map .operator

theorem Symbol.mem_all (s : Symbol) : s ∈ Symbol.all := by
  rcases s with value | op
  · cases value <;> decide
  · rcases op with _ | op
    · decide
    · cases op <;> decide

/-- Reserved characters: the glyphs of the symbols. -/
def isReserved (c : Char) : Bool := Symbol.all.any fun s => s.glyph == c

/-- The words that stand for symbols, in lower case. -/
def keywordTable : List (String × Symbol) :=
  [("and", .operator (.binary .and)), ("not", .operator .negation),
    ("or", .operator (.binary .or)), ("xor", .operator (.binary .xor)),
    ("imply", .operator (.binary .implies)), ("implies", .operator (.binary .implies)),
    ("equals", .operator (.binary .equals)), ("notequals", .operator (.binary .notEquals)),
    ("true", .const true), ("false", .const false)]

/-- The symbol of a keyword; the spelling must agree letter by letter, case included. -/
def keyword? (word : String) : Option Symbol := keywordTable.lookup word

end Sentential
