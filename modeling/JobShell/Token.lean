/-!
# Tokens

What a command line is made of.

* `Operator` lists the operators by meaning; `Operator.symbol` is how each is written.
* `Token` is a word, an operator, a stretch of blanks (or a comment), or the end of the line.
* `Token.text` is the text a token stands for.
-/

namespace JobShell

/-! ## 1. Operators -/

/-- The operators. Only `<`, `>` and `&` mean something in a command; the others are recognised so
that they can be refused by name. -/
inductive Operator where
  | input
  | output
  | background
  | sequence
  | pipe
  | orElse
  | andThen
  | append
  | hereText
  deriving DecidableEq, Repr

namespace Operator

/-- How an operator is written. -/
def symbol : Operator → String
  | input => "<"
  | output => ">"
  | background => "&"
  | sequence => ";"
  | pipe => "|"
  | orElse => "||"
  | andThen => "&&"
  | append => ">>"
  | hereText => "<<"

/-- The operator that a single character stands for. -/
def ofChar? : Char → Option Operator
  | '<' => some input
  | '>' => some output
  | '&' => some background
  | ';' => some sequence
  | '|' => some pipe
  | _ => none

/-- The operator made of a doubled character; a semicolon cannot be doubled. -/
def doubled? : Operator → Option Operator
  | input => some hereText
  | output => some append
  | background => some andThen
  | pipe => some orElse
  | _ => none

/-- **The symbol tells the operator.** -/
theorem symbol_injective {a b : Operator} (h : a.symbol = b.symbol) : a = b := by
  cases a <;> cases b <;> first | rfl | exact absurd h (by decide)

/-- A character operator is written as its character. -/
theorem symbol_of_ofChar? {c : Char} {o : Operator} (h : ofChar? c = some o) :
    o.symbol = String.singleton c := by
  unfold ofChar? at h
  split at h <;> simp_all <;> subst h <;> rfl

/-- A doubled operator is written as the single one twice. -/
theorem symbol_of_doubled? {o d : Operator} (h : o.doubled? = some d) :
    d.symbol = o.symbol ++ o.symbol := by
  cases o <;> simp [doubled?] at h <;> subst h <;> rfl

end Operator

/-! ## 2. Tokens -/

/-- One piece of a command line. -/
inductive Token where
  | word (text : String)
  | operator (op : Operator)
  | blank (text : String)
  | endOfLine
  deriving DecidableEq, Repr

namespace Token

def text : Token → String
  | word s => s
  | operator o => o.symbol
  | blank s => s
  | endOfLine => ""

/-- A stretch of blanks or a comment. -/
def isBlank : Token → Bool
  | blank _ => true
  | _ => false

end Token

end JobShell
