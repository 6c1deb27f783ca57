/-!
# Decimal numbers

* `natural` and `integer` write a number in decimal digits.
* `leadingNatural` reads the digits at the start of a text: their value, whatever its size.
-/

namespace JobShell.Text

/-! ## 1. Writing -/

/-- The decimal digits of a natural number. -/
def naturalDigits (n : Nat) : List Char := Nat.toDigits 10 n

/-- A natural number in decimal. -/
def natural (n : Nat) : String := String.ofList (naturalDigits n)

/-- The digits of an integer, after a minus sign if it is negative. -/
def integerDigits : Int → List Char
  | .ofNat n => naturalDigits n
  | .negSucc n => '-' :: naturalDigits (n + 1)

/-- An integer in decimal. -/
def integer (z : Int) : String := String.ofList (integerDigits z)

/-! ## 2. Reading -/

/-- The value of a decimal digit. -/
def digitValue (c : Char) : Nat := c.toNat - '0'.toNat

/-- The value of a list of digits read after digits of value `acc`. -/
def valueFrom (acc : Nat) : List Char → Nat
  | [] => acc
  | c :: cs => valueFrom (10 * acc + digitValue c) cs

/-- The digits at the start of a text. -/
def leadingDigits (cs : List Char) : List Char := cs.takeWhile Char.isDigit

/-- The natural number written by the digits at the start of a text, 0 if there are none. -/
def leadingNatural (cs : List Char) : Nat := valueFrom 0 (leadingDigits cs)

example : leadingNatural "0042ab".toList = 42 := by decide

example : integer (-20) = "-20" := by decide

end JobShell.Text
