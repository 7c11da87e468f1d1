import Mathlib.Data.List.DropRight

/-!
# Texts

What the packages of the program share of Go's `strings` and `unicode`.
-/

namespace Binnacle

/-- `unicode.IsSpace`. -/
def isSpace (c : Char) : Bool :=
  let n := c.toNat
  (9 ≤ n && n ≤ 13) || (0x2000 ≤ n && n ≤ 0x200a) ||
    n ∈ [0x20, 0x85, 0xa0, 0x1680, 0x2028, 0x2029, 0x202f, 0x205f, 0x3000]

/-- `strings.Trim` and, with `isSpace`, `strings.TrimSpace`. -/
def trim (p : Char → Bool) (s : List Char) : List Char := (s.dropWhile p).rdropWhile p

def trimSpace (s : String) : String := String.ofList (trim isSpace s.toList)

/-- `strings.Fields`. -/
def fields (line : List Char) : List String :=
  ((line.splitOnP isSpace).filter (· ≠ [])).map String.ofList

def decimal (n : Nat) : List Char := Nat.toDigits 10 n

theorem digit_of_mem {n : Nat} {c : Char} (h : c ∈ decimal n) : 48 ≤ c.toNat ∧ c.toNat ≤ 57 := by
  have hdigit := Nat.isDigit_of_mem_toDigits (by decide) (by decide) h
  simp only [Char.isDigit, Bool.and_eq_true, decide_eq_true_eq] at hdigit
  exact hdigit

theorem isSpace_eq_false {c : Char} (h : 48 ≤ c.toNat ∧ c.toNat ≤ 58) : isSpace c = false := by
  simp [isSpace]
  omega

end Binnacle
