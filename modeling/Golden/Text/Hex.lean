/-!
# Golden.Text.Hex — hexadecimal digits

One digit for each number below sixteen, written in lower or upper case and read in both.
-/

namespace Golden.Text.Hex

def lower (n : Nat) : Char := Nat.digitChar n

def upper (n : Nat) : Char := (Nat.digitChar n).toUpper

/-- The number a digit stands for. -/
def value? (c : Char) : Option Nat :=
  if '0' ≤ c ∧ c ≤ '9' then some (c.toNat - '0'.toNat)
  else if 'a' ≤ c ∧ c ≤ 'f' then some (c.toNat - 'a'.toNat + 10)
  else if 'A' ≤ c ∧ c ≤ 'F' then some (c.toNat - 'A'.toNat + 10)
  else none

theorem value?_lower : ∀ n : Fin 16, value? (lower n) = some n.val := by decide

theorem value?_upper : ∀ n : Fin 16, value? (upper n) = some n.val := by decide

end Golden.Text.Hex
