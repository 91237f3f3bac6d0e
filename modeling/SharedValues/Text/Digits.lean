/-!
# Digits

Decimal and hexadecimal digits of numbers, and the reading of hexadecimal digits. Hexadecimal
digits are written in lower case and read in either case.
-/

namespace SharedValues.Digits

/-- The decimal digits of an integer, after a minus sign if it is negative. -/
def decimal : Int → List Char
  | .ofNat n => Nat.toDigits 10 n
  | .negSucc n => '-' :: Nat.toDigits 10 (n + 1)

/-- The lowest `width` hexadecimal digits of a number, highest digit first. -/
def hexFixed : Nat → Nat → List Char
  | 0, _ => []
  | width + 1, n => hexFixed width (n / 16) ++ [Nat.digitChar (n % 16)]

/-- The hexadecimal digits of a number, without leading zeros. -/
def hex (n : Nat) : List Char := Nat.toDigits 16 n

/-- The number that a hexadecimal digit stands for. -/
def hexValue? (c : Char) : Option Nat :=
  if '0' ≤ c ∧ c ≤ '9' then some (c.toNat - 48)
  else if 'a' ≤ c ∧ c ≤ 'f' then some (c.toNat - 87)
  else if 'A' ≤ c ∧ c ≤ 'F' then some (c.toNat - 55)
  else none

/-- What holds of every hexadecimal digit holds of the digits of a number. -/
theorem forall_mem_hexFixed {P : Char → Prop} (hdigit : ∀ d : Fin 16, P (Nat.digitChar d))
    (width n : Nat) : ∀ c ∈ hexFixed width n, P c := by
  induction width generalizing n with
  | zero => simp [hexFixed]
  | succ width ih =>
    rw [hexFixed, List.forall_mem_append, List.forall_mem_singleton]
    exact ⟨ih (n / 16), hdigit ⟨n % 16, Nat.mod_lt n (by decide)⟩⟩

theorem hexValue?_digitChar : ∀ d : Fin 16, hexValue? (Nat.digitChar d) = some d.val := by
  decide

theorem ne_of_isDigit {c d : Char} (hc : c.isDigit = true) (hd : d.isDigit = false) : c ≠ d := by
  intro hcd
  rw [← hcd, hc] at hd
  cases hd

theorem exists_head_toDigits (n : Nat) :
    ∃ c rest, Nat.toDigits 10 n = c :: rest ∧ c.isDigit = true := by
  cases hdigits : Nat.toDigits 10 n with
  | nil => exact absurd hdigits Nat.toDigits_ne_nil
  | cons c rest =>
    have hmem : c ∈ Nat.toDigits 10 n := by simp [hdigits]
    exact ⟨c, rest, rfl, Nat.isDigit_of_mem_toDigits (by decide) (by decide) hmem⟩

end SharedValues.Digits
