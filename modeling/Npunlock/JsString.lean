import Mathlib.Data.Int.Notation
import Mathlib.Data.List.Basic

/-!
# Strings of the frontend

A string is a list of UTF-16 code units, which need not be well formed.
-/

namespace Npunlock

abbrev CodeUnit := UInt16

abbrev JsString := List CodeUnit

/-- The code units of an ASCII text. -/
def codeUnits (text : String) : JsString :=
  text.toList.map fun char => UInt16.ofNat char.toNat

/-! ## Digits -/

/-- The unit of a digit, with the unit of the tenth digit. -/
def digitUnit (ten digit : ℕ) : CodeUnit :=
  UInt16.ofNat (if digit < 10 then 0x30 + digit else ten + (digit - 10))

def hexValue (value : ℕ) : Option ℕ :=
  if 0x30 ≤ value ∧ value ≤ 0x39 then some (value - 0x30)
  else if 0x41 ≤ value ∧ value ≤ 0x46 then some (value - 0x41 + 10)
  else if 0x61 ≤ value ∧ value ≤ 0x66 then some (value - 0x61 + 10)
  else none

theorem toNat_digitUnit {ten digit : ℕ} (hten : ten ≤ 0x61) (hdigit : digit < 36) :
    (digitUnit ten digit).toNat = if digit < 10 then 0x30 + digit else ten + (digit - 10) := by
  rw [digitUnit, UInt16.toNat_ofNat']
  split_ifs <;> omega

theorem hexValue_digitUnit {ten digit : ℕ} (hten : ten = 0x41 ∨ ten = 0x61)
    (hdigit : digit < 16) : hexValue (digitUnit ten digit).toNat = some digit := by
  rw [toNat_digitUnit (by omega) (by omega), hexValue]
  split_ifs <;> first | (exfalso; omega) | (exact congrArg some (by omega))

end Npunlock
