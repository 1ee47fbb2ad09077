import ConclaveFormal.Lib.DataStream
import Mathlib.Tactic.IntervalCases

/-!
# Hexadecimal texts

Bytes are written as two upper-case digits each and read in either case.
-/

set_option autoImplicit false

namespace Conclave.Lib

/-- Upper case as far as hexadecimal digits can come of it: beside the letters, the
ligature U+FB00 becomes two of them. -/
def uppercase (text : JString) : JString :=
  text.flatMap fun unit =>
    if 0x61 ≤ unit ∧ unit ≤ 0x7A then [unit - 0x20]
    else if unit = 0xFB00 then [0x46, 0x46]
    else [unit]

def hexToBin (ch : UInt16) : Option Nat :=
  if 0x30 ≤ ch ∧ ch ≤ 0x39 then some (ch.toNat - 0x30)
  else if 0x41 ≤ ch ∧ ch ≤ 0x46 then some (ch.toNat - 0x41 + 10)
  else if 0x61 ≤ ch ∧ ch ≤ 0x66 then some (ch.toNat - 0x61 + 10)
  else none

def parseHex : JString → Option Bytes
  | [] => some []
  | [_] => none
  | high :: low :: rest => do
      let h ← hexToBin high
      let l ← hexToBin low
      let out ← parseHex rest
      return UInt8.ofNat (h * 16 + l) :: out

/-- `hexCode`, "0123456789ABCDEF". -/
def hexCode (digit : Nat) : UInt16 :=
  if digit < 10 then UInt16.ofNat (0x30 + digit) else UInt16.ofNat (0x41 + (digit - 10))

def toHexString (bytes : Bytes) : JString :=
  bytes.flatMap fun byte => [hexCode (byte.toNat / 16), hexCode (byte.toNat % 16)]

theorem hexToBin_hexCode {digit : Nat} (small : digit < 16) :
    hexToBin (hexCode digit) = some digit := by
  interval_cases digit <;> rfl

theorem parseHex_toHexString (bytes : Bytes) : parseHex (toHexString bytes) = some bytes := by
  induction bytes with
  | nil => rfl
  | cons byte bytes ih =>
      have range := byte.toNat_lt
      have high : byte.toNat / 16 < 16 := by omega
      have low : byte.toNat % 16 < 16 := Nat.mod_lt _ (by decide)
      have whole : byte.toNat / 16 * 16 + byte.toNat % 16 = byte.toNat := by omega
      have split : toHexString (byte :: bytes) =
          hexCode (byte.toNat / 16) :: hexCode (byte.toNat % 16) :: toHexString bytes := rfl
      rw [split, parseHex, hexToBin_hexCode high, hexToBin_hexCode low, ih]
      simp only [Option.bind_eq_bind, Option.bind_some, whole, UInt8.ofNat_toNat]
      rfl

theorem toHexString_length (bytes : Bytes) : (toHexString bytes).length = 2 * bytes.length := by
  induction bytes with
  | nil => rfl
  | cons byte bytes ih =>
      have split : toHexString (byte :: bytes) =
          hexCode (byte.toNat / 16) :: hexCode (byte.toNat % 16) :: toHexString bytes := rfl
      rw [split, List.length_cons, List.length_cons, ih, List.length_cons]
      omega

/-- What holds of the sixteen digits holds of every unit of a hexadecimal text. -/
theorem toHexString_forall {P : UInt16 → Prop} (holds : ∀ value < 16, P (hexCode value))
    (bytes : Bytes) : ∀ unit ∈ toHexString bytes, P unit := by
  intro unit member
  obtain ⟨byte, _, inPair⟩ := List.mem_flatMap.mp member
  have range := byte.toNat_lt
  rcases List.mem_pair.mp inPair with rfl | rfl
  · exact holds _ (by omega)
  · exact holds _ (Nat.mod_lt _ (by decide))

theorem uppercase_toHexString (bytes : Bytes) : uppercase (toHexString bytes) =
    toHexString bytes := by
  have unchanged : ∀ unit ∈ toHexString bytes,
      ¬ (0x61 ≤ unit ∧ unit ≤ 0x7A) ∧ unit ≠ 0xFB00 := by
    apply toHexString_forall
    intro value small
    interval_cases value <;> decide
  generalize toHexString bytes = text at unchanged ⊢
  rw [uppercase]
  induction text with
  | nil => rfl
  | cons unit units ih =>
      obtain ⟨notLower, notLigature⟩ := unchanged unit List.mem_cons_self
      rw [List.flatMap_cons, if_neg notLower, if_neg notLigature,
        ih fun other member => unchanged other (List.mem_cons_of_mem unit member)]
      rfl

end Conclave.Lib
