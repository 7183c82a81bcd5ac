import Janus.Text.Entries
import Mathlib.Data.Finset.Sort
import Mathlib.Data.List.Infix
import Mathlib.Data.String.Basic

/-!
# Texts

`str.isspace` of a character, `str.strip`, `str.split`, `in`, and `sorted` of a set of texts.
-/

set_option autoImplicit false

namespace Python

/-- The characters that `str.strip` removes. -/
def isSpace (c : Char) : Bool :=
  let n := c.toNat
  (9 ≤ n && n ≤ 13) || (28 ≤ n && n ≤ 32) || n == 0x85 || n == 0xa0 || n == 0x1680 ||
    (0x2000 ≤ n && n ≤ 0x200a) || n == 0x2028 || n == 0x2029 || n == 0x202f || n == 0x205f ||
    n == 0x3000

def strip (s : String) : String := String.ofList (Text.strip isSpace s.toList)

/-- `s.split(sep)` at a character. -/
def split (s : String) (sep : Char) : List String := (s.toList.splitOn sep).map String.ofList

/-- `needle in s`. -/
def contains (needle s : String) : Bool := decide (needle.toList <:+: s.toList)

def sorted (s : Finset String) : List String := s.sort

@[simp] theorem mem_sorted {s : Finset String} {x : String} : x ∈ sorted s ↔ x ∈ s := by
  simp [sorted]

@[simp] theorem toFinset_sorted (s : Finset String) : (sorted s).toFinset = s := by
  simp [sorted, Finset.sort_toFinset]

end Python
