import Mathlib.Data.List.Forall2
import Janus.Python.Value
import Janus.Text.Lines

/-!
# Texts and values that differ in characters outside ASCII only

A decoder that replaces bytes makes characters outside ASCII of those outside ASCII, so texts are
compared by their ASCII skeletons. `Alike` values have the same shape and alike texts; keys outside
ASCII may fall together, so objects are compared by what they hold under ASCII keys.
-/

set_option autoImplicit false

namespace Python

open Text

def asciiChar (c : Char) : Option Char := if c.toNat < 128 then some c else none

def asciiByte (b : UInt8) : Option Char :=
  if b.toNat < 128 then some (Char.ofNat b.toNat) else none

/-- The ASCII characters of a text, and a mark for each run of others. -/
def asciiSkeleton (s : String) : List (Option Char) := skeleton asciiChar s.toList

/-- Every character is an ASCII one. -/
def Ascii (s : String) : Prop := s.toList.map asciiChar = s.toList.map some

instance (s : String) : Decidable (Ascii s) := inferInstanceAs (Decidable (_ = _))

inductive Alike : Value → Value → Prop
  | none : Alike .none .none
  | bool (b : Bool) : Alike (.bool b) (.bool b)
  | int (n : Int) : Alike (.int n) (.int n)
  | float (x : Float) : Alike (.float x) (.float x)
  | str {s t : String} : asciiSkeleton s = asciiSkeleton t → Alike (.str s) (.str t)
  | list {xs ys : List Value} : List.Forall₂ Alike xs ys → Alike (.list xs) (.list ys)
  | dict {fs gs : Fields} : (fs = [] ↔ gs = []) →
      (∀ key, Ascii key → Option.Rel Alike (fs.lookup key) (gs.lookup key)) →
      Alike (.dict fs) (.dict gs)

theorem asciiChar_inj {a b c : Char} (ha : asciiChar a = some c) (hb : asciiChar b = some c) :
    a = b := by
  unfold asciiChar at ha hb
  split at ha
  · split at hb
    · injection ha with ha
      injection hb with hb
      rw [ha, hb]
    · cases hb
  · cases ha

/-- An ASCII text is known from its skeleton. -/
theorem eq_of_asciiSkeleton {s t : String} (hs : Ascii s) (h : asciiSkeleton s = asciiSkeleton t) :
    s = t := by
  have hself : s.toList.map some <+: asciiSkeleton s :=
    (prefix_skeleton hs fun _ _ _ => asciiChar_inj).1 (List.prefix_refl _)
  have hstarts : s.toList <+: t.toList := by
    rw [h] at hself
    exact (prefix_skeleton hs fun _ _ _ => asciiChar_inj).2 hself
  have hrest := skeleton_drop hs hstarts
  have hdone := skeleton_drop hs (List.prefix_refl s.toList)
  rw [List.drop_length, skeleton_nil] at hdone
  have hskeleton : skeleton asciiChar (t.toList.drop s.toList.length) = [] := by
    rw [hrest]
    unfold asciiSkeleton at h
    rw [← h, ← hdone]
  have hnil : t.toList.drop s.toList.length = [] := skeleton_eq_nil.1 hskeleton
  have hlength : t.toList.length ≤ s.toList.length := List.drop_eq_nil_iff.1 hnil
  have hlist : s.toList = t.toList := hstarts.eq_of_length_le hlength
  exact String.toList_inj.1 hlist

namespace Alike

variable {v w : Value} {fs gs : Fields} {key : String}

theorem truthy (h : Alike v w) : v.truthy = w.truthy := by
  cases h with
  | none | bool | int | float => rfl
  | @str s t hst =>
    have hempty : s = "" ↔ t = "" := by
      constructor
      · rintro rfl
        exact (eq_of_asciiSkeleton (by decide) hst).symm
      · rintro rfl
        exact (eq_of_asciiSkeleton (by decide) hst.symm).symm
    by_cases hs : s = ""
    · simp [Value.truthy, hs, hempty.1 hs]
    · have ht : t ≠ "" := fun ht => hs (hempty.2 ht)
      have hs' : (s != "") = true := bne_iff_ne.2 hs
      have ht' : (t != "") = true := bne_iff_ne.2 ht
      rw [Value.truthy, Value.truthy, hs', ht']
  | @list xs ys hxs =>
    cases hxs with
    | nil => rfl
    | cons => rfl
  | @dict fs gs hempty =>
    cases fs with
    | nil =>
      rw [hempty.1 rfl]
    | cons f fs =>
      cases gs with
      | nil => cases hempty.2 rfl
      | cons g gs => rfl

theorem eq_str {s : String} (hs : Ascii s) (h : Alike v w) : v = .str s ↔ w = .str s := by
  cases h with
  | str hst =>
    constructor
    · intro heq
      injection heq with heq
      subst heq
      rw [eq_of_asciiSkeleton hs hst]
    · intro heq
      injection heq with heq
      subst heq
      rw [eq_of_asciiSkeleton hs hst.symm]
  | _ => exact ⟨nofun, nofun⟩

theorem get (h : Alike (.dict fs) (.dict gs)) (hkey : Ascii key) {default : Value}
    (hdefault : Alike default default) : Alike (fs.get key default) (gs.get key default) := by
  cases h with
  | dict _ hlookup =>
    have hrel := hlookup key hkey
    unfold Fields.get
    generalize fs.lookup key = a at hrel ⊢
    generalize gs.lookup key = b at hrel ⊢
    cases hrel with
    | some hvalue => exact hvalue
    | none => exact hdefault

end Alike

end Python
