import Mathlib.Data.List.DropRight

/-!
# Lines and skeletons of texts

A text is a list that a separator cuts into lines (`List.splitOn`): the complete ones and what comes
after the last separator. `splitOn_append`: a text may be cut piece by piece, with the unfinished
line in front of the next piece. The skeleton of a text has its plain letters and one mark for each
run of other letters; it is cut where the text is (`splitOn_skeleton`).
-/

set_option autoImplicit false

namespace Text

section Lines

variable {α : Type} [DecidableEq α] {sep : α} {x y : List α}

/-- The lines that a separator has ended. -/
def completeLines (sep : α) (text : List α) : List (List α) := (text.splitOn sep).dropLast

/-- What comes after the last separator. -/
def unfinished (sep : α) (text : List α) : List α :=
  (text.splitOn sep).getLast (List.splitOn_ne_nil sep text)

theorem completeLines_of_not_mem (h : sep ∉ x) : completeLines sep x = [] := by
  simp [completeLines, List.splitOn_eq_singleton h]

theorem unfinished_of_not_mem (h : sep ∉ x) : unfinished sep x = x := by
  simp [unfinished, List.splitOn_eq_singleton h]

theorem completeLines_append_cons :
    completeLines sep (x ++ sep :: y) = x.splitOn sep ++ completeLines sep y := by
  simp [completeLines, List.splitOn_append_cons_self, List.dropLast_append_of_ne_nil]

theorem unfinished_append_cons : unfinished sep (x ++ sep :: y) = unfinished sep y := by
  simp [unfinished, List.splitOn_append_cons_self]

/-- A text is cut piece by piece. -/
theorem splitOn_append (sep : α) (x y : List α) : (x ++ y).splitOn sep =
    completeLines sep x ++ (unfinished sep x ++ y).splitOn sep := by
  induction hn : x.length using Nat.strong_induction_on generalizing x with
  | _ n ih =>
    by_cases hsep : sep ∈ x
    · obtain ⟨p, q, rfl⟩ := List.append_of_mem hsep
      have hq := ih q.length (by simp at hn; omega) q rfl
      rw [List.append_assoc, List.cons_append, List.splitOn_append_cons_self,
        completeLines_append_cons, unfinished_append_cons, hq, List.append_assoc]
    · rw [completeLines_of_not_mem hsep, unfinished_of_not_mem hsep, List.nil_append]

theorem completeLines_append (sep : α) (x y : List α) : completeLines sep (x ++ y) =
    completeLines sep x ++ completeLines sep (unfinished sep x ++ y) := by
  simp only [completeLines, splitOn_append sep x y]
  rw [List.dropLast_append_of_ne_nil (List.splitOn_ne_nil _ _)]

theorem unfinished_append (sep : α) (x y : List α) :
    unfinished sep (x ++ y) = unfinished sep (unfinished sep x ++ y) := by
  simp [unfinished, splitOn_append sep x y]

/-- It is the part without a separator at the end. -/
theorem unfinished_eq_rtakeWhile : unfinished sep x = x.rtakeWhile (· ≠ sep) := by
  induction x using List.reverseRecOn with
  | nil => simp [unfinished]
  | append_singleton x a ih =>
    rw [List.rtakeWhile_concat]
    by_cases ha : a = sep
    · subst ha
      rw [unfinished_append_cons]
      simp [unfinished]
    · rw [unfinished_append, ih]
      have hnew : sep ∉ x.rtakeWhile (· ≠ sep) ++ [a] := by
        intro hm
        rcases List.mem_append.1 hm with hm | hm
        · simpa using List.mem_rtakeWhile_imp hm
        · exact ha (List.mem_singleton.1 hm).symm
      rw [unfinished_of_not_mem hnew]
      simp [ha]

theorem not_mem_unfinished : sep ∉ unfinished sep x := by
  rw [unfinished_eq_rtakeWhile]
  intro hm
  simpa using List.mem_rtakeWhile_imp hm

end Lines

/-! ## Skeletons -/

section Skeleton

variable {α β : Type}

/-- Puts a letter before a skeleton; a mark swallows the mark that follows it. -/
def push : Option β → List (Option β) → List (Option β)
  | none, none :: l => none :: l
  | a, l => a :: l

/-- The plain letters, and a mark for each run of the others. -/
def skeleton (plain : α → Option β) (text : List α) : List (Option β) :=
  text.foldr (fun a => push (plain a)) []

variable {plain : α → Option β} {x y x' y' : List α}

@[simp] theorem skeleton_nil : skeleton plain [] = [] := rfl

@[simp] theorem skeleton_cons {a : α} :
    skeleton plain (a :: x) = push (plain a) (skeleton plain x) := rfl

@[simp] theorem push_some {b : β} {l : List (Option β)} : push (some b) l = some b :: l := by
  simp [push]

theorem push_none (l : List (Option β)) : ∃ m, push none l = none :: m := by
  cases l with
  | nil => exact ⟨[], rfl⟩
  | cons a l =>
    cases a with
    | none => exact ⟨l, rfl⟩
    | some b => exact ⟨some b :: l, rfl⟩

@[simp] theorem push_push_none (l : List (Option β)) : push none (push none l) = push none l := by
  obtain ⟨m, hm⟩ := push_none l
  rw [hm]
  rfl

/-- A skeleton in front counts for what it is the skeleton of. -/
theorem foldr_push_skeleton (l : List (Option β)) :
    (skeleton plain x).foldr push l = x.foldr (fun a => push (plain a)) l := by
  induction x with
  | nil => rfl
  | cons a x ih =>
    rw [skeleton_cons, List.foldr_cons, ← ih]
    cases plain a with
    | some b => simp
    | none =>
      cases hx : skeleton plain x with
      | nil => rfl
      | cons c m =>
        cases c with
        | none => exact (push_push_none _).symm
        | some b => rfl

theorem skeleton_append :
    skeleton plain (x ++ y) = (skeleton plain x).foldr push (skeleton plain y) := by
  rw [foldr_push_skeleton, skeleton, List.foldr_append]
  rfl

theorem skeleton_eq_nil : skeleton plain x = [] ↔ x = [] := by
  cases x with
  | nil => simp
  | cons a x =>
    rw [skeleton_cons]
    cases plain a with
    | some b => simp
    | none =>
      obtain ⟨m, hm⟩ := push_none (skeleton plain x)
      simp [hm]

/-- A plain prefix is one of the skeleton. -/
theorem prefix_skeleton {p : List α} {q : List β} (hp : p.map plain = q.map some)
    (hinj : ∀ a b c, plain a = some c → plain b = some c → a = b) :
    p <+: x ↔ q.map some <+: skeleton plain x := by
  induction p generalizing q x with
  | nil =>
    have hq : q = [] := by simpa using hp.symm
    simp [hq]
  | cons a p ih =>
    cases q with
    | nil => simp at hp
    | cons b q =>
      simp only [List.map_cons, List.cons.injEq] at hp
      cases x with
      | nil => simp
      | cons c x =>
        rw [List.cons_prefix_cons, skeleton_cons, ih hp.2, List.map_cons]
        cases hc : plain c with
        | some d =>
          rw [push_some, List.cons_prefix_cons]
          refine and_congr_left fun _ => ⟨?_, fun hbd => hinj a c b hp.1 ?_⟩
          · rintro rfl
            rw [← hp.1, hc]
          · rw [hc, hbd]
        | none =>
          obtain ⟨m, hm⟩ := push_none (skeleton plain x)
          rw [hm, List.cons_prefix_cons]
          constructor
          · rintro ⟨rfl, -⟩
            rw [hp.1] at hc
            cases hc
          · rintro ⟨heq, -⟩
            cases heq

/-- The skeletons of what follows a plain prefix. -/
theorem skeleton_drop {p : List α} {q : List β} (hp : p.map plain = q.map some) (h : p <+: x) :
    skeleton plain (x.drop p.length) = (skeleton plain x).drop p.length := by
  obtain ⟨y, rfl⟩ := h
  rw [List.drop_left]
  have hskeleton : skeleton plain (p ++ y) = q.map some ++ skeleton plain y := by
    rw [skeleton, List.foldr_append, ← List.foldr_map (f := plain) (g := push), hp]
    simp [List.foldr_map, skeleton, List.foldr_cons_eq_append]
  have hlen : p.length = (q.map some).length := by simpa using congrArg List.length hp
  rw [hskeleton, hlen, List.drop_left]

variable [DecidableEq α] [DecidableEq β]

/-- A mark belongs to the first line. -/
theorem splitOn_push_none {b : β} (l : List (Option β)) :
    (push none l).splitOn (some b) = (l.splitOn (some b)).modifyHead (push none) := by
  have hmark (m : List (Option β)) :
      (none :: m).splitOn (some b) = (m.splitOn (some b)).modifyHead (none :: ·) := by
    rw [List.splitOn_cons_eq_if_modifyHead]
    simp
  cases l with
  | nil => simp [push, hmark]
  | cons a l =>
    cases a with
    | none =>
      show (none :: l).splitOn (some b) = _
      rw [hmark, List.modifyHead_modifyHead]
      rfl
    | some c =>
      show (none :: some c :: l).splitOn (some b) = _
      rw [hmark, List.splitOn_cons_eq_if_modifyHead]
      split
      · rfl
      · rw [List.modifyHead_modifyHead, List.modifyHead_modifyHead]
        rfl

/-- A skeleton is cut at a plain separator where its text is. -/
theorem splitOn_skeleton {sep : α} {b : β} (hsep : plain sep = some b)
    (hinj : ∀ a, plain a = some b → a = sep) :
    (skeleton plain x).splitOn (some b) = (x.splitOn sep).map (skeleton plain) := by
  induction x with
  | nil => simp
  | cons a x ih =>
    rw [List.splitOn_cons_eq_if_modifyHead, skeleton_cons]
    by_cases ha : a = sep
    · subst ha
      simp [hsep, List.splitOn_cons_eq_if_modifyHead, ih]
    · have hhead (ls : List (List α)) : (ls.modifyHead (a :: ·)).map (skeleton plain) =
          (ls.map (skeleton plain)).modifyHead (push (plain a)) := by
        cases ls with
        | nil => rfl
        | cons l ls => rfl
      rw [if_neg (by simpa using ha), hhead, ← ih]
      cases hplain : plain a with
      | some c =>
        have hcb : c ≠ b := by
          rintro rfl
          exact ha (hinj a hplain)
        rw [push_some, List.splitOn_cons_eq_if_modifyHead, if_neg (by simpa using hcb)]
        rfl
      | none => exact splitOn_push_none _

end Skeleton

end Text
