import Janus.Admin.Proof.MenuParent
import Janus.Admin.TreeList

/-!
# What a keyword keeps

* `Gathering`: what a walk up has seen and included so far.
* `mem_includeAncestors`, `mem_includeParents`: both walks include what is above the row they start at.
* `lists_closed`: the rows that are kept are those that match or have a match below them.
-/

set_option autoImplicit false

namespace Rbac

open Sql Forest
open Departments (DeptId Department)

/-! ## Walks -/

section

variable {V : Type} {up : Int → Option Int} {x c : Int} {cursor : Option Int}
  {seen included : Finset Int}

/-- What has been seen is included, and its parents have been seen or come next. -/
structure Gathering (up : Int → Option Int) (cursor : Option Int) (seen included : Finset Int) :
    Prop where
  included : seen ⊆ included
  closed : ∀ a ∈ seen, ∀ b, up a = some b → b ∈ seen ∨ cursor = some b

theorem Gathering.start (cursor : Option Int) (included : Finset Int) :
    Gathering up cursor ∅ included where
  included := Finset.empty_subset _
  closed a ha := by simp at ha

theorem Gathering.step (h : Gathering up (some c) seen included) :
    Gathering up (up c) (insert c seen) (insert c included) where
  included := Finset.insert_subset_insert c h.included
  closed a ha b hb := by
    rcases Finset.mem_insert.1 ha with rfl | ha
    · exact .inr hb
    · rcases h.closed a ha b hb with hseen | hnext
      · exact .inl (Finset.mem_insert_of_mem hseen)
      · cases hnext
        exact .inl (Finset.mem_insert_self _ _)

/-- A walk that comes back has included all that is above. -/
theorem Gathering.mem_of_seen (h : Gathering up (some c) seen included) (hc : c ∈ seen)
    (hx : Above up c x) : x ∈ included := by
  refine h.included (hx.mem (S := fun a => a ∈ seen) hc fun a b ha hb => ?_)
  rcases h.closed a ha b hb with hseen | hnext
  · exact hseen
  · cases hnext
    exact hc


/-- The parents of the rows of a list. -/
def upIn (parent : V → Option Int) (rows : List (Int × V)) (id : Int) : Option Int :=
  (rows.lookup id).bind parent

/-- What a walk from `cursor` includes: the rows that are above it. -/
def Reaches (parent : V → Option Int) (rows : List (Int × V)) (cursor : Option Int) (x : Int) : Prop :=
  (rows.lookup x).isSome = true ∧ ∃ c, cursor = some c ∧ Above (upIn parent rows) c x

variable {parent : V → Option Int} {rows : List (Int × V)} {row : V}

theorem not_reaches_none : ¬ Reaches parent rows none x := by
  rintro ⟨-, c, hc, -⟩
  cases hc

theorem not_reaches_absent (hc : rows.lookup c = none) : ¬ Reaches parent rows (some c) x := by
  rintro ⟨hx, c', hc', habove⟩
  cases hc'
  rcases above_iff.1 habove with rfl | ⟨b, hb, -⟩
  · rw [hc] at hx
    cases hx
  · simp [upIn, hc] at hb

theorem reaches_some (hc : rows.lookup c = some row) :
    Reaches parent rows (some c) x ↔ x = c ∨ Reaches parent rows (parent row) x := by
  have hup : upIn parent rows c = parent row := by simp [upIn, hc]
  unfold Reaches
  constructor
  · rintro ⟨hx, c', hc', habove⟩
    cases hc'
    rcases above_iff.1 habove with rfl | hnext
    · exact .inl rfl
    · rw [hup] at hnext
      exact .inr ⟨hx, hnext⟩
  · rintro (rfl | ⟨hx, hnext⟩)
    · exact ⟨by rw [hc]; rfl, x, rfl, .refl⟩
    · exact ⟨hx, c, rfl, above_iff.2 (.inr (hup ▸ hnext))⟩

end

theorem mem_includeAncestors {depts : List (DeptId × Department)} {cursor : Option DeptId}
    {seen included : Finset DeptId} {x : DeptId}
    (h : Gathering (upIn Department.parentId depts) cursor seen included) :
    x ∈ includeAncestors depts cursor seen included ↔
      x ∈ included ∨ Reaches Department.parentId depts cursor x := by
  fun_induction includeAncestors depts cursor seen included with
  | case1 seen included => simp [not_reaches_none]
  | case2 seen included id hseen =>
    refine ⟨.inl, fun hx => ?_⟩
    rcases hx with hx | ⟨-, c, hc, habove⟩
    · exact hx
    · cases hc
      exact h.mem_of_seen hseen habove
  | case3 seen included id hseen hrow => simp [not_reaches_absent hrow]
  | case4 seen included id hseen current hrow ih =>
    have hup : upIn Department.parentId depts id = current.parentId := by simp [upIn, hrow]
    rw [ih (hup ▸ h.step), reaches_some hrow, Finset.mem_insert, or_assoc, or_left_comm]

theorem mem_includeParents {menus : List (MenuId × Menu)} {cursor : Menu}
    {seen included : Finset MenuId} {x : MenuId}
    (h : Gathering (upIn Menu.parentId menus) cursor.parentId seen included) :
    x ∈ includeParents menus cursor seen included ↔
      x ∈ included ∨ Reaches Menu.parentId menus cursor.parentId x := by
  fun_induction includeParents menus cursor seen included with
  | case1 cursor seen included hroot => simp [hroot, not_reaches_none]
  | case2 cursor seen included id hid hseen =>
    rw [hid] at h ⊢
    refine ⟨.inl, fun hx => ?_⟩
    rcases hx with hx | ⟨-, c, hc, habove⟩
    · exact hx
    · cases hc
      exact h.mem_of_seen hseen habove
  | case3 cursor seen included id hid hseen hrow => simp [hid, not_reaches_absent hrow]
  | case4 cursor seen included id hid hseen parent hrow ih =>
    have hup : upIn Menu.parentId menus id = parent.parentId := by simp [upIn, hrow]
    rw [hid] at h ⊢
    rw [ih (hup ▸ h.step), reaches_some hrow, Finset.mem_insert, or_assoc, or_left_comm]

/-! ## Lists -/

section

variable {V : Type} {table : Table Int V} {isDeleted : V → Bool} {sortOrder : V → Int} {id : Int}
  {row : V}

theorem mem_orderedRows : (id, row) ∈ orderedRows isDeleted sortOrder table ↔
    (table.lookup id).filter (fun row => !isDeleted row) = some row := by
  simp only [orderedRows, List.mem_filterMap, Finset.mem_sort, Finset.mem_image,
    Option.map_eq_some_iff, Prod.mk.injEq]
  constructor
  · rintro ⟨_, ⟨id', -, rfl⟩, row', hrow, hid, rfl⟩
    simp only [ofLex_toLex] at hrow hid
    rwa [← hid]
  · intro h
    have hkey : id ∈ table.keys := by
      obtain ⟨hlookup, -⟩ := Option.filter_eq_some_iff.1 h
      exact Finmap.mem_keys.2 (Finmap.mem_iff.2 ⟨_, hlookup⟩)
    exact ⟨_, ⟨id, hkey, rfl⟩, row, h, rfl, rfl⟩

theorem nodup_orderedRows : ((orderedRows isDeleted sortOrder table).map Prod.fst).Nodup := by
  unfold orderedRows
  rw [List.Nodup, List.pairwise_map, List.pairwise_filterMap]
  refine List.Pairwise.imp_of_mem ?_ (Finset.sort_nodup _ _)
  intro key key' hkey hkey' hne p hp p' hp' heq
  obtain ⟨row, -, rfl⟩ := Option.map_eq_some_iff.1 hp
  obtain ⟨row', -, rfl⟩ := Option.map_eq_some_iff.1 hp'
  rw [Finset.mem_sort] at hkey hkey'
  obtain ⟨id, -, rfl⟩ := Finset.mem_image.1 hkey
  obtain ⟨id', -, rfl⟩ := Finset.mem_image.1 hkey'
  simp only [ofLex_toLex] at heq
  exact hne (by rw [heq])

end

section

variable {V : Type} {rows : List (Int × V)} {parent : V → Option Int} {id x : Int} {row : V}

theorem lookup_iff_mem (h : (rows.map Prod.fst).Nodup) : rows.lookup id = some row ↔ (id, row) ∈ rows := by
  refine ⟨mem_of_lookup, fun hmem => ?_⟩
  induction rows with
  | nil => cases hmem
  | cons p rows ih =>
    obtain ⟨id', row'⟩ := p
    rw [List.map_cons, List.nodup_cons] at h
    rcases List.mem_cons.1 hmem with heq | htail
    · cases heq
      simp
    · have hne : (id == id') = false := by
        rw [beq_eq_false_iff_ne]
        rintro rfl
        exact h.1 (List.mem_map.2 ⟨_, htail, rfl⟩)
      rw [List.lookup_cons, hne]
      exact ih h.2 htail

/-- The loop over the rows that match. -/
theorem mem_foldl {step : Finset Int → Int × V → Finset Int} {R : Int × V → Int → Prop}
    {l : List (Int × V)} {included : Finset Int}
    (h : ∀ p ∈ l, ∀ included, x ∈ step included p ↔ x ∈ included ∨ R p x) :
    x ∈ l.foldl step included ↔ x ∈ included ∨ ∃ p ∈ l, R p x := by
  induction l generalizing included with
  | nil => simp
  | cons p l ih =>
    rw [List.foldl_cons, ih fun q hq => h q (List.mem_cons_of_mem _ hq),
      h p List.mem_cons_self included]
    simp [or_assoc]

/-- A list of rows that keeps those that match or have a match below them. -/
structure Closure (up : Int → Option Int) (hit : V → Bool) (all kept : List (Int × V)) : Prop where
  order : kept.Sublist all
  nodup : (kept.map Prod.fst).Nodup
  mem : ∀ id row, (id, row) ∈ kept ↔
    (id, row) ∈ all ∧ ∃ m row', (m, row') ∈ all ∧ hit row' = true ∧ Above up m id

theorem Closure.of_included {hit : V → Bool} {included : Finset Int} (h : (rows.map Prod.fst).Nodup)
    (hincluded : ∀ x, x ∈ included ↔
      ∃ p ∈ rows, hit p.2 = true ∧ Reaches parent rows (some p.1) x) :
    Closure (upIn parent rows) hit rows (rows.filter fun p => p.1 ∈ included) where
  order := List.filter_sublist
  nodup := h.sublist (List.filter_sublist.map Prod.fst)
  mem id row := by
    rw [List.mem_filter, decide_eq_true_iff, hincluded]
    refine and_congr_right fun hmem => ⟨?_, ?_⟩
    · rintro ⟨p, hp, hhit, -, c, hc, habove⟩
      cases hc
      exact ⟨p.1, p.2, hp, hhit, habove⟩
    · rintro ⟨m, row', hm, hhit, habove⟩
      refine ⟨(m, row'), hm, hhit, ?_, m, rfl, habove⟩
      rw [(lookup_iff_mem h).2 hmem]
      rfl

end

theorem filterDepartments_closure {casefold : String → String} {needle : String}
    {depts : List (DeptId × Department)} (h : (depts.map Prod.fst).Nodup) :
    Closure (upIn Department.parentId depts) (departmentMatches casefold needle) depts
      (filterDepartments casefold needle depts) := by
  refine Closure.of_included h fun x => ?_
  refine (mem_foldl (R := fun p x => departmentMatches casefold needle p.2 = true ∧
    Reaches Department.parentId depts (some p.1) x) fun p _ included => ?_).trans (by simp)
  split
  · next hhit =>
    rw [mem_includeAncestors (Gathering.start _ _)]
    simp [hhit]
  · next hhit => simp [hhit]

theorem filterWithAncestors_closure {lower : String → String} {keyword : String}
    {menus : List (MenuId × Menu)} (h : (menus.map Prod.fst).Nodup) :
    Closure (upIn Menu.parentId menus) (matchesKeyword lower · keyword) menus
      (filterWithAncestors lower menus keyword) := by
  refine Closure.of_included h fun x => ?_
  refine (mem_foldl (R := fun p x => matchesKeyword lower p.2 keyword = true ∧
    Reaches Menu.parentId menus (some p.1) x) fun p hp included => ?_).trans (by simp)
  have hrow : menus.lookup p.1 = some p.2 := (lookup_iff_mem h).2 hp
  split
  · next hhit =>
    have hstart : Gathering (upIn Menu.parentId menus) p.2.parentId {p.1} (insert p.1 included) :=
      { included := by simp
        closed := fun a ha b hb => by
          rw [Finset.mem_singleton.1 ha, upIn, hrow] at hb
          exact .inr hb }
    rw [mem_includeParents hstart, reaches_some hrow, Finset.mem_insert]
    simp only [hhit, true_and]
    tauto
  · next hhit => simp [hhit]

/-! ## The services -/

section

variable {db : Database} {x y : Int}

/-- The parent of an existing department. -/
def Database.parentDepartment (db : Database) (d : DeptId) : Option DeptId :=
  (db.department d).bind Department.parentId

/-- The parents in the list of all rows are those in the table. -/
theorem lookup_orderedRows {V : Type} {table : Table Int V} {isDeleted : V → Bool}
    {sortOrder : V → Int} {id : Int} : (orderedRows isDeleted sortOrder table).lookup id =
      (table.lookup id).filter fun row => !isDeleted row := by
  refine Option.ext fun row => ?_
  rw [lookup_iff_mem nodup_orderedRows, mem_orderedRows]

theorem upIn_departments :
    upIn Department.parentId db.listAllDepartments = db.parentDepartment := by
  funext d
  rw [upIn, Database.listAllDepartments, lookup_orderedRows]
  rfl

theorem upIn_menus : upIn Menu.parentId db.listAllMenus = db.parentMenu := by
  funext m
  rw [upIn, Database.listAllMenus, lookup_orderedRows]
  rfl

/-- An empty text is in every text. -/
theorem matchesKeyword_empty {lower : String → String} {menu : Menu} :
    matchesKeyword lower menu "" = true := by
  simp [matchesKeyword, Python.contains]

/-- What a menu is searched for. -/
def searched (lower : String → String) (keyword : String) : String := lower (Python.strip keyword)

/-- For every keyword both lists end, and keep the rows that match it or have a match below them, in
their order and once. -/
theorem lists_closed (casefold lower : String → String) (keyword : String) (u : UnitOfWork) :
    (∃ kept, (listDepartments casefold (some keyword)).run u = .ok (kept, u) ∧
      Closure u.db.parentDepartment (departmentMatches casefold (casefold keyword))
        u.db.listAllDepartments kept) ∧
    ∃ kept, (listMenus lower (some keyword)).run u = .ok (kept, u) ∧
      Closure u.db.parentMenu (matchesKeyword lower · (searched lower keyword)) u.db.listAllMenus
        kept := by
  refine ⟨⟨_, rfl, ?_⟩, ?_⟩
  · rw [← upIn_departments]
    exact filterDepartments_closure nodup_orderedRows
  · rw [← upIn_menus]
    by_cases hempty : searched lower keyword = ""
    · refine ⟨u.db.listAllMenus, ?_, ?_⟩
      · unfold listMenus
        rw [Work.run_bind_ok (run_query _)]
        simp only [Option.map_some, Option.getD_some]
        rw [if_pos (show lower (Python.strip keyword) = "" from hempty)]
        rfl
      · rw [hempty]
        refine ⟨List.Sublist.refl _, nodup_orderedRows, fun id row => ⟨fun hmem => ?_, And.left⟩⟩
        exact ⟨hmem, id, row, hmem, matchesKeyword_empty, .refl⟩
    · refine ⟨_, ?_, filterWithAncestors_closure nodup_orderedRows⟩
      unfold listMenus
      rw [Work.run_bind_ok (run_query _)]
      simp only [Option.map_some, Option.getD_some]
      rw [if_neg (show ¬ lower (Python.strip keyword) = "" from hempty)]
      rfl

end

end Rbac
