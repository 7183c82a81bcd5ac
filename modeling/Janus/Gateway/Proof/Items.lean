import Janus.Gateway.Events

/-!
# Copies, batches and rows

A retry changes the attempts of an item only: two items with the same `core` are copies of one
event and make the same row. A batch makes one row for each request id (`usageRows_covers`), and an
insert leaves for each row of the batch that row or an older one with its request id
(`insert_recorded`).
-/

set_option autoImplicit false

namespace Events

open Conc Python

/-! ## Copies -/

section Items

variable {d : Fields} {key : String} {v default : Value} {raw raw' : Raw} {n : Int}
  {parse : String → Option Int}

/-- An entry that is there is replaced, a new one comes last. -/
theorem Fields.set_cons {entry : String × Value} : Fields.set (entry :: d) key v =
    if entry.1 = key then (key, v) :: d.map (fun entry => if entry.1 = key then (key, v) else entry)
    else entry :: Fields.set d key v := by
  unfold Fields.set
  by_cases hk : entry.1 = key
  · simp [hk]
  · by_cases hd : d.any (·.1 = key) = true
    · simp [hk, hd]
    · simp [hk, hd]

theorem get_set : (d.set key v).get key default = v := by
  unfold Fields.get
  induction d with
  | nil => simp [Fields.set]
  | cons entry d ih =>
    rw [Fields.set_cons]
    obtain ⟨k, x⟩ := entry
    by_cases hk : k = key
    · simp [hk]
    · have hne : (key == k) = false := by simpa using Ne.symm hk
      rw [if_neg hk, List.lookup_cons, hne]
      exact ih

theorem filter_map_set : (d.map fun entry => if entry.1 = key then (key, v) else entry).filter
    (·.1 ≠ key) = d.filter (·.1 ≠ key) := by
  induction d with
  | nil => rfl
  | cons entry d ih =>
    rw [List.map_cons]
    by_cases hk : entry.1 = key
    · rw [if_pos hk, List.filter_cons_of_neg (by simp), List.filter_cons_of_neg (by simp [hk]), ih]
    · rw [if_neg hk, List.filter_cons_of_pos (by simp [hk]), List.filter_cons_of_pos (by simp [hk]),
        ih]

theorem filter_set : (d.set key v).filter (·.1 ≠ key) = d.filter (·.1 ≠ key) := by
  unfold Fields.set
  split
  · exact filter_map_set
  · simp

/-- An event without its attempts. -/
def core : Raw → Raw
  | .json (.dict fields) => .json (.dict (fields.filter (·.1 ≠ attemptKey)))
  | raw => raw

/-- How often the event was tried. -/
def attempts (parse : String → Option Int) (raw : Raw) : Int :=
  match raw.record with
  | some fields =>
    match (Fields.get fields attemptKey (.int 0)).toIntOrZero parse with
    | .ok n => n
    | .error _ => 0
  | none => 0

theorem toIntOrZero_int : (Value.int n).toIntOrZero parse = .ok n := by
  unfold Value.toIntOrZero Value.truthy Value.toInt
  by_cases hn : n = 0
  · simp [hn]
  · simp [hn]

/-- A retry is a copy with one attempt more. -/
theorem incrementAttempt_eq (hraw : raw.record.isSome = true)
    (h : incrementAttempt parse raw = .ok (raw', n)) :
    core raw' = core raw ∧ attempts parse raw' = n ∧ n = attempts parse raw + 1 := by
  obtain ⟨fields, hfields⟩ := Option.isSome_iff_exists.1 hraw
  unfold Raw.record at hfields
  split at hfields
  · next fields' =>
    cases hfields
    unfold incrementAttempt attemptPayload at h
    dsimp only [bind, Except.bind] at h
    split at h
    · cases h
    · next m hm =>
      split at h
      swap
      · cases h
      cases h
      refine ⟨?_, ?_, ?_⟩
      · show Raw.json (.dict _) = Raw.json (.dict _)
        rw [filter_set]
      · unfold attempts Raw.record
        dsimp only
        rw [get_set, toIntOrZero_int]
      · unfold attempts Raw.record
        dsimp only
        rw [hm]
  · cases hfields

theorem lookup_filter (hne : key ≠ attemptKey) :
    (d.filter (·.1 ≠ attemptKey)).lookup key = d.lookup key := by
  induction d with
  | nil => rfl
  | cons entry d ih =>
    obtain ⟨k, x⟩ := entry
    by_cases hk : k = attemptKey
    · have hkey : (key == k) = false := by simpa [hk] using hne
      rw [List.filter_cons_of_neg (by simp [hk]), ih, List.lookup_cons, hkey]
    · rw [List.filter_cons_of_pos (by simp [hk]), List.lookup_cons, List.lookup_cons]
      cases key == k with
      | true => rfl
      | false => exact ih

theorem get_filter (hne : key ≠ attemptKey) :
    Fields.get (d.filter (·.1 ≠ attemptKey)) key default = Fields.get d key default := by
  unfold Fields.get
  rw [lookup_filter hne]

end Items

section Rows

variable {py : Builtins} {fields fields' : Fields} {records : List Fields} {seen : List String}
  {row : Row} {rows : List Row} {raw raw' : Raw}

/-! ## Rows -/

/-- The deduplication key of an event. -/
def requestId (fields : Fields) : Value := Fields.get fields "request_id" .none

theorem toUsageRow_filter :
    toUsageRow py (fields.filter (·.1 ≠ attemptKey)) = toUsageRow py fields := by
  have hget {key : String} {default : Value} (hne : key ≠ attemptKey) :
      Fields.get (fields.filter (·.1 ≠ attemptKey)) key default = Fields.get fields key default :=
    get_filter hne
  unfold toUsageRow getRequired
  rw [lookup_filter (by decide), lookup_filter (by decide)]
  simp only [hget (show "cost" ≠ attemptKey by decide),
    hget (show "api_key_id" ≠ attemptKey by decide),
    hget (show "channel_id" ≠ attemptKey by decide),
    hget (show "upstream_model" ≠ attemptKey by decide),
    hget (show "prompt_tokens" ≠ attemptKey by decide),
    hget (show "completion_tokens" ≠ attemptKey by decide),
    hget (show "total_tokens" ≠ attemptKey by decide), hget (show "status" ≠ attemptKey by decide),
    hget (show "latency_ms" ≠ attemptKey by decide),
    hget (show "request_id" ≠ attemptKey by decide),
    hget (show "downgraded_features" ≠ attemptKey by decide)]

/-- Copies of one event are events together. -/
theorem core_record (h : core raw = core raw') (hraw : raw.record = some fields) :
    ∃ fields', raw'.record = some fields' ∧
      fields.filter (·.1 ≠ attemptKey) = fields'.filter (·.1 ≠ attemptKey) := by
  unfold Raw.record at hraw
  split at hraw
  · next d =>
    cases hraw
    cases raw' with
    | text s => cases h
    | unloadable s => cases h
    | json value =>
      cases value with
      | dict d' =>
        refine ⟨d', rfl, ?_⟩
        injection h with h
        injection h
      | _ => cases h
  · cases hraw

/-- Copies of one event make the same row. -/
theorem core_row (h : core raw = core raw') (hraw : raw.record = some fields)
    (hraw' : raw'.record = some fields') :
    toUsageRow py fields = toUsageRow py fields' ∧ requestId fields = requestId fields' := by
  obtain ⟨d, hd, hfilter⟩ := core_record h hraw
  cases hd.symm.trans hraw'
  constructor
  · rw [← toUsageRow_filter, hfilter, toUsageRow_filter]
  · unfold requestId
    rw [← get_filter (show "request_id" ≠ attemptKey by decide), hfilter,
      get_filter (show "request_id" ≠ attemptKey by decide)]

theorem toUsageRow_requestId (h : toUsageRow py fields = .ok row) :
    row.requestId = requestId fields := by
  unfold toUsageRow at h
  cases huser : getRequired fields "user_id" with
  | error e =>
    rw [huser] at h
    cases h
  | ok userId =>
    cases hmodel : getRequired fields "logical_model_id" with
    | error e =>
      rw [huser, hmodel] at h
      cases h
    | ok logicalModelId =>
      rw [huser, hmodel] at h
      cases h
      rfl

theorem isSome_of_truthy {v : Value} (h : v.truthy = true) : v.isSome = true := by
  cases v with
  | none => cases h
  | _ => rfl

/-! ## Batches -/

/-- The request id of a record came before. -/
def Skipped (py : Builtins) (seen : List String) (fields : Fields) : Prop :=
  (requestId fields).truthy = true ∧ py.str (requestId fields) ∈ seen

instance : Decidable (Skipped py seen fields) := inferInstanceAs (Decidable (_ ∧ _))

/-- The request ids after a record. -/
def seenAfter (py : Builtins) (seen : List String) (fields : Fields) : List String :=
  if (requestId fields).truthy then py.str (requestId fields) :: seen else seen

theorem usageRows_eq : usageRows py seen (fields :: records) =
    if Skipped py seen fields then usageRows py seen records
    else (do
      let row ← toUsageRow py fields
      let rows ← usageRows py (seenAfter py seen fields) records
      pure (row :: rows)) := by
  rw [usageRows]
  change (if (requestId fields).truthy = true then
    (if py.str (requestId fields) ∈ seen then _ else _) else _) = _
  by_cases htruthy : (requestId fields).truthy = true
  · have hafter : seenAfter py seen fields = py.str (requestId fields) :: seen := if_pos htruthy
    by_cases hseen : py.str (requestId fields) ∈ seen
    · have hskip : Skipped py seen fields := ⟨htruthy, hseen⟩
      rw [if_pos htruthy, if_pos hseen, if_pos hskip]
    · have hskip : ¬ Skipped py seen fields := fun h => hseen h.2
      rw [if_pos htruthy, if_neg hseen, if_neg hskip, hafter]
      rfl
  · have hskip : ¬ Skipped py seen fields := fun h => htruthy h.1
    have hafter : seenAfter py seen fields = seen := if_neg htruthy
    rw [if_neg htruthy, if_neg hskip, hafter]

/-- A record is skipped, or it makes the next row. -/
theorem usageRows_cons (h : usageRows py seen (fields :: records) = .ok rows) :
    (Skipped py seen fields ∧ usageRows py seen records = .ok rows) ∨
    ¬ Skipped py seen fields ∧ ∃ row rest, rows = row :: rest ∧ toUsageRow py fields = .ok row ∧
      usageRows py (seenAfter py seen fields) records = .ok rest := by
  rw [usageRows_eq] at h
  by_cases hskip : Skipped py seen fields
  · rw [if_pos hskip] at h
    exact .inl ⟨hskip, h⟩
  · rw [if_neg hskip] at h
    cases hrow : toUsageRow py fields with
    | error e =>
      rw [hrow] at h
      cases h
    | ok row =>
      cases hrest : usageRows py (seenAfter py seen fields) records with
      | error e =>
        rw [hrow, hrest] at h
        cases h
      | ok rest =>
        rw [hrow, hrest] at h
        cases h
        exact .inr ⟨hskip, row, rest, rfl, rfl, rfl⟩

/-- The rows of the first records do not depend on the later ones. -/
theorem usageRows_append {later : List Fields}
    (h : usageRows py seen (records ++ later) = .ok rows) :
    ∃ rows', usageRows py seen records = .ok rows' ∧ rows' ⊆ rows := by
  induction records generalizing seen rows with
  | nil => exact ⟨[], rfl, List.nil_subset _⟩
  | cons fields records ih =>
    rw [usageRows_eq]
    rcases usageRows_cons h with ⟨hskip, hrest⟩ | ⟨hskip, row, rest, rfl, hrow, hrest⟩
    · rw [if_pos hskip]
      exact ih hrest
    · obtain ⟨rows', hrows', hsub⟩ := ih hrest
      rw [if_neg hskip, hrow, hrows']
      exact ⟨row :: rows', rfl, List.cons_subset_cons _ hsub⟩

/-- Every row is the row of a record. -/
theorem usageRows_mem (h : usageRows py seen records = .ok rows) (hrow : row ∈ rows) :
    ∃ fields ∈ records, toUsageRow py fields = .ok row := by
  induction records generalizing seen rows with
  | nil =>
    cases h
    cases hrow
  | cons fields records ih =>
    rcases usageRows_cons h with ⟨-, h⟩ | ⟨-, first, rest, rfl, hfirst, h⟩
    · obtain ⟨fields', hmem, hf⟩ := ih h hrow
      exact ⟨fields', List.mem_cons_of_mem _ hmem, hf⟩
    · rcases List.mem_cons.1 hrow with rfl | hrow
      · exact ⟨fields, List.mem_cons_self, hfirst⟩
      · obtain ⟨fields', hmem, hf⟩ := ih h hrow
        exact ⟨fields', List.mem_cons_of_mem _ hmem, hf⟩

/-- What there is of a record: its row, or one with the same request id. -/
def Recorded (py : Builtins) (table : List Row) (fields : Fields) : Prop :=
  ∃ row ∈ table, toUsageRow py fields = .ok row ∨
    row.requestId.isSome = true ∧ py.str row.requestId = py.str (requestId fields)

theorem Recorded.mono {table table' : List Row} (h : Recorded py table fields)
    (hsub : table ⊆ table') : Recorded py table' fields := by
  obtain ⟨row, hrow, hsame⟩ := h
  exact ⟨row, hsub hrow, hsame⟩

/-- A batch has a row for every record, or for one with its request id. -/
theorem usageRows_covers (h : usageRows py seen records = .ok rows) (hmem : fields ∈ records) :
    Recorded py rows fields ∨ py.str (requestId fields) ∈ seen := by
  induction records generalizing seen rows with
  | nil => cases hmem
  | cons first records ih =>
    rcases usageRows_cons h with ⟨hskip, h⟩ | ⟨-, row, rest, rfl, hrow, h⟩
    · rcases List.mem_cons.1 hmem with rfl | hmem
      · exact .inr hskip.2
      · exact ih h hmem
    · rcases List.mem_cons.1 hmem with rfl | hmem
      · exact .inl ⟨row, List.mem_cons_self, .inl hrow⟩
      · rcases ih h hmem with hrec | hseen
        · exact .inl (hrec.mono (List.subset_cons_self _ _))
        · unfold seenAfter at hseen
          by_cases htruthy : (requestId first).truthy = true
          · rw [if_pos htruthy] at hseen
            rcases List.mem_cons.1 hseen with hsame | hseen
            · refine .inl ⟨row, List.mem_cons_self, .inr ?_⟩
              rw [toUsageRow_requestId hrow]
              exact ⟨isSome_of_truthy htruthy, hsame.symm⟩
            · exact .inr hseen
          · rw [if_neg htruthy] at hseen
            exact .inr hseen

/-! ## The insert -/

theorem insertRow_subset {table : List Row} : table ⊆ insertRow table row := by
  unfold insertRow
  split
  · exact List.Subset.refl _
  · exact List.subset_append_left _ _

theorem insert_subset {table : List Row} : table ⊆ insertIgnoreConflicts table rows := by
  unfold insertIgnoreConflicts
  induction rows generalizing table with
  | nil => exact List.Subset.refl _
  | cons row rows ih => exact List.Subset.trans insertRow_subset ih

/-- After the insert there is each row or an older one with its request id. -/
theorem insert_mem {table : List Row} (hrow : row ∈ rows) :
    ∃ row' ∈ insertIgnoreConflicts table rows, row' = row ∨
      row.requestId.isSome = true ∧ row'.requestId = row.requestId := by
  induction rows generalizing table with
  | nil => cases hrow
  | cons first rows ih =>
    rcases List.mem_cons.1 hrow with rfl | hrow
    · have hfirst : ∃ row' ∈ insertRow table row, row' = row ∨
          row.requestId.isSome = true ∧ row'.requestId = row.requestId := by
        unfold insertRow
        split
        · next hconflict =>
          obtain ⟨row', hrow', hsame⟩ := List.any_eq_true.1 hconflict.2
          exact ⟨row', hrow', .inr ⟨hconflict.1, of_decide_eq_true hsame⟩⟩
        · exact ⟨row, List.mem_append_right _ List.mem_cons_self, .inl rfl⟩
      obtain ⟨row', hrow', hsame⟩ := hfirst
      have hsub : insertRow table row ⊆ insertIgnoreConflicts (insertRow table row) rows :=
        insert_subset
      exact ⟨row', hsub hrow', hsame⟩
    · exact ih hrow

/-- What a committed batch leaves of its records. -/
theorem insert_recorded {table : List Row} (h : usageRows py [] records = .ok rows)
    (hmem : fields ∈ records) : Recorded py (insertIgnoreConflicts table rows) fields := by
  rcases usageRows_covers h hmem with ⟨row, hrow, hsame⟩ | hseen
  · have hleft : ∃ row' ∈ insertIgnoreConflicts table rows, row' = row ∨
        row.requestId.isSome = true ∧ row'.requestId = row.requestId := insert_mem hrow
    obtain ⟨row', hrow', rfl | ⟨hsome, hid⟩⟩ := hleft
    · exact ⟨row', hrow', hsame⟩
    · refine ⟨row', hrow', .inr ?_⟩
      rw [hid]
      rcases hsame with hown | hsame
      · exact ⟨hsome, by rw [toUsageRow_requestId hown]⟩
      · exact hsame
  · cases hseen

end Rows

end Events
