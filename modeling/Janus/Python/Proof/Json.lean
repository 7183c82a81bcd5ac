import Mathlib
import Janus.Python.Json

/-!
# What a JSON text says

Each kind of value begins with characters of its own (`head_write`), a number or a constant is a
token, and every list and dict is closed by its bracket, so the text determines the value
(`write_inj`, with one case for each constructor). Sorting the keys before loses their order only
(`canon_dict`).
-/

set_option autoImplicit false

namespace Python.Json

open Text

variable {texts : Texts} {x y : Value} {r s : List Char} {c : Char}

/-! ## Tokens -/

def tokenChar (c : Char) : Bool := c.isAlphanum || c == '-' || c == '+' || c == '.'

theorem tokenChar_of_numeral (h : numeralChar c = true) : tokenChar c = true := by
  simp only [numeralChar, Bool.or_eq_true, beq_iff_eq] at h
  rcases h with (((h | rfl) | rfl) | rfl) | rfl
  · simp [tokenChar, Char.isAlphanum, h]
  all_goals decide

/-- Numbers and constants. -/
def isAtom : Value → Bool
  | .none | .bool _ | .int _ | .float _ => true
  | _ => false

theorem numeralChar_int {n : Int} (h : c ∈ n.repr.toList) : numeralChar c = true := by
  rcases mem_repr_int h with rfl | h
  · rfl
  · simp [numeralChar, h]

theorem tokenChar_write (hx : isAtom x = true) (hdecoded : decoded texts x = true)
    (h : c ∈ write texts x) : tokenChar c = true := by
  have hfixed (t : String) (ht : t.toList.all tokenChar = true) (h : c ∈ t.toList) :
      tokenChar c = true := List.all_eq_true.1 ht c h
  cases x with
  | none => exact hfixed "null" (by decide) h
  | bool b =>
    cases b with
    | true => exact hfixed "true" (by decide) h
    | false => exact hfixed "false" (by decide) h
  | int n => exact tokenChar_of_numeral (numeralChar_int h)
  | float x =>
    cases x with
    | finite q => exact tokenChar_of_numeral (texts.repr_chars q hdecoded c h)
    | inf negative =>
      cases negative with
      | true => exact hfixed "-Infinity" (by decide) h
      | false => exact hfixed "Infinity" (by decide) h
    | nan => exact hfixed "NaN" (by decide) h
  | str _ | list _ | dict _ | object _ => cases hx

/-- The texts of the constants. -/
def constant : Value → Option (List Char)
  | .none => some "null".toList
  | .bool true => some "true".toList
  | .bool false => some "false".toList
  | .float (.inf false) => some "Infinity".toList
  | .float (.inf true) => some "-Infinity".toList
  | .float .nan => some "NaN".toList
  | _ => none

def readConstant (t : List Char) : Option Value :=
  [.none, .bool true, .bool false, .float (.inf false), .float (.inf true), .float .nan].find?
    fun x => constant x == some t

theorem readConstant_constant {t : List Char} (h : constant x = some t) : readConstant t = some x := by
  unfold constant at h
  split at h
  all_goals cases h
  all_goals rfl

theorem write_constant {t : List Char} (h : constant x = some t) : write texts x = t := by
  unfold constant at h
  split at h
  all_goals cases h
  all_goals rfl

/-- No constant is a numeral. -/
theorem not_numeral_of_constant {t : List Char} (h : constant x = some t) :
    ∃ c ∈ t, numeralChar c = false := by
  unfold constant at h
  split at h
  · cases h; exact ⟨'n', by decide, by decide⟩
  · cases h; exact ⟨'t', by decide, by decide⟩
  · cases h; exact ⟨'f', by decide, by decide⟩
  · cases h; exact ⟨'I', by decide, by decide⟩
  · cases h; exact ⟨'I', by decide, by decide⟩
  · cases h; exact ⟨'N', by decide, by decide⟩
  · cases h

/-- An atom is a constant, an integer or a finite float. -/
theorem atom_cases (hx : isAtom x = true) : (∃ t, constant x = some t) ∨ (∃ n, x = .int n) ∨
    ∃ q, x = .float (.finite q) := by
  cases x with
  | none => exact .inl ⟨_, rfl⟩
  | bool b => cases b <;> exact .inl ⟨_, rfl⟩
  | int n => exact .inr (.inl ⟨n, rfl⟩)
  | float x =>
    cases x with
    | finite q => exact .inr (.inr ⟨q, rfl⟩)
    | inf negative => cases negative <;> exact .inl ⟨_, rfl⟩
    | nan => exact .inl ⟨_, rfl⟩
  | str _ | list _ | dict _ | object _ => cases hx

theorem numeralChar_write {t : List Char} (hdecoded : decoded texts x = true)
    (hx : (∃ n, x = .int n) ∨ ∃ q, x = .float (.finite q)) (ht : write texts x = t) (h : c ∈ t) :
    numeralChar c = true := by
  subst ht
  rcases hx with ⟨n, rfl⟩ | ⟨q, rfl⟩
  · exact numeralChar_int h
  · exact texts.repr_chars q hdecoded c h

/-- The text of a double is not one of an integer. -/
theorem int_ne_finite {n : Int} {q : Rat} (hq : texts.isDouble q = true) :
    n.repr.toList ≠ (texts.repr q).toList := by
  intro h
  rcases texts.repr_point q hq with hm | hm
  all_goals
    rw [← h] at hm
    rcases mem_repr_int hm with hc | hc
    all_goals revert hc; decide

theorem atom_inj (hx : isAtom x = true) (hy : isAtom y = true) (hdx : decoded texts x = true)
    (hdy : decoded texts y = true) (h : write texts x = write texts y) : x = y := by
  rcases atom_cases hx with ⟨t, ht⟩ | hnumber
  · rcases atom_cases hy with ⟨u, hu⟩ | hnumber'
    · rw [write_constant ht, write_constant hu] at h
      subst h
      exact Option.some.inj ((readConstant_constant ht).symm.trans (readConstant_constant hu))
    · obtain ⟨c, hc, hno⟩ := not_numeral_of_constant ht
      rw [numeralChar_write hdy hnumber' (h.symm.trans (write_constant ht)) hc] at hno
      cases hno
  · rcases atom_cases hy with ⟨u, hu⟩ | hnumber'
    · obtain ⟨c, hc, hno⟩ := not_numeral_of_constant hu
      rw [numeralChar_write hdx hnumber (h.trans (write_constant hu)) hc] at hno
      cases hno
    · rcases hnumber with ⟨n, rfl⟩ | ⟨q, rfl⟩
      · rcases hnumber' with ⟨m, rfl⟩ | ⟨p, rfl⟩
        · rw [repr_int_inj.1 (String.toList_inj.1 h)]
        · exact absurd h (int_ne_finite hdy)
      · rcases hnumber' with ⟨m, rfl⟩ | ⟨p, rfl⟩
        · exact absurd h.symm (int_ne_finite hdx)
        · rw [texts.repr_inj q p hdx hdy (String.toList_inj.1 h)]

/-! ## The first character -/

inductive Kind
  | atom
  | str
  | list
  | dict
deriving DecidableEq

def kind : Value → Kind
  | .str _ | .object _ => .str
  | .list _ => .list
  | .dict _ => .dict
  | _ => .atom

/-- The kind of value that a character begins. -/
def begins (c : Char) : Option Kind :=
  if c = '"' then some .str else if c = '[' then some .list else if c = '{' then some .dict
  else if tokenChar c then some .atom else none

theorem begins_token (h : tokenChar c = true) : begins c = some .atom := by
  have hne (d : Char) (hd : tokenChar d = false) : c ≠ d := by
    rintro rfl
    rw [h] at hd
    cases hd
  rw [begins, if_neg (hne _ (by decide)), if_neg (hne _ (by decide)), if_neg (hne _ (by decide)),
    if_pos h]

theorem padded_ne_nil {width n : Nat} : padded width n ≠ [] := by
  unfold padded List.leftpad
  rw [Ne, List.append_eq_nil_iff, not_and_or]
  exact .inr Nat.toDigits_ne_nil

theorem write_ne_nil (hx : isAtom x = true) (hdecoded : decoded texts x = true) :
    write texts x ≠ [] := by
  rcases atom_cases hx with ⟨t, ht⟩ | ⟨n, rfl⟩ | ⟨q, rfl⟩
  · obtain ⟨c, hc, -⟩ := not_numeral_of_constant ht
    rw [write_constant ht]
    exact List.ne_nil_of_mem hc
  · change n.repr.toList ≠ []
    rw [toList_repr_int]
    split
    · exact padded_ne_nil
    · exact List.cons_ne_nil _ _
  · rcases texts.repr_point q hdecoded with hm | hm
    all_goals exact List.ne_nil_of_mem hm

theorem head_write (hdecoded : decoded texts x = true) :
    ∃ c t, write texts x = c :: t ∧ begins c = some (kind x) := by
  have hatom (hx : isAtom x = true) : ∃ c t, write texts x = c :: t ∧ begins c = some .atom := by
    obtain ⟨c, t, ht⟩ := List.exists_cons_of_ne_nil (write_ne_nil hx hdecoded)
    refine ⟨c, t, ht, begins_token (tokenChar_write hx hdecoded ?_)⟩
    rw [ht]
    exact List.mem_cons_self
  cases x with
  | none | bool _ | int _ | float _ => exact hatom rfl
  | str s => exact ⟨_, _, rfl, rfl⟩
  | list xs => exact ⟨_, _, rfl, rfl⟩
  | dict xs => exact ⟨_, _, rfl, rfl⟩
  | object _ => cases hdecoded

/-! ## Reading a text back -/

theorem stops_writeList {xs : List Value} : Stops tokenChar (writeList texts [',', ' '] xs ++ r) := by
  cases xs with
  | nil => exact stops_cons (by decide)
  | cons x xs => exact stops_cons (by decide)

theorem stops_writeFields {xs : Fields} :
    Stops tokenChar (writeFields texts [',', ' '] xs ++ r) := by
  cases xs with
  | nil => exact stops_cons (by decide)
  | cons x xs => exact stops_cons (by decide)

theorem kind_eq (hdx : decoded texts x = true) (hdy : decoded texts y = true)
    (h : write texts x ++ r = write texts y ++ s) : kind x = kind y := by
  obtain ⟨c, t, hx, hc⟩ := head_write hdx
  obtain ⟨d, u, hy, hd⟩ := head_write hdy
  rw [hx, hy] at h
  obtain rfl := (List.cons.inj h).1
  exact Option.some.inj (hc.symm.trans hd)

theorem isAtom_iff : isAtom x = true ↔ kind x = .atom := by
  cases x <;> simp [isAtom, kind]

/-- An item does not begin like the closing bracket, nor like the separator of the next item. -/
theorem separated {separator : List Char} (hseparator : separator = [] ∨ separator = [',', ' '])
    (hx : decoded texts x = true) (hc : c = ']' ∨ c = '}') :
    separator ++ (write texts x ++ r) ≠ c :: s := by
  rcases hseparator with rfl | rfl
  · obtain ⟨d, t, ht, hd⟩ := head_write hx
    rw [ht]
    intro h
    obtain rfl := (List.cons.inj h).1
    rcases hc with rfl | rfl <;> cases hd
  · intro h
    have hcomma := (List.cons.inj h).1
    rcases hc with rfl | rfl <;> cases hcomma

/-- The text of a value, if the texts of its items are read back. -/
theorem write_inj_of (hdx : decoded texts x = true) (hdy : decoded texts y = true)
    (hr : Stops tokenChar r) (hs : Stops tokenChar s) (h : write texts x ++ r = write texts y ++ s)
    (hlist : ∀ xs ys, x = .list xs → y = .list ys →
      writeList texts [] xs ++ r = writeList texts [] ys ++ s → xs = ys ∧ r = s)
    (hdict : ∀ xs ys, x = .dict xs → y = .dict ys →
      writeFields texts [] xs ++ r = writeFields texts [] ys ++ s → xs = ys ∧ r = s) :
    x = y ∧ r = s := by
  have hkind := kind_eq hdx hdy h
  cases x with
  | none | bool _ | int _ | float _ =>
    have hay := isAtom_iff.2 hkind.symm
    obtain ⟨hsame, hrest⟩ := token_inj (fun c hc => tokenChar_write rfl hdx hc)
      (fun c hc => tokenChar_write hay hdy hc) hr hs h
    exact ⟨atom_inj rfl hay hdx hdy hsame, hrest⟩
  | str a =>
    cases y with
    | str b =>
      obtain ⟨hsame, hrest⟩ := escaping.quoted_inj h
      exact ⟨congrArg Value.str (String.toList_inj.1 hsame), hrest⟩
    | object _ => cases hdy
    | _ => cases hkind
  | list xs =>
    cases y with
    | list ys =>
      obtain ⟨hsame, hrest⟩ := hlist xs ys rfl rfl (List.cons.inj h).2
      exact ⟨congrArg Value.list hsame, hrest⟩
    | _ => cases hkind
  | dict xs =>
    cases y with
    | dict ys =>
      obtain ⟨hsame, hrest⟩ := hdict xs ys rfl rfl (List.cons.inj h).2
      exact ⟨congrArg Value.dict hsame, hrest⟩
    | _ => cases hkind
  | object _ => cases hdx

theorem decoded_list {xs : List Value} (h : decoded texts (.list xs) = true) :
    decodedList texts xs = true := by
  rwa [decoded] at h

theorem decoded_dict {xs : Fields} (h : decoded texts (.dict xs) = true) :
    (xs.map Prod.fst).Nodup ∧ decodedFields texts xs = true := by
  rwa [decoded, Bool.and_eq_true, decide_eq_true_iff] at h

mutual

theorem write_inj : ∀ {x y : Value} {r s : List Char}, decoded texts x = true →
    decoded texts y = true → Stops tokenChar r → Stops tokenChar s →
    write texts x ++ r = write texts y ++ s → x = y ∧ r = s
  | .list xs, y, r, s, hdx, hdy, hr, hs, h => by
    refine write_inj_of hdx hdy hr hs h (fun xs' ys hx hy hitems => ?_) (fun _ _ hx => by cases hx)
    cases hx
    subst hy
    exact writeList_inj (.inl rfl) (decoded_list hdx) (decoded_list hdy) hitems
  | .dict xs, y, r, s, hdx, hdy, hr, hs, h => by
    refine write_inj_of hdx hdy hr hs h (fun _ _ hx => by cases hx) (fun xs' ys hx hy hitems => ?_)
    cases hx
    subst hy
    exact writeFields_inj (.inl rfl) (decoded_dict hdx).2 (decoded_dict hdy).2 hitems
  | .none, _, _, _, hdx, hdy, hr, hs, h | .bool _, _, _, _, hdx, hdy, hr, hs, h
  | .int _, _, _, _, hdx, hdy, hr, hs, h | .float _, _, _, _, hdx, hdy, hr, hs, h
  | .str _, _, _, _, hdx, hdy, hr, hs, h | .object _, _, _, _, hdx, hdy, hr, hs, h => by
    refine write_inj_of hdx hdy hr hs h (fun _ _ hx => by cases hx) fun _ _ hx => by cases hx

theorem writeList_inj : ∀ {separator : List Char} {xs ys : List Value} {r s : List Char},
    (separator = [] ∨ separator = [',', ' ']) → decodedList texts xs = true →
    decodedList texts ys = true →
    writeList texts separator xs ++ r = writeList texts separator ys ++ s → xs = ys ∧ r = s
  | _, [], [], _, _, _, _, _, h => ⟨rfl, (List.cons.inj h).2⟩
  | _, [], y :: ys, _, _, hseparator, _, hy, h => by
    rw [decodedList, Bool.and_eq_true] at hy
    simp only [writeList, List.append_assoc, List.cons_append, List.nil_append] at h
    exact absurd h.symm (separated hseparator hy.1 (.inl rfl))
  | _, x :: xs, [], _, _, hseparator, hx, _, h => by
    rw [decodedList, Bool.and_eq_true] at hx
    simp only [writeList, List.append_assoc, List.cons_append, List.nil_append] at h
    exact absurd h (separated hseparator hx.1 (.inl rfl))
  | _, x :: xs, y :: ys, _, _, hseparator, hx, hy, h => by
    rw [decodedList, Bool.and_eq_true] at hx hy
    simp only [writeList, List.append_assoc] at h
    obtain ⟨rfl, hrest⟩ := write_inj hx.1 hy.1 stops_writeList stops_writeList
      (List.append_cancel_left h)
    obtain ⟨rfl, hend⟩ := writeList_inj (.inr rfl) hx.2 hy.2 hrest
    exact ⟨rfl, hend⟩

theorem writeFields_inj : ∀ {separator : List Char} {xs ys : List (String × Value)}
    {r s : List Char}, (separator = [] ∨ separator = [',', ' ']) → decodedFields texts xs = true →
    decodedFields texts ys = true →
    writeFields texts separator xs ++ r = writeFields texts separator ys ++ s → xs = ys ∧ r = s
  | _, [], [], _, _, _, _, _, h => ⟨rfl, (List.cons.inj h).2⟩
  | _, [], (k, y) :: ys, _, _, hseparator, _, hy, h => by
    rcases hseparator with rfl | rfl <;> cases (List.cons.inj h).1
  | _, (k, x) :: xs, [], _, _, hseparator, hx, _, h => by
    rcases hseparator with rfl | rfl <;> cases (List.cons.inj h).1
  | _, (k, x) :: xs, (l, y) :: ys, _, _, hseparator, hx, hy, h => by
    rw [decodedFields, Bool.and_eq_true] at hx hy
    simp only [writeFields, List.append_assoc, List.cons_append] at h
    obtain ⟨hkey, hvalue⟩ := escaping.quoted_inj (List.append_cancel_left h)
    obtain rfl := String.toList_inj.1 hkey
    obtain ⟨rfl, hrest⟩ := write_inj hx.1 hy.1 stops_writeFields stops_writeFields
      (List.cons.inj (List.cons.inj hvalue).2).2
    obtain ⟨rfl, hend⟩ := writeFields_inj (.inr rfl) hx.2 hy.2 hrest
    exact ⟨rfl, hend⟩

end

/-! ## Sorted keys -/

theorem canonList_eq (xs : List Value) : canonList xs = xs.map canon := by
  induction xs with
  | nil => rfl
  | cons x xs ih => rw [canonList, ih, List.map_cons]

theorem canonFields_eq (xs : Fields) :
    canonFields xs = xs.map fun entry => (entry.1, canon entry.2) := by
  induction xs with
  | nil => rfl
  | cons entry xs ih => rw [canonFields, ih, List.map_cons]

theorem decodedList_iff {xs : List Value} :
    decodedList texts xs = true ↔ ∀ x ∈ xs, decoded texts x = true := by
  induction xs with
  | nil => simp [decodedList]
  | cons x xs ih => rw [decodedList, Bool.and_eq_true, ih, List.forall_mem_cons]

theorem decodedFields_iff {xs : Fields} :
    decodedFields texts xs = true ↔ ∀ entry ∈ xs, decoded texts entry.2 = true := by
  induction xs with
  | nil => simp [decodedFields]
  | cons entry xs ih => rw [decodedFields, Bool.and_eq_true, ih, List.forall_mem_cons]

theorem keys_canonFields (xs : Fields) : (canonFields xs).map Prod.fst = xs.map Prod.fst := by
  rw [canonFields_eq, List.map_map]
  rfl

mutual

theorem decoded_canon : ∀ {x : Value}, decoded texts x = true → decoded texts (canon x) = true
  | .list xs, h => by
    rw [canon, decoded]
    exact decodedList_canon (decoded_list h)
  | .dict xs, h => by
    obtain ⟨hnodup, hvalues⟩ := decoded_dict h
    have hperm := List.mergeSort_perm (canonFields xs) fun x y => decide (x.1 ≤ y.1)
    rw [canon, decoded, Bool.and_eq_true, decide_eq_true_iff, (hperm.map Prod.fst).nodup_iff,
      keys_canonFields, decodedFields_iff]
    refine ⟨hnodup, fun entry hm => ?_⟩
    exact decodedFields_iff.1 (decodedFields_canon hvalues) entry (hperm.mem_iff.1 hm)
  | .none, h | .bool _, h | .int _, h | .float _, h | .str _, h | .object _, h => h

theorem decodedList_canon : ∀ {xs : List Value}, decodedList texts xs = true →
    decodedList texts (canonList xs) = true
  | [], _ => rfl
  | x :: xs, h => by
    rw [decodedList, Bool.and_eq_true] at h
    rw [canonList, decodedList, decoded_canon h.1, decodedList_canon h.2]
    rfl

theorem decodedFields_canon : ∀ {xs : Fields}, decodedFields texts xs = true →
    decodedFields texts (canonFields xs) = true
  | [], _ => rfl
  | (k, x) :: xs, h => by
    rw [decodedFields, Bool.and_eq_true] at h
    rw [canonFields, decodedFields, decoded_canon h.1, decodedFields_canon h.2]
    rfl

end

theorem canon_list {xs ys : List Value} :
    canon (.list xs) = canon (.list ys) ↔ List.Forall₂ (fun x y => canon x = canon y) xs ys := by
  rw [canon, canon, Value.list.injEq, canonList_eq, canonList_eq, ← List.forall₂_eq_eq_eq,
    List.forall₂_map_left_iff, List.forall₂_map_right_iff]

theorem lookup_canonFields {xs : Fields} {key : String} :
    (canonFields xs).lookup key = (xs.lookup key).map canon := by
  induction xs with
  | nil => rfl
  | cons entry xs ih =>
    obtain ⟨k, x⟩ := entry
    rw [canonFields, List.lookup_cons, List.lookup_cons]
    cases key == k with
    | true => rfl
    | false => exact ih

/-- The sorted items of a dict are its lookups. -/
theorem sortedItems_inj (d d' : Dict) :
    d.sortedItems = d'.sortedItems ↔ ∀ key, d.get? key = d'.get? key := by
  refine ⟨fun h key => by rw [← d.lookup_sortedItems, h, d'.lookup_sortedItems], fun h => ?_⟩
  have hsorted (d : Dict) : d.sortedItems.Pairwise fun x y => decide (x.1 ≤ y.1) = true := by
    refine List.pairwise_mergeSort (fun x y z hxy hyz => ?_) (fun x y => ?_) _
    · simp only [decide_eq_true_iff] at hxy hyz ⊢
      exact hxy.trans hyz
    · simp only [Bool.or_eq_true, decide_eq_true_iff]
      exact le_total x.1 y.1
  have hmem (entry : String × Value) : entry ∈ d.fields ↔ entry ∈ d'.fields := by
    rw [← lookup_eq_some d.nodup, ← lookup_eq_some d'.nodup]
    exact iff_of_eq (congrArg (· = some entry.2) (h entry.1))
  have hperm : d.sortedItems.Perm d'.sortedItems :=
    (List.mergeSort_perm _ _).trans (((List.perm_ext_iff_of_nodup (.of_map _ d.nodup)
      (.of_map _ d'.nodup)).2 hmem).trans (List.mergeSort_perm _ _).symm)
  refine List.Perm.eq_of_pairwise (fun x y hx hy hxy hyx => ?_) (hsorted d) (hsorted d') hperm
  -- two entries with the same key have the same value
  have hkey : x.1 = y.1 := le_antisymm (of_decide_eq_true hxy) (of_decide_eq_true hyx)
  have hvx := (lookup_eq_some d.nodup).2 (List.mem_mergeSort.1 hx)
  have hvy := (lookup_eq_some d'.nodup).2 (List.mem_mergeSort.1 hy)
  have hsame : d.get? x.1 = d'.get? y.1 := hkey ▸ h x.1
  exact Prod.ext hkey (Option.some.inj (hvx.symm.trans (hsame.trans hvy)))

/-- Dicts agree if they have the same keys, with values that agree. -/
theorem canon_dict {xs ys : Fields} (hx : (xs.map Prod.fst).Nodup) (hy : (ys.map Prod.fst).Nodup) :
    canon (.dict xs) = canon (.dict ys) ↔
      ∀ key, (xs.lookup key).map canon = (ys.lookup key).map canon := by
  have hx' : ((canonFields xs).map Prod.fst).Nodup := by rwa [keys_canonFields]
  have hy' : ((canonFields ys).map Prod.fst).Nodup := by rwa [keys_canonFields]
  rw [canon, canon, Value.dict.injEq]
  refine (sortedItems_inj ⟨_, hx'⟩ ⟨_, hy'⟩).trans (forall_congr' fun key => ?_)
  rw [Dict.get?, Dict.get?, lookup_canonFields, lookup_canonFields]

/-- The text determines the value up to the order of the keys. -/
theorem dumps_inj (hx : decoded texts x = true) (hy : decoded texts y = true) :
    dumps texts x = dumps texts y ↔ canon x = canon y := by
  refine ⟨fun h => ?_, fun h => by rw [dumps, dumps, h]⟩
  have hwritten : write texts (canon x) ++ [] = write texts (canon y) ++ [] := by
    rw [List.append_nil, List.append_nil]
    exact String.ofList_injective h
  exact (write_inj (decoded_canon hx) (decoded_canon hy) stops_nil stops_nil hwritten).1

end Python.Json
