import Mathlib.Algebra.Order.Ring.Int
import Mathlib.Data.List.Perm.Subperm
import Janus.Gateway.Proof.Gates
import Janus.Limit.Window

/-!
# The RPM window

The admissions of a rule that were not rolled back (`standing`) are a sliding window
(`Limit.Windowed`): whoever still counts at a check is in the sorted set that the check reads, since
neither the trimming nor the expiry of the key can have removed it. So no window of a minute,
wherever it ends, holds more admissions than the rule allows (`rpm_window`).
-/

set_option autoImplicit false

namespace RateLimit

open Conc Redis Limit

/-! ## What the scripts do to a sorted set -/

/-- The sorted set that a command reads or writes. -/
def Cmd.setKey : Cmd → Option Key
  | .rpmCheck key .. => some key
  | .concurrentCheck key .. => some key
  | .zrem key _ => some key
  | _ => none

section

variable {s : State} {key : Key} {nowMs windowMs limit ttlMs bound : Int} {member m : String}
  {z : ZSet String} {score : Int} {e : Option Nat}

theorem mem_of_score (h : z.score m = some score) : m ∈ z.map (·.1) := by
  unfold ZSet.score at h
  obtain ⟨x, hx, -⟩ := Option.map_eq_some_iff.1 h
  have hm : x.1 = m := by simpa using List.find?_some hx
  exact List.mem_map.2 ⟨x, List.mem_of_find?_eq_some hx, hm⟩

theorem ne_nil_of_score (h : z.score m = some score) : z ≠ [] := by
  rintro rfl
  cases h

theorem dropStale_ne {key' : Key} (h : key' ≠ key) : (s.dropStale key bound).sets key' = s.sets key' := by
  simp [State.dropStale, h]

/-- The commands on other keys leave a sorted set and its deadline alone. -/
theorem sets_run_ne {c : Cmd} (h : c.setKey ≠ some key) : (c.run s).2.sets key = s.sets key := by
  cases c with
  | rpmCheck k now windowMs limit member =>
    have hk : key ≠ k := fun e => h (congrArg some e.symm)
    show (s.addIfRoom k now windowMs limit member (windowMs + 1000)).2.sets key = _
    unfold State.addIfRoom
    dsimp only
    split
    · exact dropStale_ne hk
    · exact Table.set_ne hk
  | concurrentCheck k now limit member timeoutMs =>
    have hk : key ≠ k := fun e => h (congrArg some e.symm)
    show (s.addIfRoom k now timeoutMs limit member (timeoutMs + 10000)).2.sets key = _
    unfold State.addIfRoom
    dsimp only
    split
    · exact dropStale_ne hk
    · exact Table.set_ne hk
  | zrem k member =>
    have hk : key ≠ k := fun e => h (congrArg some e.symm)
    simp [Cmd.run, hk]
  | tpmCheck k now limit requestTokens refillRate ttlMs =>
    show (s.tpmCheck k now limit requestTokens refillRate ttlMs).2.sets key = _
    unfold State.tpmCheck
    dsimp only
    split <;> rfl
  | tpmSettle k delta limit ttlMs refillRate =>
    show (s.tpmSettle k delta limit ttlMs refillRate).sets key = _
    unfold State.tpmSettle
    split <;> rfl
  | emergencyAdmit rules now =>
    show (s.emergencyAdmit rules now).2.sets key = _
    unfold State.emergencyAdmit
    dsimp only
    split <;> rfl

/-- The cell that readers see. -/
theorem find_sets (h : s.sets key = some ⟨z, e⟩) (hlive : ∀ d, e = some d → s.time < d) :
    s.sets.find s.time key = some ⟨z, e⟩ := by
  refine Table.find_eq_some.2 ⟨h, ?_⟩
  cases e with
  | none => rfl
  | some d => simpa [Cell.live] using hlive d rfl

/-- A member above the bound stays in the set that a check trims. -/
theorem score_freshSet (h : s.sets key = some ⟨z, e⟩) (hlive : ∀ d, e = some d → s.time < d)
    (hm : z.score m = some score) (hb : bound < score) :
    (s.freshSet key bound).score m = some score := by
  unfold State.freshSet Table.get
  rw [find_sets h hlive]
  exact ZSet.score_dropUpTo_of_lt hm hb

/-- A trim keeps the deadline of a set that it does not empty. -/
theorem dropStale_sets (h : s.sets key = some ⟨z, e⟩) (hlive : ∀ d, e = some d → s.time < d)
    (hne : s.freshSet key bound ≠ []) :
    (s.dropStale key bound).sets key = some ⟨s.freshSet key bound, e⟩ := by
  simp [State.dropStale, Table.alter, hne, find_sets h hlive]

/-- So does a removal. -/
theorem zrem_sets (h : s.sets key = some ⟨z, e⟩) (hlive : ∀ d, e = some d → s.time < d)
    (hne : z.rem member ≠ []) :
    ((Cmd.zrem key member).run s).2.sets key = some ⟨z.rem member, e⟩ := by
  simp [Cmd.run, Table.alter, Table.get, hne, find_sets h hlive]

theorem rpmCheck_denied (h : limit ≤ (s.freshSet key (nowMs - windowMs)).card) :
    (Cmd.rpmCheck key nowMs windowMs limit member).run s =
      (.ok (false, (s.freshSet key (nowMs - windowMs)).card, limit,
        (s.freshSet key (nowMs - windowMs)).lowest.getD (-1)),
        s.dropStale key (nowMs - windowMs)) := by
  simp [Cmd.run, State.addIfRoom, h]

theorem rpmCheck_granted (h : ((s.freshSet key (nowMs - windowMs)).card : Int) < limit) :
    (Cmd.rpmCheck key nowMs windowMs limit member).run s =
      (.ok (true, (s.freshSet key (nowMs - windowMs)).card + 1, limit, -1),
        s.addMember key (s.freshSet key (nowMs - windowMs)) member nowMs (windowMs + 1000)) := by
  simp [Cmd.run, State.addIfRoom, not_le.2 h]

end

/-! ## Who stands in the window -/

/-- The admissions at `key` that were not rolled back since, with their readings of the clock. -/
def standing (key : Key) : Log Int Cmd Cmd.Resp → List (String × Int)
  | [] => []
  | (t, ⟨.rpmCheck k _ _ _ member, answer⟩) :: l =>
    if k = key ∧ granted answer then (member, t) :: standing key l else standing key l
  | (_, ⟨.zrem k member, _⟩) :: l =>
    if k = key then (standing key l).filter (·.1 ≠ member) else standing key l
  | (_, ⟨_, _⟩) :: l => standing key l

/-- The members of the checks at `key`. -/
def checkedMembers (key : Key) : Log Int Cmd Cmd.Resp → List String
  | [] => []
  | (_, ⟨.rpmCheck k _ _ _ member, _⟩) :: l =>
    if k = key then member :: checkedMembers key l else checkedMembers key l
  | (_, ⟨_, _⟩) :: l => checkedMembers key l

/-- The commands of a rule and others. Their readings of the clock may be behind the time of the
server, but not by more than a second longer at one command than at another. -/
def Synced (rule : Rule) (offset : Int) (t : Int) : Sem Cmd Cmd.Resp State :=
  fun c s r s' => t + offset ≤ s.time ∧ s.time ≤ t + offset + 1000 ∧ Clocked rule t c s r s'

section

variable {rule : Rule} {limit offset t : Int} {s s' s₀ : State} {l : Log Int Cmd Cmd.Resp}
  {x : String × Int}

/-- The sorted set holds this admission for as long as it counts. -/
def Held (rule : Rule) (offset : Int) (s : State) (x : String × Int) : Prop :=
  ∃ (z : ZSet String) (e : Nat), s.sets rule.rpmKey = some ⟨z, some e⟩ ∧ z.score x.1 = some x.2 ∧
    x.2 + offset + 61000 ≤ e

/-- No later check counts this admission. -/
def Past (offset : Int) (s : State) (l : Log Int Cmd Cmd.Resp) (x : String × Int) : Prop :=
  (∃ e ∈ l, x.2 + 60000 ≤ e.1) ∨ x.2 + offset + 61000 ≤ s.time

/-- The invariant of a rule's window. -/
structure InWindow (rule : Rule) (limit offset : Int) (s : State) (l : Log Int Cmd Cmd.Resp) :
    Prop where
  windowed : Windowed (fun x : String × Int => x.2) 60000 limit.toNat (standing rule.rpmKey l)
  nodup : ((standing rule.rpmKey l).map (·.1)).Nodup
  checked : ∀ x ∈ standing rule.rpmKey l, x.1 ∈ checkedMembers rule.rpmKey l
  stamped : ∀ x ∈ standing rule.rpmKey l, ∃ e ∈ l, e.1 = x.2
  held : ∀ x ∈ standing rule.rpmKey l, Held rule offset s x ∨ Past offset s l x

theorem Past.mono {l' : Log Int Cmd Cmd.Resp} (h : Past offset s l x) (hsub : l ⊆ l')
    (ht : s.time ≤ s'.time) : Past offset s' l' x := by
  rcases h with ⟨e, he, hx⟩ | hx
  · exact .inl ⟨e, hsub he, hx⟩
  · exact .inr (by omega)

/-- An admission that counts at a check is not past. -/
theorem Past.not_counted (h : Past offset s l x) (hl : ∀ e ∈ l, e.1 ≤ t)
    (htime : s.time ≤ t + offset + 1000) : x.2 ≤ t - 60000 := by
  rcases h with ⟨e, he, hx⟩ | hx
  · have := hl e he
    omega
  · omega

/-- Whatever leaves the set alone keeps the invariant. -/
theorem InWindow.frame {l' : Log Int Cmd Cmd.Resp} (h : InWindow rule limit offset s l)
    (hsets : s'.sets rule.rpmKey = s.sets rule.rpmKey) (ht : s.time ≤ s'.time)
    (hl : standing rule.rpmKey l' = standing rule.rpmKey l) (hsub : l ⊆ l')
    (hchecked : checkedMembers rule.rpmKey l ⊆ checkedMembers rule.rpmKey l') :
    InWindow rule limit offset s' l' where
  windowed := by rw [hl]; exact h.windowed
  nodup := by rw [hl]; exact h.nodup
  checked x hx := by rw [hl] at hx; exact hchecked (h.checked x hx)
  stamped x hx := by
    rw [hl] at hx
    obtain ⟨e, he, hx⟩ := h.stamped x hx
    exact ⟨e, hsub he, hx⟩
  held x hx := by
    rw [hl] at hx
    rcases h.held x hx with ⟨z, e, hz, hscore, he⟩ | hpast
    · exact .inl ⟨z, e, by rw [hsets]; exact hz, hscore, he⟩
    · exact .inr (hpast.mono hsub ht)

/-- A check counts every admission that stands in its window. -/
theorem InWindow.score (h : InWindow rule limit offset s l) (hl : ∀ e ∈ l, e.1 ≤ t)
    (htime : s.time ≤ t + offset + 1000) (hx : x ∈ standing rule.rpmKey l)
    (hin : t - 60000 < x.2) :
    ∃ (z : ZSet String) (e : Nat), s.sets rule.rpmKey = some ⟨z, some e⟩ ∧
      (∀ d, some e = some d → s.time < d) ∧ x.2 + offset + 61000 ≤ e ∧
      (s.freshSet rule.rpmKey (t - 60000)).score x.1 = some x.2 := by
  rcases h.held x hx with ⟨z, e, hz, hscore, he⟩ | hpast
  · have hlive : ∀ d, some e = some d → s.time < d := by
      intro d hd
      cases hd
      omega
    exact ⟨z, e, hz, hlive, he, score_freshSet hz hlive hscore hin⟩
  · have := hpast.not_counted hl htime
    omega

theorem InWindow.count_le (h : InWindow rule limit offset s l) (hl : ∀ e ∈ l, e.1 ≤ t)
    (htime : s.time ≤ t + offset + 1000) :
    (standing rule.rpmKey l).countP (fun x => t - 60000 < x.2) ≤
      (s.freshSet rule.rpmKey (t - 60000)).card := by
  have hnodup : (((standing rule.rpmKey l).filter fun x => t - 60000 < x.2).map (·.1)).Nodup :=
    h.nodup.sublist (List.filter_sublist.map _)
  have hsub : ((standing rule.rpmKey l).filter fun x => t - 60000 < x.2).map (·.1) ⊆
      (s.freshSet rule.rpmKey (t - 60000)).map (·.1) := by
    intro m hm
    obtain ⟨x, hx, rfl⟩ := List.mem_map.1 hm
    rw [List.mem_filter, decide_eq_true_eq] at hx
    obtain ⟨z, e, -, -, -, hscore⟩ := h.score hl htime hx.1 hx.2
    exact mem_of_score hscore
  have hle := (hnodup.subperm hsub).length_le
  rw [List.length_map, List.length_map] at hle
  rw [List.countP_eq_length_filter]
  exact hle

theorem InWindow.check_granted {member : String} (h : InWindow rule limit offset s l)
    (hl : ∀ e ∈ l, e.1 ≤ t) (hlow : t + offset ≤ s.time) (htime : s.time ≤ t + offset + 1000)
    (hnew : member ∉ checkedMembers rule.rpmKey l)
    (hroom : ((s.freshSet rule.rpmKey (t - 60000)).card : Int) < limit)
    {r : Except RedisError (Bool × Int × Int × Int)} (hr : granted r = true) :
    InWindow rule limit offset
      (s.addMember rule.rpmKey (s.freshSet rule.rpmKey (t - 60000)) member t (60000 + 1000))
      ((t, ⟨.rpmCheck rule.rpmKey t 60000 limit member, r⟩) :: l) := by
  have hstanding : standing rule.rpmKey ((t, ⟨.rpmCheck rule.rpmKey t 60000 limit member, r⟩) :: l) =
      (member, t) :: standing rule.rpmKey l := if_pos ⟨rfl, hr⟩
  have hchecked : checkedMembers rule.rpmKey ((t, ⟨.rpmCheck rule.rpmKey t 60000 limit member,
      r⟩) :: l) = member :: checkedMembers rule.rpmKey l := if_pos rfl
  have hset : (s.addMember rule.rpmKey (s.freshSet rule.rpmKey (t - 60000)) member t
      (60000 + 1000)).sets rule.rpmKey =
        some ⟨(s.freshSet rule.rpmKey (t - 60000)).add member t, some (s.time + 61000)⟩ :=
    Table.set_self
  have hfresh : ∀ x ∈ standing rule.rpmKey l, x.1 ≠ member := by
    intro x hx hm
    exact hnew (hm ▸ h.checked x hx)
  have hstamp : ∀ x ∈ standing rule.rpmKey l, x.2 ≤ t := by
    intro x hx
    obtain ⟨e, he, hstamp⟩ := h.stamped x hx
    have := hl e he
    omega
  refine ⟨?_, ?_, ?_, ?_, ?_⟩
  · rw [hstanding]
    have hcount := h.count_le hl htime
    refine .enter h.windowed hstamp ?_
    dsimp only
    omega
  · rw [hstanding, List.map_cons, List.nodup_cons]
    refine ⟨fun hm => ?_, h.nodup⟩
    obtain ⟨x, hx, hxm⟩ := List.mem_map.1 hm
    exact hfresh x hx hxm
  · rw [hstanding, hchecked]
    intro x hx
    rcases List.mem_cons.1 hx with rfl | hx
    · exact List.mem_cons_self
    · exact List.mem_cons_of_mem _ (h.checked x hx)
  · rw [hstanding]
    intro x hx
    rcases List.mem_cons.1 hx with rfl | hx
    · exact ⟨_, List.mem_cons_self, rfl⟩
    · obtain ⟨e, he, hstamp⟩ := h.stamped x hx
      exact ⟨e, List.mem_cons_of_mem _ he, hstamp⟩
  · rw [hstanding]
    intro x hx
    rcases List.mem_cons.1 hx with rfl | hx
    · exact .inl ⟨_, _, hset, ZSet.score_add_self, by push_cast; omega⟩
    · by_cases hin : t - 60000 < x.2
      · obtain ⟨z, e, -, -, -, hscore⟩ := h.score hl htime hx hin
        have hle := hstamp x hx
        exact .inl ⟨_, _, hset, (ZSet.score_add_ne (hfresh x hx)).trans hscore, by push_cast; omega⟩
      · exact .inr (.inl ⟨_, List.mem_cons_self, by dsimp only; omega⟩)

theorem InWindow.check_denied {member : String} (h : InWindow rule limit offset s l)
    (hl : ∀ e ∈ l, e.1 ≤ t) (htime : s.time ≤ t + offset + 1000)
    {r : Except RedisError (Bool × Int × Int × Int)} (hr : granted r = false) :
    InWindow rule limit offset (s.dropStale rule.rpmKey (t - 60000))
      ((t, ⟨.rpmCheck rule.rpmKey t 60000 limit member, r⟩) :: l) := by
  have hstanding : standing rule.rpmKey ((t, ⟨.rpmCheck rule.rpmKey t 60000 limit member, r⟩) :: l) =
      standing rule.rpmKey l := if_neg fun hg => by simp [hr] at hg
  have hchecked : checkedMembers rule.rpmKey ((t, ⟨.rpmCheck rule.rpmKey t 60000 limit member,
      r⟩) :: l) = member :: checkedMembers rule.rpmKey l := if_pos rfl
  refine ⟨by rw [hstanding]; exact h.windowed, by rw [hstanding]; exact h.nodup, ?_, ?_, ?_⟩
  · rw [hstanding, hchecked]
    exact fun x hx => List.mem_cons_of_mem _ (h.checked x hx)
  · rw [hstanding]
    intro x hx
    obtain ⟨e, he, hstamp⟩ := h.stamped x hx
    exact ⟨e, List.mem_cons_of_mem _ he, hstamp⟩
  · rw [hstanding]
    intro x hx
    by_cases hin : t - 60000 < x.2
    · obtain ⟨z, e, hz, hlive, he, hscore⟩ := h.score hl htime hx hin
      exact .inl ⟨_, e, dropStale_sets hz hlive (ne_nil_of_score hscore), hscore, he⟩
    · exact .inr (.inl ⟨_, List.mem_cons_self, by dsimp only; omega⟩)

theorem InWindow.zrem {member : String} {r : Except RedisError Unit} (h : InWindow rule limit offset s l) :
    InWindow rule limit offset ((Cmd.zrem rule.rpmKey member).run s).2
      ((t, ⟨.zrem rule.rpmKey member, r⟩) :: l) := by
  have hstanding : standing rule.rpmKey ((t, ⟨.zrem rule.rpmKey member, r⟩) :: l) =
      (standing rule.rpmKey l).filter (·.1 ≠ member) := if_pos rfl
  have hsub : ((standing rule.rpmKey l).filter (·.1 ≠ member)).Sublist (standing rule.rpmKey l) :=
    List.filter_sublist
  refine ⟨?_, ?_, ?_, ?_, ?_⟩
  · rw [hstanding]
    exact .withdraw h.windowed hsub
  · rw [hstanding]
    exact h.nodup.sublist (hsub.map _)
  · rw [hstanding]
    exact fun x hx => h.checked x (hsub.subset hx)
  · rw [hstanding]
    intro x hx
    obtain ⟨e, he, hstamp⟩ := h.stamped x (hsub.subset hx)
    exact ⟨e, List.mem_cons_of_mem _ he, hstamp⟩
  · rw [hstanding]
    intro x hx
    rw [List.mem_filter, decide_eq_true_eq] at hx
    rcases h.held x hx.1 with ⟨z, e, hz, hscore, he⟩ | hpast
    · by_cases hlive : s.time < e
      · have hscore' : (z.rem member).score x.1 = some x.2 :=
          (ZSet.score_rem_ne hx.2).trans hscore
        refine .inl ⟨_, e, zrem_sets hz ?_ (ne_nil_of_score hscore'), hscore', he⟩
        intro d hd
        cases hd
        exact hlive
      · exact .inr (.inr (by rw [time_run]; omega))
    · exact .inr (hpast.mono (List.subset_cons_self _ _) (le_of_eq time_run.symm))

theorem checkedMembers_subset {e : Int × Event Cmd Cmd.Resp} :
    (checkedMembers rule.rpmKey l).Sublist (checkedMembers rule.rpmKey (e :: l)) := by
  obtain ⟨t, c, r⟩ := e
  cases c with
  | rpmCheck k now windowMs limit member =>
    show (checkedMembers rule.rpmKey l).Sublist (if k = rule.rpmKey then
      member :: checkedMembers rule.rpmKey l else checkedMembers rule.rpmKey l)
    split
    · exact List.sublist_cons_self _ _
    · exact List.Sublist.refl _
  | tpmCheck => exact List.Sublist.refl _
  | concurrentCheck => exact List.Sublist.refl _
  | tpmSettle => exact List.Sublist.refl _
  | zrem => exact List.Sublist.refl _
  | emergencyAdmit => exact List.Sublist.refl _

theorem standing_cons_ne {c : Cmd} {r : c.Resp} (h : c.setKey ≠ some rule.rpmKey) :
    standing rule.rpmKey ((t, ⟨c, r⟩) :: l) = standing rule.rpmKey l := by
  cases c with
  | rpmCheck k now windowMs limit member => exact if_neg fun hk => h (congrArg some hk.1)
  | zrem k member => exact if_neg fun hk => h (congrArg some hk)
  | tpmCheck => rfl
  | concurrentCheck => rfl
  | tpmSettle => rfl
  | emergencyAdmit => rfl

theorem inWindow (hrule : rule.rpmLimit = some limit)
    (hrun : Timeline (Synced rule offset) Passes s₀ s l)
    (hdistinct : (checkedMembers rule.rpmKey l).Nodup) : InWindow rule limit offset s l := by
  refine hrun.invariant (J := fun s l => (checkedMembers rule.rpmKey l).Nodup →
    InWindow rule limit offset s l) (fun _ => ?_) (fun {s s' l t c r} ih hl hE hdistinct => ?_)
    (fun {s s' l} ih he hdistinct => ?_) hdistinct
  · refine ⟨.nil, List.nodup_nil, ?_, ?_, ?_⟩ <;> simp [standing]
  · have h := ih (hdistinct.sublist checkedMembers_subset)
    obtain ⟨hlow, htime, hissued, hstep⟩ := hE
    by_cases hkey : c.setKey = some rule.rpmKey
    · cases c with
      | rpmCheck k now windowMs limit' member =>
        cases hkey
        obtain ⟨rfl, rfl, hlimit⟩ := hissued.rpmCheck.2.2 rfl
        cases hrule.symm.trans hlimit
        have hnew : member ∉ checkedMembers rule.rpmKey l := by
          have hcons : checkedMembers rule.rpmKey ((now, ⟨.rpmCheck rule.rpmKey now 60000 limit
              member, r⟩) :: l) = member :: checkedMembers rule.rpmKey l := if_pos rfl
          rw [hcons, List.nodup_cons] at hdistinct
          exact hdistinct.1
        rcases lt_or_ge ((s.freshSet rule.rpmKey (now - 60000)).card : Int) limit with hroom | hfull
        · rw [rpmCheck_granted hroom] at hstep
          obtain ⟨rfl, rfl⟩ := Prod.mk.inj hstep
          exact h.check_granted hl hlow htime hnew hroom rfl
        · rw [rpmCheck_denied hfull] at hstep
          obtain ⟨rfl, rfl⟩ := Prod.mk.inj hstep
          exact h.check_denied hl htime rfl
      | zrem k member =>
        cases hkey
        obtain rfl : s' = ((Cmd.zrem rule.rpmKey member).run s).2 := congrArg Prod.snd hstep
        exact h.zrem
      | concurrentCheck k now limit' member timeoutMs =>
        cases hkey
        exact absurd rfl (hissued.concurrentCheck.2.1 _ _)
      | tpmCheck => cases hkey
      | tpmSettle => cases hkey
      | emergencyAdmit => cases hkey
    · obtain rfl : s' = (c.run s).2 := congrArg Prod.snd hstep
      exact h.frame (sets_run_ne hkey) (le_of_eq time_run.symm) (standing_cons_ne hkey)
        (List.subset_cons_self _ _) checkedMembers_subset.subset
  · obtain ⟨d, rfl⟩ := he
    exact (ih hdistinct).frame rfl (Nat.le_add_right _ _) rfl (List.Subset.refl _)
      (List.Subset.refl _)

/-- The RPM guarantee of a rule (module doc). -/
theorem rpm_window (hrule : rule.rpmLimit = some limit) (hlimit : 1 ≤ limit)
    (hrun : Timeline (Synced rule offset) Passes s₀ s l)
    (hdistinct : (checkedMembers rule.rpmKey l).Nodup) (t : Int) :
    ((standing rule.rpmKey l).countP (fun x => t - 60000 < x.2 ∧ x.2 ≤ t) : Int) ≤ limit := by
  have hcount := (inWindow hrule hrun hdistinct).windowed.count_le t
  omega

end

/-! ## A run of two requests -/

def rpmRule : Rule where
  id := 5
  subjectType := "user"
  subjectId := some 7
  logicalModelId := none
  rpmLimit := some 1
  tpmLimit := none
  tpmBurstLimit := none
  maxConcurrent := none

/-- The first request is admitted and the second, half a minute later, denied. -/
def rpmLog : Log Int Cmd Cmd.Resp :=
  [(30000, ⟨.rpmCheck rpmRule.rpmKey 30000 60000 1 "m2", .ok (false, 1, 1, 0)⟩),
    (0, ⟨.rpmCheck rpmRule.rpmKey 0 60000 1 "m1", .ok (true, 1, 1, -1)⟩)]

theorem runs_rpm : ∃ s, Timeline (Synced rpmRule 0) Passes emptyState s rpmLog := by
  have hfirst : Timeline (Synced rpmRule 0) Passes emptyState _
      [(0, ⟨.rpmCheck rpmRule.rpmKey 0 60000 1 "m1", .ok (true, 1, 1, -1)⟩)] :=
    .cmd .start (fun e he => by cases he)
      ⟨by decide, by decide, ⟨rpmRule, fun _ => rfl, rfl, rfl, rfl, rfl⟩, rfl⟩
  refine ⟨_, .cmd (hfirst.env ⟨30000, rfl⟩) ?_ ⟨by decide, by decide,
    ⟨rpmRule, fun _ => rfl, rfl, rfl, rfl, rfl⟩, rfl⟩⟩
  decide

theorem rpm_window_sample :
    ((standing rpmRule.rpmKey rpmLog).countP (fun x => 59999 - 60000 < x.2 ∧ x.2 ≤ 59999) : Int) ≤
      1 := by
  obtain ⟨s, hrun⟩ := runs_rpm
  exact rpm_window rfl (by decide) hrun (by decide) 59999

end RateLimit
