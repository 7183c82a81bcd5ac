import Janus.Core.ClientIp

/-!
# A client cannot choose its address

The trusted proxies append their addresses to whatever text the client has sent (`appended`). The
address of the client is the first of them, for every text (`clientIp_appended`).
-/

set_option autoImplicit false

namespace ClientIp

open Python

variable {settings : Settings} {request : Request} {forged : Option String}
  {addresses : List String}

/-- The header that the trusted proxies send on: their addresses after the client's text, if it has
sent one. -/
def appended (forged : Option String) (addresses : List String) : String :=
  ",".intercalate (forged.toList ++ addresses)

/-- An address of a proxy: it is not blank and has no comma. -/
def Address (address : String) : Prop :=
  ',' ∉ address.toList ∧ ∃ c ∈ address.toList, isSpace c = false

instance (address : String) : Decidable (Address address) := inferInstanceAs (Decidable (_ ∧ _))

theorem strip_ofList (x : List Char) :
    strip (String.ofList x) = String.ofList (Text.strip isSpace x) := by
  rw [strip, String.toList_ofList]

/-- The entries of a header as lists of characters. -/
theorem parts_eq (forwarded : String) :
    parts forwarded = (Text.entries isSpace ',' forwarded.toList).map String.ofList := by
  unfold parts split Text.entries
  rw [List.map_map, List.filter_map, List.filter_map, List.map_map]
  have hstrip : strip ∘ String.ofList = String.ofList ∘ Text.strip isSpace :=
    funext strip_ofList
  have hempty : (fun x => decide (x ≠ "")) ∘ strip ∘ String.ofList =
      (fun x => decide (x ≠ [])) ∘ Text.strip isSpace := by
    rw [hstrip]
    funext x
    simp [String.ofList_eq_empty_iff]
  rw [hempty, hstrip]

/-- The parts of the proxies, read as the entries that they are. -/
theorem entries_addresses (h : ∀ a ∈ addresses, Address a) :
    (Text.entries isSpace ',' ([','].intercalate (addresses.map String.toList))).map
      String.ofList = addresses.map strip := by
  have hparts : ∀ part ∈ addresses.map String.toList,
      ',' ∉ part ∧ ∃ c ∈ part, isSpace c = false := by
    intro part hmem
    obtain ⟨a, ha, rfl⟩ := List.mem_map.1 hmem
    exact h a ha
  rw [Text.entries_intercalate hparts, List.map_map, List.map_map]
  rfl

variable (forged) in
/-- The entries of the client's text, then those of the proxies. -/
theorem parts_appended (h : ∀ a ∈ addresses, Address a) (hne : addresses ≠ []) :
    ∃ own, parts (appended forged addresses) = own ++ addresses.map strip := by
  have hjoin : (appended forged addresses).toList =
      [','].intercalate ((forged.toList ++ addresses).map String.toList) :=
    String.toList_intercalate
  rw [parts_eq, hjoin]
  cases forged with
  | none => exact ⟨[], entries_addresses h⟩
  | some text =>
    have hcut : [','].intercalate ((text :: addresses).map String.toList) =
        text.toList ++ ',' :: [','].intercalate (addresses.map String.toList) := by
      rw [List.map_cons, List.intercalate_cons_of_ne_nil (by simpa using hne), List.append_assoc,
        List.singleton_append]
    show ∃ own, ((Text.entries isSpace ','
      ([','].intercalate ((text :: addresses).map String.toList))).map String.ofList) = _
    rw [hcut, Text.entries_append_cons, List.map_append, entries_addresses h]
    exact ⟨_, rfl⟩

/-- Whatever text the client sends, its address is the first one that the trusted proxies have
appended. -/
theorem clientIp_eq (hcount : addresses.length = settings.trustedProxyCount)
    (hpos : 1 ≤ settings.trustedProxyCount) (h : ∀ a ∈ addresses, Address a)
    (hrequest : request.header "x-forwarded-for" = some (appended forged addresses)) :
    clientIp settings request = addresses.head?.map strip := by
  have hne : addresses ≠ [] := by
    rintro rfl
    simp only [List.length_nil] at hcount
    omega
  obtain ⟨own, hparts⟩ := parts_appended forged h hne
  have hparts' : parts (appended forged addresses) ≠ [] := by
    rw [hparts]
    simp [hne]
  have htext : appended forged addresses ≠ "" := by
    intro hempty
    rw [hempty] at hparts'
    exact hparts' (by decide)
  have hlength : (parts (appended forged addresses)).length - settings.trustedProxyCount =
      (own.length : Int) := by
    rw [hparts, List.length_append, List.length_map]
    push_cast
    omega
  have hindex : own.length = (own ++ addresses.map strip).length - (addresses.map strip).length := by
    simp
  unfold clientIp
  simp only [hrequest, if_neg (show ¬ settings.trustedProxyCount ≤ 0 by omega), if_neg htext,
    if_neg hparts', hlength]
  rw [if_pos (Int.natCast_nonneg _), Int.toNat_natCast, hparts, hindex, Text.fromRight,
    List.head?_map]

/-- The address of a client does not depend on the text it has sent. -/
theorem clientIp_appended (hcount : addresses.length = settings.trustedProxyCount)
    (hpos : 1 ≤ settings.trustedProxyCount) (h : ∀ a ∈ addresses, Address a)
    (hrequest : request.header "x-forwarded-for" = some (appended forged addresses)) :
    clientIp settings request = addresses.head?.map strip ∧
    ∀ request' forged', request'.header "x-forwarded-for" = some (appended forged' addresses) →
      clientIp settings request' = clientIp settings request := by
  refine ⟨clientIp_eq hcount hpos h hrequest, fun request' forged' hrequest' => ?_⟩
  rw [clientIp_eq hcount hpos h hrequest, clientIp_eq hcount hpos h hrequest']

/-- Two proxies, and a client that sends blanks, empty entries and an address of its own. -/
theorem clientIp_appended_two :
    clientIp ⟨2⟩ ⟨some "10.0.0.1", [("x-forwarded-for", " ,, 9.9.9.9,, 203.0.113.7, 172.16.0.1")]⟩ =
      some "203.0.113.7" :=
  (@clientIp_appended ⟨2⟩ _ (some " ,, 9.9.9.9,") [" 203.0.113.7", " 172.16.0.1"]
    rfl (by decide) (by simp [Address, isSpace]) rfl).1

end ClientIp
