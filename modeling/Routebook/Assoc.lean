/-!
# Ordered associations

A list of pairs serves as a map that remembers the order in which its keys were
first put into it.  Putting a value under a key that is there replaces the value
where it stands.
-/

namespace Routebook.Assoc

variable {κ α : Type} [DecidableEq κ]

/-- Put a value under a key. -/
def put (key : κ) (value : α) : List (κ × α) → List (κ × α)
  | [] => [(key, value)]
  | (other, old) :: rest =>
    if other = key then (key, value) :: rest else (other, old) :: put key value rest

/-- The association of the given pairs, a later one replacing an earlier one
under the same key. -/
def ofList (pairs : List (κ × α)) : List (κ × α) :=
  pairs.foldl (fun entries pair => put pair.1 pair.2 entries) []

@[simp] theorem lookup_put_self (key : κ) (value : α) (entries : List (κ × α)) :
    (put key value entries).lookup key = some value := by
  induction entries with
  | nil => simp [put]
  | cons entry rest ih =>
    obtain ⟨other, old⟩ := entry
    by_cases h : other = key
    · simp [put, h]
    · have h' : (key == other) = false := by simpa using Ne.symm h
      simp [put, h, List.lookup_cons, h', ih]

theorem lookup_put_of_ne {key other : κ} (h : other ≠ key) (value : α)
    (entries : List (κ × α)) : (put key value entries).lookup other = entries.lookup other := by
  have h' : (other == key) = false := by simpa using h
  induction entries with
  | nil => simp [put, List.lookup_cons, h']
  | cons entry rest ih =>
    obtain ⟨first, old⟩ := entry
    by_cases hf : first = key
    · simp [put, hf, List.lookup_cons, h']
    · simp [put, hf, List.lookup_cons, ih]

/-! Leaving one key out. -/

theorem lookup_filter_of_ne {key other : κ} (h : other ≠ key) (entries : List (κ × α)) :
    (entries.filter fun entry => entry.1 ≠ key).lookup other = entries.lookup other := by
  induction entries with
  | nil => rfl
  | cons entry rest ih =>
    obtain ⟨first, value⟩ := entry
    by_cases hfirst : first = key
    · subst hfirst
      have hne : (other == first) = false := by simpa using h
      simpa [List.lookup_cons, hne] using ih
    · rw [List.filter_cons_of_pos (by simpa using hfirst), List.lookup_cons, List.lookup_cons, ih]

theorem filter_put_self (key : κ) (value : α) (entries : List (κ × α)) :
    ((put key value entries).filter fun entry => entry.1 ≠ key) =
      entries.filter fun entry => entry.1 ≠ key := by
  induction entries with
  | nil => simp [put]
  | cons entry rest ih =>
    obtain ⟨other, old⟩ := entry
    by_cases hother : other = key
    · simp [put, hother]
    · simpa [put, hother] using ih

theorem filter_put_of_ne {key other : κ} (h : other ≠ key) (value : α) (entries : List (κ × α)) :
    ((put other value entries).filter fun entry => entry.1 ≠ key) =
      put other value (entries.filter fun entry => entry.1 ≠ key) := by
  induction entries with
  | nil => simp [put, h]
  | cons entry rest ih =>
    obtain ⟨first, old⟩ := entry
    by_cases hother : first = other
    · subst hother
      simp [put, h]
    · by_cases hkey : first = key
      · subst hkey
        simpa [put, hother] using ih
      · simpa [put, hother, hkey] using ih

/-- A key that is there stays where it stands. -/
theorem map_fst_put_of_mem {key : κ} {entries : List (κ × α)} (h : key ∈ entries.map Prod.fst)
    (value : α) : (put key value entries).map Prod.fst = entries.map Prod.fst := by
  induction entries with
  | nil => simp at h
  | cons entry rest ih =>
    obtain ⟨other, old⟩ := entry
    by_cases hother : other = key
    · simp [put, hother]
    · have hrest : key ∈ rest.map Prod.fst := by
        rcases List.mem_cons.1 h with hkey | hrest
        · exact absurd hkey.symm hother
        · exact hrest
      simpa [put, hother] using ih hrest

/-- A key that is not there goes to the end. -/
theorem map_fst_put_of_not_mem {key : κ} {entries : List (κ × α)}
    (h : key ∉ entries.map Prod.fst) (value : α) :
    (put key value entries).map Prod.fst = entries.map Prod.fst ++ [key] := by
  induction entries with
  | nil => rfl
  | cons entry rest ih =>
    obtain ⟨other, old⟩ := entry
    rw [List.map_cons, List.mem_cons, not_or] at h
    have hother : other ≠ key := Ne.symm h.1
    simpa [put, hother] using ih h.2

theorem map_fst_ofList_subset (pairs : List (κ × α)) :
    (ofList pairs).map Prod.fst ⊆ pairs.map Prod.fst := by
  suffices h : ∀ entries : List (κ × α),
      (pairs.foldl (fun entries pair => put pair.1 pair.2 entries) entries).map Prod.fst ⊆
        entries.map Prod.fst ++ pairs.map Prod.fst from h []
  induction pairs with
  | nil => simp
  | cons pair rest ih =>
    intro entries key hkey
    have hrest := ih (put pair.1 pair.2 entries) hkey
    by_cases hmem : pair.1 ∈ entries.map Prod.fst
    · rw [map_fst_put_of_mem hmem] at hrest
      simpa [or_left_comm] using .inr (by simpa using hrest)
    · rw [map_fst_put_of_not_mem hmem] at hrest
      simpa using hrest

theorem mem_map_fst_iff {key : κ} {entries : List (κ × α)} :
    key ∈ entries.map Prod.fst ↔ (entries.lookup key).isSome := by
  rw [List.mem_map]
  constructor
  · rintro ⟨⟨other, value⟩, hmem, rfl⟩
    cases hlookup : entries.lookup other with
    | none => simpa using List.lookup_eq_none_iff.1 hlookup _ hmem
    | some found => rfl
  · intro h
    obtain ⟨value, hvalue⟩ := Option.isSome_iff_exists.1 h
    obtain ⟨before, after, hsplit, -⟩ := List.lookup_eq_some_iff.1 hvalue
    exact ⟨(key, value), by simp [hsplit], rfl⟩

theorem mem_of_lookup_eq_some {entries : List (κ × α)} {key : κ} {value : α}
    (h : entries.lookup key = some value) : (key, value) ∈ entries := by
  obtain ⟨before, after, hsplit, -⟩ := List.lookup_eq_some_iff.1 h
  simp [hsplit]

/-- If all values under a key agree, the first of them is the one that is found. -/
theorem lookup_eq_some_of_forall {entries : List (κ × α)} {key : κ} {value : α}
    (hexists : ∃ other, (key, other) ∈ entries)
    (hall : ∀ other, (key, other) ∈ entries → other = value) :
    entries.lookup key = some value := by
  cases h : entries.lookup key with
  | none =>
    obtain ⟨other, hother⟩ := hexists
    simpa using List.lookup_eq_none_iff.1 h _ hother
  | some found => rw [hall found (mem_of_lookup_eq_some h)]

/-! ## The association of a list of pairs -/

theorem put_eq_append {key : κ} {entries : List (κ × α)} (h : key ∉ entries.map Prod.fst)
    (value : α) : put key value entries = entries ++ [(key, value)] := by
  induction entries with
  | nil => rfl
  | cons entry rest ih =>
    obtain ⟨other, old⟩ := entry
    rw [List.map_cons, List.mem_cons, not_or] at h
    have hother : other ≠ key := Ne.symm h.1
    simpa [put, hother] using ih h.2

theorem nodup_map_fst_put {entries : List (κ × α)} (h : (entries.map Prod.fst).Nodup) (key : κ)
    (value : α) : ((put key value entries).map Prod.fst).Nodup := by
  by_cases hmem : key ∈ entries.map Prod.fst
  · rwa [map_fst_put_of_mem hmem]
  · rw [map_fst_put_of_not_mem hmem, List.nodup_append]
    refine ⟨h, by simp, ?_⟩
    rintro other hother key' hkey' rfl
    exact hmem (List.mem_singleton.1 hkey' ▸ hother)

/-- No key is there twice. -/
theorem nodup_map_fst_ofList (pairs : List (κ × α)) : ((ofList pairs).map Prod.fst).Nodup := by
  suffices h : ∀ entries : List (κ × α), (entries.map Prod.fst).Nodup →
      ((pairs.foldl (fun entries pair => put pair.1 pair.2 entries) entries).map Prod.fst).Nodup
    from h [] List.nodup_nil
  induction pairs with
  | nil => exact fun entries h => h
  | cons pair rest ih => exact fun entries h => ih _ (nodup_map_fst_put h pair.1 pair.2)

/-- The keys stand where they come first. -/
theorem map_fst_ofList (pairs : List (κ × α)) :
    (ofList pairs).map Prod.fst = (pairs.map Prod.fst).eraseDups := by
  suffices h : ∀ entries : List (κ × α),
      (pairs.foldl (fun entries pair => put pair.1 pair.2 entries) entries).map Prod.fst =
        entries.map Prod.fst ++
          ((pairs.map Prod.fst).filter fun key => key ∉ entries.map Prod.fst).eraseDups by
    have hall : (pairs.map Prod.fst).filter (fun _ => true) = pairs.map Prod.fst :=
      List.filter_eq_self.2 fun _ _ => rfl
    simpa [ofList, hall] using h []
  induction pairs with
  | nil => simp
  | cons pair rest ih =>
    intro entries
    rw [List.foldl_cons, ih, List.map_cons]
    by_cases hmem : pair.1 ∈ entries.map Prod.fst
    · rw [map_fst_put_of_mem hmem, List.filter_cons_of_neg (by simpa using hmem)]
    · rw [map_fst_put_of_not_mem hmem, List.filter_cons_of_pos (by simpa using hmem),
        List.eraseDups_cons, List.filter_filter, List.append_assoc, List.singleton_append]
      congr 3
      refine List.filter_congr fun key _ => ?_
      rw [Bool.eq_iff_iff]
      simp only [decide_eq_true_eq, Bool.and_eq_true, Bool.not_eq_true', beq_eq_false_iff_ne,
        List.mem_append, List.mem_singleton, not_or, and_comm, ne_eq]

/-- Under each key stands the last value. -/
theorem lookup_ofList (pairs : List (κ × α)) (key : κ) :
    (ofList pairs).lookup key = pairs.reverse.lookup key := by
  suffices h : ∀ entries : List (κ × α),
      (pairs.foldl (fun entries pair => put pair.1 pair.2 entries) entries).lookup key =
        (pairs.reverse.lookup key).or (entries.lookup key) by
    simpa [ofList] using h []
  induction pairs with
  | nil => simp
  | cons pair rest ih =>
    obtain ⟨first, value⟩ := pair
    intro entries
    rw [List.foldl_cons, ih, List.reverse_cons, List.lookup_append, Option.or_assoc]
    congr 1
    by_cases hkey : key = first
    · subst hkey
      simp
    · have hne : (key == first) = false := by simpa using hkey
      simp [lookup_put_of_ne hkey, List.lookup_cons, hne]

/-- Pairs with different keys are kept as they are. -/
theorem ofList_eq_self {pairs : List (κ × α)} (h : (pairs.map Prod.fst).Nodup) :
    ofList pairs = pairs := by
  suffices hall : ∀ entries : List (κ × α), ((entries ++ pairs).map Prod.fst).Nodup →
      pairs.foldl (fun entries pair => put pair.1 pair.2 entries) entries = entries ++ pairs
    from hall [] h
  induction pairs with
  | nil => exact fun entries _ => (List.append_nil entries).symm
  | cons pair rest ih =>
    intro entries hnodup
    have hmem : pair.1 ∉ entries.map Prod.fst := by
      rw [List.map_append, List.map_cons, List.nodup_append] at hnodup
      exact fun hmem => hnodup.2.2 _ hmem _ List.mem_cons_self rfl
    have hrest : ((entries ++ [pair] ++ rest).map Prod.fst).Nodup := by simpa using hnodup
    rw [List.foldl_cons, put_eq_append hmem]
    simpa using ih (List.nodup_cons.1 h).2 (entries ++ [pair]) hrest

end Routebook.Assoc
