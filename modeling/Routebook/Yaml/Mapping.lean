import Routebook.Yaml.Equality

/-!
# Operations on mappings

The keys of a mapping are pairwise distinct.  Inserting under a key that is
present replaces the value where it stands; otherwise the entry goes to the
end.  Erasing keeps the order of the other entries.
-/

namespace Routebook.Mapping

/-- The entry under an arbitrary key, with the key as the mapping spells it. -/
def entryAt? (entries : Mapping) (key : Value) : Option (Value × Value) :=
  entries.find? fun entry => key.same entry.1

/-- Whether an arbitrary key is present. -/
def hasKey (entries : Mapping) (key : Value) : Bool :=
  entries.any fun entry => key.same entry.1

/-- Put a value under a key. -/
def insert (key value : Value) : Mapping → Mapping
  | [] => [(key, value)]
  | (k, v) :: rest =>
    if key.same k then (k, value) :: rest else (k, v) :: insert key value rest

/-- Write a value under the first key that satisfies a condition. -/
def writeFirst (condition : Value → Bool) (value : Value) : Mapping → Mapping
  | [] => []
  | (key, old) :: rest =>
    if condition key then (key, value) :: rest
    else (key, old) :: writeFirst condition value rest

/-- The mapping with the given entries, a later one replacing an earlier one
under the same key. -/
def ofEntries (entries : List (Value × Value)) : Mapping :=
  entries.foldl (fun m entry => insert entry.1 entry.2 m) []

/-- Add entries at the end as far as their keys are absent. -/
def addAbsent (entries added : Mapping) : Mapping :=
  added.foldl (fun entries entry =>
    if hasKey entries entry.1 then entries else entries ++ [entry]) entries

theorem mem_addAbsent {entries added : Mapping} {entry : Value × Value}
    (h : entry ∈ addAbsent entries added) : entry ∈ entries ∨ entry ∈ added := by
  induction added generalizing entries with
  | nil => exact .inl h
  | cons head rest ih =>
    rw [addAbsent, List.foldl_cons] at h
    rcases ih h with h | h
    · split at h
      · exact .inl h
      · rcases List.mem_append.1 h with h | h
        · exact .inl h
        · exact .inr (by simp_all)
    · exact .inr (List.mem_cons_of_mem _ h)

/-! ## Keys that are names -/

/-- The value under the string key `name`. -/
def get? (entries : Mapping) (name : String) : Option Value :=
  (entries.find? fun entry => entry.1.isName name).map Prod.snd

/-- Whether the string key `name` is present. -/
def has (entries : Mapping) (name : String) : Bool :=
  entries.any fun entry => entry.1.isName name

/-- Remove the entry under the string key `name`. -/
def erase (entries : Mapping) (name : String) : Mapping :=
  entries.filter fun entry => !entry.1.isName name

/-- Put a value under the string key `name`. -/
def set (name : String) (value : Value) (entries : Mapping) : Mapping :=
  insert (.string name) value entries

/-- Put a value under the string key `name` unless the key is present. -/
def setDefault (name : String) (value : Value) (entries : Mapping) : Mapping :=
  if has entries name then entries else entries ++ [(.string name, value)]

/-! ## What the operations leave alone -/

theorem eq_string_of_isName {key : Value} {name : String} (h : key.isName name) :
    key = .string name := by
  cases key with
  | string other => simpa [Value.isName] using h
  | _ => simp [Value.isName] at h

theorem get?_eq_none_iff {entries : Mapping} {name : String} :
    get? entries name = none ↔ has entries name = false := by
  simp [get?, has]

theorem isSome_get? (entries : Mapping) (name : String) :
    (get? entries name).isSome = has entries name := by
  rw [Bool.eq_iff_iff]
  simp [get?, has]

theorem has_of_get?_eq_some {entries : Mapping} {name : String} {value : Value}
    (h : get? entries name = some value) : has entries name := by
  cases hhas : has entries name with
  | true => rfl
  | false =>
    rw [get?_eq_none_iff.2 hhas] at h
    cases h

theorem isName_eq_false {key : Value} {name : String} (h : key ≠ .string name) :
    key.isName name = false := by
  cases hname : key.isName name with
  | false => rfl
  | true => exact absurd (eq_string_of_isName hname) h

/-- A string is the same as a key exactly if the key is that name. -/
theorem string_same (name : String) (key : Value) :
    (Value.string name).same key = key.isName name := by
  cases key with
  | string other =>
    rw [Value.same, Value.isName]
    exact Bool.beq_comm
  | _ => rfl

/-- A key is the same as a string exactly if it is that name. -/
theorem same_string (key : Value) (name : String) :
    key.same (.string name) = key.isName name := by
  cases key <;> rfl

theorem entryAt?_append {entries : Mapping} {key : Value} {entry : Value × Value}
    (h : entryAt? entries key = some entry) (added : Mapping) :
    entryAt? (entries ++ added) key = some entry := by
  rw [entryAt?] at h ⊢
  rw [List.find?_append, h, Option.some_or]

theorem entryAt?_addAbsent {entries : Mapping} {key : Value} {entry : Value × Value}
    (h : entryAt? entries key = some entry) (added : Mapping) :
    entryAt? (addAbsent entries added) key = some entry := by
  induction added generalizing entries with
  | nil => exact h
  | cons head rest ih =>
    rw [addAbsent, List.foldl_cons]
    split
    · exact ih h
    · exact ih (entryAt?_append h [head])

theorem entryAt?_erase {entries : Mapping} {key : Value} {entry : Value × Value} {name : String}
    (h : entryAt? entries key = some entry) (hname : entry.1.isName name = false) :
    entryAt? (erase entries name) key = some entry := by
  induction entries with
  | nil => exact h
  | cons head rest ih =>
    rw [entryAt?, List.find?_cons] at h
    cases hsame : key.same head.1 with
    | true =>
      rw [hsame] at h
      cases h
      simp [entryAt?, erase, hname, hsame]
    | false =>
      rw [hsame] at h
      cases hhead : head.1.isName name with
      | true => simpa [erase, hhead] using ih h
      | false => simpa [erase, hhead, entryAt?, List.find?_cons, hsame] using ih h

theorem entryAt?_writeFirst {condition : Value → Bool} {entries : Mapping} {key : Value}
    {entry : Value × Value} (h : entryAt? entries key = some entry)
    (hentry : condition entry.1 = false) (value : Value) :
    entryAt? (writeFirst condition value entries) key = some entry := by
  induction entries with
  | nil => simp [entryAt?] at h
  | cons head rest ih =>
    obtain ⟨first, old⟩ := head
    rw [entryAt?, List.find?_cons] at h
    cases hsame : key.same first with
    | true =>
      rw [hsame] at h
      cases h
      simp only at hentry
      simp [entryAt?, writeFirst, hentry, hsame]
    | false =>
      rw [hsame] at h
      rw [writeFirst]
      split
      · rw [entryAt?, List.find?_cons, hsame]
        exact h
      · rw [entryAt?, List.find?_cons, hsame]
        exact ih h

/-- A search passes by what is written under the keys of another search. -/
theorem find?_writeFirst {condition search : Value → Bool}
    (h : ∀ key, condition key → search key = false) (value : Value) (entries : Mapping) :
    (writeFirst condition value entries).find? (fun entry => search entry.1) =
      entries.find? fun entry => search entry.1 := by
  induction entries with
  | nil => rfl
  | cons head rest ih =>
    obtain ⟨key, old⟩ := head
    rw [writeFirst]
    split
    · rename_i hkey
      simp [h key hkey]
    · rw [List.find?_cons, List.find?_cons]
      split
      · rfl
      · exact ih

/-- What is written under a key is found there. -/
theorem find?_writeFirst_self {condition : Value → Bool} {entries : Mapping}
    {entry : Value × Value} (h : entries.find? (fun entry => condition entry.1) = some entry)
    (value : Value) :
    (writeFirst condition value entries).find? (fun entry => condition entry.1) =
      some (entry.1, value) := by
  induction entries with
  | nil => cases h
  | cons head rest ih =>
    obtain ⟨key, old⟩ := head
    rw [List.find?_cons] at h
    cases hkey : condition key with
    | true =>
      simp only [hkey, Option.some.injEq] at h
      subst h
      simp [writeFirst, hkey]
    | false =>
      simp only [hkey] at h
      simpa [writeFirst, hkey] using ih h

/-- The value is written under the key at which the search stops, and nowhere else. -/
theorem writeFirst_append {condition : Value → Bool} {before : Mapping} {key : Value}
    (hkey : condition key) (hbefore : ∀ entry ∈ before, condition entry.1 = false)
    (old value : Value) (after : Mapping) :
    writeFirst condition value (before ++ (key, old) :: after) =
      before ++ (key, value) :: after := by
  induction before with
  | nil => rw [List.nil_append, writeFirst, if_pos hkey, List.nil_append]
  | cons head rest ih =>
    obtain ⟨hhead, hrest⟩ := List.forall_mem_cons.1 hbefore
    rw [List.cons_append, writeFirst, hhead, if_neg Bool.false_ne_true, ih hrest,
      List.cons_append]

/-- Writing a value takes the place of one entry. -/
theorem perm_writeFirst {condition : Value → Bool} {entries : Mapping}
    {entry : Value × Value} (h : entries.find? (fun entry => condition entry.1) = some entry)
    (value : Value) :
    (entry :: writeFirst condition value entries).Perm ((entry.1, value) :: entries) := by
  induction entries with
  | nil => cases h
  | cons head rest ih =>
    obtain ⟨key, old⟩ := head
    rw [List.find?_cons] at h
    cases hkey : condition key with
    | true =>
      simp only [hkey, Option.some.injEq] at h
      subst h
      simpa [writeFirst, hkey] using List.Perm.swap _ _ rest
    | false =>
      simp only [hkey] at h
      rw [writeFirst, hkey, if_neg Bool.false_ne_true]
      have hbehind := (ih h).cons (key, old)
      exact (List.Perm.swap ..).trans (hbehind.trans (.swap ..))

/-- A value is put under the first key that is the same, or at the end. -/
theorem insert_eq_or (key value : Value) (entries : Mapping) :
    insert key value entries = writeFirst key.same value entries ∨
      insert key value entries = entries ++ [(key, value)] := by
  induction entries with
  | nil => exact .inr rfl
  | cons head rest ih =>
    obtain ⟨first, old⟩ := head
    rw [insert, writeFirst]
    by_cases hsame : key.same first
    · left
      rw [if_pos hsame, if_pos hsame]
    · rw [if_neg hsame, if_neg hsame]
      rcases ih with hwritten | hadded
      · exact .inl (congrArg _ hwritten)
      · exact .inr (congrArg _ hadded)

/-- Where a key is present, a value is put under it. -/
theorem insert_eq_writeFirst {key : Value} {entries : Mapping} (h : hasKey entries key)
    (value : Value) : insert key value entries = writeFirst key.same value entries := by
  induction entries with
  | nil => cases h
  | cons head rest ih =>
    obtain ⟨first, old⟩ := head
    rw [insert, writeFirst]
    split
    · rfl
    · rename_i hsame
      rw [ih (by simpa [hasKey, hsame] using h)]

theorem mem_writeFirst {condition : Value → Bool} {value : Value} {entries : Mapping}
    {entry : Value × Value} (h : entry ∈ writeFirst condition value entries) :
    entry ∈ entries ∨ entry.2 = value := by
  induction entries with
  | nil => exact .inl h
  | cons head rest ih =>
    rw [writeFirst] at h
    split at h
    · rcases List.mem_cons.1 h with rfl | h
      · exact .inr rfl
      · exact .inl (List.mem_cons_of_mem _ h)
    · rcases List.mem_cons.1 h with rfl | h
      · exact .inl List.mem_cons_self
      · exact (ih h).imp_left (List.mem_cons_of_mem _)

theorem mem_insert {key value : Value} {entries : Mapping} {entry : Value × Value}
    (h : entry ∈ insert key value entries) : entry ∈ entries ∨ entry.2 = value := by
  rcases insert_eq_or key value entries with hinsert | hinsert
  · rw [hinsert] at h
    exact mem_writeFirst h
  · rw [hinsert] at h
    rcases List.mem_append.1 h with h | h
    · exact .inl h
    · obtain rfl := List.mem_singleton.1 h
      exact .inr rfl

theorem mem_setDefault {name : String} {value : Value} {entries : Mapping}
    {entry : Value × Value} (h : entry ∈ setDefault name value entries) :
    entry ∈ entries ∨ entry = (.string name, value) := by
  rw [setDefault] at h
  split at h
  · exact .inl h
  · simpa using h

theorem entryAt?_insert {entries : Mapping} {key other : Value} {entry : Value × Value}
    (h : entryAt? entries key = some entry) (hother : other.same entry.1 = false)
    (value : Value) : entryAt? (insert other value entries) key = some entry := by
  rcases insert_eq_or other value entries with hinsert | hinsert
  · rw [hinsert]
    exact entryAt?_writeFirst h hother value
  · rw [hinsert]
    exact entryAt?_append h _

theorem hasKey_string (entries : Mapping) (name : String) :
    hasKey entries (.string name) = has entries name := by
  rw [hasKey, has]
  simp only [string_same]

theorem hasKey_append (entries added : Mapping) (key : Value) :
    hasKey (entries ++ added) key = (hasKey entries key || hasKey added key) :=
  List.any_append

theorem hasKey_erase {key : Value} {name : String} (h : key.isName name = false)
    (entries : Mapping) : hasKey (erase entries name) key = hasKey entries key := by
  rw [hasKey, hasKey, erase, List.any_filter]
  refine congrArg entries.any (funext fun entry => ?_)
  cases hname : entry.1.isName name with
  | false => simp
  | true => rw [eq_string_of_isName hname, same_string, h, Bool.and_false]

theorem has_append (entries added : Mapping) (name : String) :
    has (entries ++ added) name = (has entries name || has added name) :=
  List.any_append

theorem hasKey_addAbsent_of_hasKey {entries : Mapping} {key : Value} (h : hasKey entries key)
    (added : Mapping) : hasKey (addAbsent entries added) key := by
  induction added generalizing entries with
  | nil => exact h
  | cons head rest ih =>
    rw [addAbsent, List.foldl_cons]
    split
    · exact ih h
    · exact ih (by rw [hasKey_append, h, Bool.true_or])

/-- What is added is there afterwards, be it as an addition or because it was there
before. -/
theorem hasKey_addAbsent_of_mem {added : Mapping} {entry : Value × Value} (h : entry ∈ added)
    (entries : Mapping) : hasKey (addAbsent entries added) entry.1 := by
  induction added generalizing entries with
  | nil => cases h
  | cons head rest ih =>
    rw [addAbsent, List.foldl_cons]
    rcases List.mem_cons.1 h with rfl | hrest
    · apply hasKey_addAbsent_of_hasKey
      split
      · assumption
      · simp [hasKey, Value.same_refl]
    · exact ih hrest _

theorem has_addAbsent_of_has {entries : Mapping} {name : String} (h : has entries name)
    (added : Mapping) : has (addAbsent entries added) name := by
  rw [← hasKey_string] at h ⊢
  exact hasKey_addAbsent_of_hasKey h added

theorem has_addAbsent {added : Mapping} {name : String} (h : has added name)
    (entries : Mapping) : has (addAbsent entries added) name := by
  obtain ⟨entry, hentry, hname⟩ := List.any_eq_true.1 h
  rw [← hasKey_string, ← eq_string_of_isName hname]
  exact hasKey_addAbsent_of_mem hentry entries

theorem hasKey_writeFirst (condition : Value → Bool) (value : Value) (entries : Mapping)
    (key : Value) : hasKey (writeFirst condition value entries) key = hasKey entries key := by
  induction entries with
  | nil => rfl
  | cons head rest ih =>
    rw [writeFirst]
    split
    · rfl
    · rw [hasKey, List.any_cons]
      exact congrArg (key.same head.1 || ·) ih

theorem has_writeFirst (condition : Value → Bool) (value : Value) (entries : Mapping)
    (name : String) : has (writeFirst condition value entries) name = has entries name := by
  rw [← hasKey_string, hasKey_writeFirst, hasKey_string]

theorem hasKey_insert {entries : Mapping} {other : Value} (h : hasKey entries other)
    (key value : Value) : hasKey (insert key value entries) other := by
  rcases insert_eq_or key value entries with hinsert | hinsert
  · rwa [hinsert, hasKey_writeFirst]
  · rw [hinsert, hasKey_append, h, Bool.true_or]

theorem has_insert {entries : Mapping} {name : String} (h : has entries name)
    (key value : Value) : has (insert key value entries) name := by
  rw [← hasKey_string] at h ⊢
  exact hasKey_insert h key value

/-- What is added is only what is among the additions. -/
theorem has_addAbsent_iff {entries added : Mapping} {name : String} :
    has (addAbsent entries added) name ↔ has entries name ∨ has added name := by
  constructor
  · intro h
    obtain ⟨entry, hentry, hname⟩ := List.any_eq_true.1 h
    rcases mem_addAbsent hentry with hmem | hmem
    · exact .inl (List.any_eq_true.2 ⟨entry, hmem, hname⟩)
    · exact .inr (List.any_eq_true.2 ⟨entry, hmem, hname⟩)
  · rintro (h | h)
    · exact has_addAbsent_of_has h added
    · exact has_addAbsent h entries

theorem has_set_of_ne {name other : String} (h : other ≠ name) (value : Value)
    (entries : Mapping) : has (set other value entries) name = has entries name := by
  have hother : (Value.string other).isName name = false :=
    isName_eq_false fun heq => h (Value.string.inj heq)
  rcases insert_eq_or (.string other) value entries with hinsert | hinsert
  · rw [set, hinsert, has_writeFirst]
  · rw [set, hinsert, has_append]
    simp [has, hother]

theorem has_erase_self (entries : Mapping) (name : String) :
    has (erase entries name) name = false := by
  simp [has, erase]

theorem has_erase_of_ne {name other : String} (h : other ≠ name) (entries : Mapping) :
    has (erase entries other) name = has entries name := by
  have hother : (Value.string name).isName other = false :=
    isName_eq_false fun heq => h (Value.string.inj heq).symm
  rw [← hasKey_string, hasKey_erase hother, hasKey_string]

/-! ## Looking up what has been put -/

theorem get?_set_self (name : String) (value : Value) (entries : Mapping) :
    get? (set name value entries) name = some value := by
  rw [set]
  induction entries with
  | nil => simp [insert, get?, Value.isName]
  | cons head rest ih =>
    obtain ⟨key, old⟩ := head
    rw [insert, string_same]
    cases hkey : key.isName name with
    | true => simp [get?, hkey]
    | false => simpa [get?, hkey] using ih

/-- Putting the value that is there changes nothing. -/
theorem set_eq_self {entries : Mapping} {name : String} {value : Value}
    (h : get? entries name = some value) : set name value entries = entries := by
  rw [set]
  induction entries with
  | nil => simp [get?] at h
  | cons head rest ih =>
    obtain ⟨key, old⟩ := head
    rw [insert, string_same]
    cases hkey : key.isName name with
    | true =>
      obtain rfl : old = value := by simpa [get?, hkey] using h
      rfl
    | false =>
      rw [if_neg Bool.false_ne_true, ih (by simpa [get?, hkey] using h)]

theorem get?_writeFirst {condition : Value → Bool} {name : String}
    (h : condition (.string name) = false) (value : Value) (entries : Mapping) :
    get? (writeFirst condition value entries) name = get? entries name := by
  refine congrArg (Option.map Prod.snd) (find?_writeFirst ?_ value entries)
  intro key hkey
  exact isName_eq_false fun heq => by simp [heq, h] at hkey

theorem get?_setDefault_self {entries : Mapping} {name : String}
    (h : has entries name = false) (value : Value) :
    get? (setDefault name value entries) name = some value := by
  have hnone : entries.find? (fun entry => entry.1.isName name) = none := by
    simpa [get?] using get?_eq_none_iff.2 h
  have hname : (Value.string name).isName name := by simp [Value.isName]
  simp [setDefault, h, get?, List.find?_append, hnone, hname]

theorem get?_setDefault_of_ne {name other : String} (h : other ≠ name) (added : Value)
    (entries : Mapping) : get? (setDefault other added entries) name = get? entries name := by
  have hother : (Value.string other).isName name = false :=
    isName_eq_false fun heq => h (Value.string.inj heq)
  rw [setDefault]
  split
  · rfl
  · simp [get?, List.find?_append, hother]

theorem get?_setDefault_of_some {entries : Mapping} {name : String} {value : Value}
    (h : get? entries name = some value) (other : String) (added : Value) :
    get? (setDefault other added entries) name = some value := by
  rw [setDefault]
  split
  · exact h
  · rw [get?, Option.map_eq_some_iff] at h ⊢
    obtain ⟨entry, hentry, hvalue⟩ := h
    exact ⟨entry, by rw [List.find?_append, hentry, Option.some_or], hvalue⟩

theorem get?_set_of_ne {name other : String} (h : other ≠ name) (value : Value)
    (entries : Mapping) : get? (set other value entries) name = get? entries name := by
  have hother : (Value.string other).isName name = false :=
    isName_eq_false fun heq => h (Value.string.inj heq)
  rw [set]
  induction entries with
  | nil => simp [insert, get?, hother]
  | cons head rest ih =>
    obtain ⟨key, old⟩ := head
    rw [insert, string_same]
    cases hkey : key.isName other with
    | true =>
      rw [eq_string_of_isName hkey]
      simp [get?, hother]
    | false =>
      cases hname : key.isName name with
      | true => simp [get?, hname]
      | false => simpa [get?, hname] using ih

theorem get?_erase_self (entries : Mapping) (name : String) :
    get? (erase entries name) name = none :=
  get?_eq_none_iff.2 (has_erase_self entries name)

theorem get?_erase_of_ne {name other : String} (h : other ≠ name) (entries : Mapping) :
    get? (erase entries other) name = get? entries name := by
  rw [get?, get?, erase, List.find?_filter]
  congr 2
  funext entry
  cases hname : entry.1.isName name with
  | false => simp
  | true =>
    rw [eq_string_of_isName hname, isName_eq_false fun heq => h (Value.string.inj heq).symm]
    rfl

theorem get?_append (entries added : Mapping) (name : String) :
    get? (entries ++ added) name = (get? entries name).or (get? added name) := by
  rw [get?, get?, get?, List.find?_append, Option.map_or]

theorem get?_append_cons (before : Mapping) (key value : Value) (after : Mapping) (name : String) :
    get? (before ++ (key, value) :: after) name =
      (get? before name).or (if key.isName name then some value else get? after name) := by
  rw [get?_append]
  cases hname : key.isName name <;> simp [get?, hname]

/-- A value under another key is not what is found. -/
theorem get?_append_cons_of_ne {key : Value} {name : String} (h : key.isName name = false)
    (before : Mapping) (value value' : Value) (after : Mapping) :
    get? (before ++ (key, value) :: after) name = get? (before ++ (key, value') :: after) name := by
  rw [get?_append_cons, get?_append_cons, h]
  rfl

/-! ## Adding what is absent -/

theorem addAbsent_append (entries added further : Mapping) :
    addAbsent entries (added ++ further) = addAbsent (addAbsent entries added) further :=
  List.foldl_append

/-- What is added are the entries whose keys are neither there nor among the
additions before. -/
theorem addAbsent_eq_append (entries added : Mapping) :
    addAbsent entries added =
      entries ++ (added.filter fun entry => !hasKey entries entry.1).eraseDupsBy
        fun entry earlier => entry.1.same earlier.1 := by
  induction added generalizing entries with
  | nil => simp [addAbsent]
  | cons head rest ih =>
    rw [addAbsent, List.foldl_cons, ← addAbsent]
    by_cases hhead : hasKey entries head.1
    · rw [if_pos hhead, ih, List.filter_cons_of_neg (by simpa using hhead)]
    · have hkept : (rest.filter fun entry => !hasKey (entries ++ [head]) entry.1) =
          (rest.filter fun entry => !hasKey entries entry.1).filter
            fun entry => entry.1.same head.1 = false := by
        rw [List.filter_filter]
        refine List.filter_congr fun entry _ => ?_
        rw [hasKey_append, Bool.not_or, Bool.and_comm]
        simp [hasKey]
      rw [if_neg hhead, ih, hkept, List.filter_cons_of_pos (by simpa using hhead),
        List.eraseDupsBy_cons, List.append_assoc, List.singleton_append]

theorem has_cons_eq_false {head : Value × Value} {rest : Mapping} {name : String} :
    has (head :: rest) name = false ↔ head.1.isName name = false ∧ has rest name = false := by
  rw [has, List.any_cons, Bool.or_eq_false_iff, has]

/-- Adding entries under other names commutes with erasing. -/
theorem erase_addAbsent {added : Mapping} {name : String} (h : has added name = false)
    (entries : Mapping) :
    erase (addAbsent entries added) name = addAbsent (erase entries name) added := by
  induction added generalizing entries with
  | nil => rfl
  | cons head rest ih =>
    obtain ⟨hhead, hrest⟩ := has_cons_eq_false.1 h
    rw [addAbsent, addAbsent, List.foldl_cons, List.foldl_cons, hasKey_erase hhead]
    split
    · exact ih hrest entries
    · have herase : erase (entries ++ [head]) name = erase entries name ++ [head] := by
        simp [erase, List.filter_append, hhead]
      rw [← herase]
      exact ih hrest (entries ++ [head])

/-- What is found among entries and additions is what is found among the entries, or
else among the additions. -/
theorem get?_addAbsent_eq_or (entries added : Mapping) (name : String) :
    get? (addAbsent entries added) name = (get? entries name).or (get? added name) := by
  induction added generalizing entries with
  | nil => simp [addAbsent, get?]
  | cons head rest ih =>
    have hsplit : get? (head :: rest) name = (get? [head] name).or (get? rest name) :=
      get?_append [head] rest name
    rw [addAbsent, List.foldl_cons, ← addAbsent, ih, hsplit, ← Option.or_assoc]
    split
    · rename_i hpresent
      -- An addition whose key is there can only be found where its key is found anyway.
      cases hname : head.1.isName name with
      | false => simp [get?, hname]
      | true =>
        rw [eq_string_of_isName hname, hasKey_string, ← isSome_get?] at hpresent
        obtain ⟨value, hvalue⟩ := Option.isSome_iff_exists.1 hpresent
        simp [hvalue]
    · rw [get?_append]

/-- Entries under other names do not change what is found. -/
theorem get?_addAbsent {added : Mapping} {name : String} (h : has added name = false)
    (entries : Mapping) : get? (addAbsent entries added) name = get? entries name := by
  rw [get?_addAbsent_eq_or, get?_eq_none_iff.2 h, Option.or_none]

/-- Nothing is added if all keys are there. -/
theorem addAbsent_eq_self {entries added : Mapping}
    (h : ∀ entry ∈ added, hasKey entries entry.1) : addAbsent entries added = entries := by
  induction added with
  | nil => rfl
  | cons head rest ih =>
    obtain ⟨hhead, hrest⟩ := List.forall_mem_cons.1 h
    rw [addAbsent, List.foldl_cons, if_pos hhead]
    exact ih hrest

/-! ## Erasing what has been put -/

theorem erase_set_self (name : String) (value : Value) (entries : Mapping) :
    erase (set name value entries) name = erase entries name := by
  rw [set]
  induction entries with
  | nil => simp [insert, erase, Value.isName]
  | cons head rest ih =>
    obtain ⟨key, old⟩ := head
    rw [insert, string_same]
    cases hkey : key.isName name with
    | true => simp [erase, hkey]
    | false => simpa [erase, hkey] using ih

end Routebook.Mapping
