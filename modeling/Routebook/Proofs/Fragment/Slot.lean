import Routebook.Proofs.Fragment.Field

/-!
# The place of a field

A segment names one entry of a mapping, the one under the string itself or else the
first one whose key has its text.  `Names` says so of an entry by what stands before and
after it, and `Put` says what putting a field does to the entries: one value changes
where it stands, or one entry is added at the end.

What is put a second time takes the place of what was put first.
-/

namespace Routebook.Fragment

/-- Whether a segment names the key that stands between other entries. -/
inductive Names (segment : String) (before : Mapping) (key : Value) (after : Mapping) : Prop
  /-- The key is the string itself. -/
  | string (hkey : key = .string segment) (hbefore : Mapping.has before segment = false)
  /-- No key is the string, and this one is the first that has its text. -/
  | text (hkey : key.name? = some segment) (hother : key ≠ .string segment)
      (hbefore : ∀ entry ∈ before, entry.1.name? ≠ some segment)
      (hafter : Mapping.has after segment = false)

/-- How the entries of a mapping change when a field is put. -/
inductive Put (segment : String) (value : Value) (entries result : Mapping) : Prop
  /-- The entry that the segment names has a new value. -/
  | overwritten {before after : Mapping} {key old : Value} (hnames : Names segment before key after)
      (hentries : entries = before ++ (key, old) :: after)
      (hresult : result = before ++ (key, value) :: after)
  /-- No key has the text of the segment, and an entry has been added. -/
  | added (habsent : ∀ entry ∈ entries, entry.1.name? ≠ some segment)
      (hresult : result = entries ++ [(.string segment, value)])

variable {segment : String} {before after entries result : Mapping} {key old value : Value}

theorem has_eq_false_of_name?_ne (h : ∀ entry ∈ entries, entry.1.name? ≠ some segment) :
    Mapping.has entries segment = false := by
  rw [Mapping.has, List.any_eq_false]
  intro entry hentry hname
  exact h entry hentry (by rw [Mapping.eq_string_of_isName hname]; rfl)

/-- A segment names a key exactly if the search for it stops there. -/
theorem names_iff (segment : String) (before after : Mapping) (key old : Value) :
    Names segment before key after ↔
      namesKey (before ++ (key, old) :: after) segment key ∧
        ∀ entry ∈ before, namesKey (before ++ (key, old) :: after) segment entry.1 = false := by
  have hhas : Mapping.has (before ++ (key, old) :: after) segment =
      (Mapping.has before segment || (key.isName segment || Mapping.has after segment)) := by
    rw [Mapping.has_append, Mapping.has, Mapping.has, Mapping.has, List.any_cons]
  constructor
  · rintro (⟨rfl, hbefore⟩ | ⟨hkey, hother, hbefore, hafter⟩)
    · have hpresent : Mapping.has (before ++ (.string segment, old) :: after) segment := by
        simp [hhas, Value.isName]
      refine ⟨namesKey_string _ segment, fun entry hentry => ?_⟩
      rw [namesKey_eq_isName hpresent]
      exact Bool.eq_false_iff.2 (List.any_eq_false.1 hbefore entry hentry)
    · have habsent : Mapping.has (before ++ (key, old) :: after) segment = false := by
        rw [hhas, has_eq_false_of_name?_ne hbefore, Mapping.isName_eq_false hother, hafter]
        rfl
      refine ⟨?_, fun entry hentry => namesKey_eq_false (hbefore entry hentry)⟩
      rw [namesKey, habsent, if_neg Bool.false_ne_true, hkey, beq_self_eq_true]
  · rintro ⟨hkey, hbefore⟩
    cases hpresent : Mapping.has (before ++ (key, old) :: after) segment with
    | true =>
      simp only [namesKey_eq_isName hpresent] at hkey hbefore
      refine .string (Mapping.eq_string_of_isName hkey) (List.any_eq_false.2 fun entry hentry => ?_)
      exact Bool.eq_false_iff.1 (hbefore entry hentry)
    | false =>
      obtain ⟨hnone, hnot, hafter⟩ : Mapping.has before segment = false ∧
          key.isName segment = false ∧ Mapping.has after segment = false := by
        simpa [hhas] using hpresent
      refine .text (name?_of_namesKey hkey) ?_ (fun entry hentry hname => ?_) hafter
      · rintro rfl
        simp [Value.isName] at hnot
      · have hnames := hbefore entry hentry
        rw [namesKey, hpresent, if_neg Bool.false_ne_true, hname, beq_self_eq_true] at hnames
        cases hnames

theorem Names.entryFor?_eq (h : Names segment before key after) (old : Value) :
    entryFor? (before ++ (key, old) :: after) segment = some (key, old) := by
  obtain ⟨hkey, hbefore⟩ := (names_iff segment before after key old).1 h
  have hnone : before.find? (fun entry =>
      namesKey (before ++ (key, old) :: after) segment entry.1) = none :=
    List.find?_eq_none.2 fun entry hentry => Bool.eq_false_iff.1 (hbefore entry hentry)
  rw [entryFor?, List.find?_append, hnone, Option.none_or]
  exact List.find?_cons_of_pos hkey

theorem Names.fieldAt?_eq (h : Names segment before key after) (old : Value) :
    fieldAt? (before ++ (key, old) :: after) segment = some old := by
  rw [Fragment.fieldAt?_eq, h.entryFor?_eq, Option.map_some]

/-- The field that a segment names stands between other entries. -/
theorem exists_names_of_entryFor? (h : entryFor? entries segment = some (key, old)) :
    ∃ before after, Names segment before key after ∧ entries = before ++ (key, old) :: after := by
  obtain ⟨hkey, before, after, hentries, hbefore⟩ := List.find?_eq_some_iff_append.1 h
  refine ⟨before, after, (names_iff segment before after key old).2 ⟨?_, ?_⟩, hentries⟩
  · exact hentries ▸ hkey
  · intro entry hentry
    exact hentries ▸ Bool.not_eq_true' .. ▸ hbefore entry hentry

theorem exists_names (h : fieldAt? entries segment = some old) :
    ∃ before key after, Names segment before key after ∧
      entries = before ++ (key, old) :: after := by
  rw [fieldAt?_eq, Option.map_eq_some_iff] at h
  obtain ⟨⟨key, _⟩, hentry, rfl⟩ := h
  obtain ⟨before, after, hnames, hentries⟩ := exists_names_of_entryFor? hentry
  exact ⟨before, key, after, hnames, hentries⟩

/-- A segment names nothing exactly if no key has its text. -/
theorem entryFor?_eq_none_iff :
    entryFor? entries segment = none ↔ ∀ entry ∈ entries, entry.1.name? ≠ some segment := by
  rw [entryFor?, List.find?_eq_none]
  constructor
  · intro hnone entry hentry hname
    cases hhas : Mapping.has entries segment with
    | true =>
      obtain ⟨other, hother, hkey⟩ := List.any_eq_true.1 hhas
      exact hnone other hother (by rwa [namesKey_eq_isName hhas])
    | false => exact hnone entry hentry (by simp [namesKey, hhas, hname])
  · exact fun h entry hentry => Bool.eq_false_iff.1 (namesKey_eq_false (h entry hentry))

/-! ## Putting a field -/

theorem Names.setField_eq (h : Names segment before key after) (old value : Value) :
    setField (before ++ (key, old) :: after) segment value = before ++ (key, value) :: after := by
  obtain ⟨hkey, hbefore⟩ := (names_iff segment before after key old).1 h
  exact Mapping.writeFirst_append hkey hbefore old value after

theorem Names.putField_eq (h : Names segment before key after) (old value : Value) :
    putField (before ++ (key, old) :: after) segment value = before ++ (key, value) :: after := by
  rw [putField, h.entryFor?_eq, Option.isSome_some, if_pos rfl, h.setField_eq]

theorem setField_eq_self (h : fieldAt? entries segment = some old) :
    setField entries segment old = entries := by
  obtain ⟨before, key, after, hnames, rfl⟩ := exists_names h
  exact hnames.setField_eq old old

/-- Putting a field overwrites the entry that its name leads to, or adds one. -/
theorem put_iff : Put segment value entries result ↔ result = putField entries segment value := by
  constructor
  · rintro (⟨hnames, rfl, rfl⟩ | ⟨habsent, rfl⟩)
    · rw [hnames.putField_eq]
    · rw [putField, entryFor?_eq_none_iff.2 habsent, Option.isSome_none, if_neg Bool.false_ne_true]
  · rintro rfl
    cases hentry : entryFor? entries segment with
    | none =>
      refine .added (entryFor?_eq_none_iff.1 hentry) ?_
      rw [putField, hentry, Option.isSome_none, if_neg Bool.false_ne_true]
    | some entry =>
      obtain ⟨before, after, hnames, rfl⟩ := exists_names_of_entryFor? hentry
      exact .overwritten hnames rfl (hnames.putField_eq _ value)

/-- Putting a field once more is putting it once. -/
theorem putField_putField_self (entries : Mapping) (segment : String) (value value' : Value) :
    putField (putField entries segment value) segment value' =
      putField entries segment value' := by
  rcases put_iff.2 (Eq.refl (putField entries segment value)) with
    ⟨hnames, rfl, hresult⟩ | ⟨habsent, hresult⟩
  · rw [hresult, hnames.putField_eq, hnames.putField_eq]
  · have hnames : Names segment entries (.string segment) [] :=
      .string rfl (has_eq_false_of_name?_ne habsent)
    rw [hresult, hnames.putField_eq]
    exact put_iff.1 (.added habsent rfl)

end Routebook.Fragment
