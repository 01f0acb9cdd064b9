import Routebook.Proofs.Fragment.Variables
import Routebook.Proofs.Interchange

/-!
# The order in which variables are written

Two variables whose paths start at different segments are written into different
fields, so they can be written in either order.  What differs is the order in which
fields that are not there yet come to be added, and nothing else: `Shuffled` relates
mappings that have the same entries in possibly different order, and in which each
segment names the same one.

Every step of applying traits respects this relation, whatever trait it is.  So one
trait may list its variables in any order wherever it is used, alone or among other
traits that read or overwrite what it has written.
-/

namespace Routebook.Fragment

open Outcome

/-- Whether two mappings have the same entries, and each segment names the same entry
of both. -/
structure Shuffled (entries entries' : Mapping) : Prop where
  perm : entries.Perm entries'
  entryFor?_eq : ∀ segment, entryFor? entries segment = entryFor? entries' segment

/-- Whether the paths of different declarations start at different segments. -/
def StartApart (declared : Mapping) : Prop :=
  declared.Pairwise fun one other => ∀ path ∈ textsIn one.2, ∀ path' ∈ textsIn other.2,
    start path ≠ start path'

instance (declared : Mapping) : Decidable (StartApart declared) :=
  inferInstanceAs (Decidable (declared.Pairwise fun one other =>
    ∀ path ∈ textsIn one.2, ∀ path' ∈ textsIn other.2, start path ≠ start path'))

variable {entries entries' user user' fragment : Mapping} {segment other traitName : String}
  {value value' : Value} {contributed : List (String × Bool)}

/-! ## Finding a field -/

theorem shuffled_equivalence : Equivalence Shuffled where
  refl _ := ⟨.refl _, fun _ => rfl⟩
  symm h := ⟨h.perm.symm, fun segment => (h.entryFor?_eq segment).symm⟩
  trans h h' := ⟨h.perm.trans h'.perm,
    fun segment => (h.entryFor?_eq segment).trans (h'.entryFor?_eq segment)⟩

theorem Shuffled.hasKey_eq (h : Shuffled entries entries') (key : Value) :
    Mapping.hasKey entries key = Mapping.hasKey entries' key :=
  h.perm.any_eq

theorem Shuffled.has_eq (h : Shuffled entries entries') (name : String) :
    Mapping.has entries name = Mapping.has entries' name :=
  h.perm.any_eq

theorem Shuffled.fieldAt?_eq (h : Shuffled entries entries') (segment : String) :
    fieldAt? entries segment = fieldAt? entries' segment := by
  rw [Fragment.fieldAt?_eq, Fragment.fieldAt?_eq, h.entryFor?_eq]

theorem Shuffled.find?_isName_eq (h : Shuffled entries entries') (name : String) :
    entries.find? (fun entry => entry.1.isName name) =
      entries'.find? fun entry => entry.1.isName name := by
  cases hname : Mapping.has entries name with
  | true =>
    rw [← entryFor?_eq_find? hname, ← entryFor?_eq_find? (h.has_eq name ▸ hname),
      h.entryFor?_eq]
  | false => rw [find?_isName_eq_none hname, find?_isName_eq_none (h.has_eq name ▸ hname)]

theorem Shuffled.get?_eq (h : Shuffled entries entries') (name : String) :
    Mapping.get? entries name = Mapping.get? entries' name :=
  congrArg (Option.map Prod.snd) (h.find?_isName_eq name)

/-! ## Putting a field -/

/-- Putting a field takes the place of the entry that was there, if any. -/
theorem perm_putField (entries : Mapping) (segment : String) (value : Value) :
    ((entryFor? entries segment).toList ++ putField entries segment value).Perm
      (putEntry entries segment value :: entries) := by
  rcases putField_cases entries segment value with ⟨hentry, hput⟩ | ⟨key, old, hentry, hput⟩
  · rw [hput, hentry, putEntry, hentry]
    exact List.perm_append_singleton _ _
  · rw [hput, hentry, putEntry, hentry]
    exact Mapping.perm_writeFirst hentry value

theorem Shuffled.putEntry_eq (h : Shuffled entries entries') (segment : String) (value : Value) :
    putEntry entries segment value = putEntry entries' segment value := by
  rw [putEntry, putEntry, h.entryFor?_eq]

theorem Shuffled.putField (h : Shuffled entries entries') (segment : String) (value : Value) :
    Shuffled (putField entries segment value) (putField entries' segment value) := by
  constructor
  · have hperm := perm_putField entries segment value
    rw [h.entryFor?_eq, h.putEntry_eq] at hperm
    have hperm' := hperm.trans ((h.perm.cons _).trans (perm_putField entries' segment value).symm)
    exact (List.perm_append_left_iff _).1 hperm'
  · intro other
    by_cases hother : other = segment
    · rw [hother, entryFor?_putField_self, entryFor?_putField_self, h.putEntry_eq]
    · rw [entryFor?_putField_of_ne hother, entryFor?_putField_of_ne hother, h.entryFor?_eq]

theorem putEntry_putField_of_ne (hne : other ≠ segment) (entries : Mapping)
    (value value' : Value) :
    putEntry (putField entries segment value) other value' = putEntry entries other value' := by
  rw [putEntry, entryFor?_putField_of_ne hne, putEntry]

/-- Putting two different fields takes the places of the two entries that were
there. -/
theorem perm_putField_putField (hne : other ≠ segment) (entries : Mapping)
    (value value' : Value) :
    ((entryFor? entries segment).toList ++ ((entryFor? entries other).toList ++
        putField (putField entries segment value) other value')).Perm
      (putEntry entries other value' :: putEntry entries segment value :: entries) := by
  have hsecond := perm_putField (putField entries segment value) other value'
  rw [entryFor?_putField_of_ne hne, putEntry_putField_of_ne hne] at hsecond
  have hfirst := (perm_putField entries segment value).cons (putEntry entries other value')
  exact (hsecond.append_left _).trans (List.perm_middle.trans hfirst)

/-- Two different fields can be put in either order. -/
theorem shuffled_putField_putField (hne : other ≠ segment) (entries : Mapping)
    (value value' : Value) :
    Shuffled (putField (putField entries segment value) other value')
      (putField (putField entries other value') segment value) := by
  constructor
  · have hother := perm_putField_putField hne.symm entries value' value
    have hperm := (perm_putField_putField hne entries value value').trans
      ((List.Perm.swap _ _ _).trans (hother.symm.trans (List.perm_append_comm_assoc ..)))
    -- Both sides hold the two entries that were there before, which are taken off again.
    exact (List.perm_append_left_iff _).1 ((List.perm_append_left_iff _).1 hperm)
  · intro third
    by_cases hother : third = other
    · rw [hother, entryFor?_putField_self, entryFor?_putField_of_ne hne, entryFor?_putField_self,
        putEntry_putField_of_ne hne]
    · rw [entryFor?_putField_of_ne hother]
      by_cases hsegment : third = segment
      · rw [hsegment, entryFor?_putField_self, entryFor?_putField_self,
          putEntry_putField_of_ne hne.symm]
      · rw [entryFor?_putField_of_ne hsegment, entryFor?_putField_of_ne hsegment,
          entryFor?_putField_of_ne hother]

/-! ## Adding fields and variables -/

theorem Shuffled.append_singleton (h : Shuffled entries entries') (entry : Value × Value) :
    Shuffled (entries ++ [entry]) (entries' ++ [entry]) := by
  constructor
  · exact h.perm.append_right [entry]
  · intro segment
    -- A key that is the segment itself takes it away from the keys that only read like it.
    cases hname : entry.1.isName segment with
    | true =>
      have hadded : ∀ entries, Mapping.has (entries ++ [entry]) segment := fun entries => by
        simp [Mapping.has, hname]
      rw [entryFor?_eq_find? (hadded entries), entryFor?_eq_find? (hadded entries'),
        List.find?_append, List.find?_append, h.find?_isName_eq]
    | false =>
      have hnames : ∀ entries key,
          namesKey (entries ++ [entry]) segment key = namesKey entries segment key :=
        fun entries => namesKey_congr (by simp [Mapping.has, hname])
      rw [entryFor?, entryFor?]
      simp only [hnames, List.find?_append]
      have hfound := h.entryFor?_eq segment
      rw [entryFor?, entryFor?] at hfound
      rw [hfound, funext (namesKey_congr (h.has_eq segment))]

theorem Shuffled.addAbsent (h : Shuffled entries entries') (added : Mapping) :
    Shuffled (Mapping.addAbsent entries added) (Mapping.addAbsent entries' added) := by
  induction added generalizing entries entries' with
  | nil => exact h
  | cons head rest ih =>
    rw [Mapping.addAbsent, Mapping.addAbsent, List.foldl_cons, List.foldl_cons, h.hasKey_eq]
    split
    · exact ih h
    · exact ih (h.append_singleton head)

/-- Where a string is a key, putting a value under it is putting the field that it
names. -/
theorem set_eq_putField {name : String} (h : Mapping.has entries name) (value : Value) :
    Mapping.set name value entries = putField entries name value := by
  have hfound : (entryFor? entries name).isSome := by
    rw [entryFor?_eq_find? h]
    simpa [Mapping.has] using h
  have hsame : (Value.string name).same = namesKey entries name := by
    funext key
    rw [Mapping.string_same, namesKey_eq_isName h]
  rw [putField, if_pos hfound, setField, Mapping.set,
    Mapping.insert_eq_writeFirst (by rwa [Mapping.hasKey_string]), hsame]

/-! ## Steps respect the order -/

theorem Shuffled.addDefaults (h : Shuffled user user') (defaults : Option Value) :
    Corresponds Shuffled (addDefaults user defaults) (addDefaults user' defaults) := by
  rw [addDefaults.eq_def, addDefaults.eq_def, h.get?_eq]
  split
  · exact .ok h
  · exact .ok (h.append_singleton _)
  · rename_i hget
    have hhas : Mapping.has user' Keyword.bindings := Mapping.has_of_get?_eq_some hget
    rw [set_eq_putField hhas, set_eq_putField (by rwa [h.has_eq])]
    exact .ok (h.putField _ _)
  · exact .ok h
  · exact .error _ _

theorem Shuffled.contributions_eq (h : Shuffled user user') (fields : Mapping) :
    contributions user fields = contributions user' fields := by
  rw [contributions, contributions]
  simp only [h.hasKey_eq]

/-- A step that makes a new value of one field and puts it there respects the
order. -/
theorem respects_putField (make : Option Value → Except Error Value) (segment : String) :
    Respects Shuffled fun user => (make (fieldAt? user segment)).map (putField user segment) := by
  intro user user' h
  dsimp only
  rw [h.fieldAt?_eq]
  cases make (fieldAt? user' segment) with
  | error error => exact .error error error
  | ok written => exact .ok (h.putField segment written)

/-- Two such steps at different fields can change places. -/
theorem interchange_putField (make make' : Option Value → Except Error Value)
    (hne : other ≠ segment) :
    Interchange Shuffled (fun user => (make (fieldAt? user segment)).map (putField user segment))
      fun user => (make' (fieldAt? user other)).map (putField user other) := by
  intro user
  simp only [Outcome.map_bind, fieldAt?_putField_of_ne hne, fieldAt?_putField_of_ne hne.symm]
  cases make (fieldAt? user segment) with
  | error error =>
    cases make' (fieldAt? user other) with
    | error error' => exact .error error error'
    | ok written' => exact .error error error
  | ok written =>
    cases make' (fieldAt? user other) with
    | error error' => exact .error error' error'
    | ok written' => exact .ok (shuffled_putField_putField hne user written written')

/-- Writing along a path is such a step at its first segment, or changes nothing. -/
theorem fillPath_cases (contributed : List (String × Bool)) (value : Value) (path : String) :
    (fillPath contributed value · path) = (fun user => .ok user) ∨
      ∃ make : Option Value → Except Error Value, (fillPath contributed value · path) =
        fun user => (make (fieldAt? user (start path))).map (putField user (start path)) := by
  by_cases hskip : isOverridden contributed (start path)
  · left
    funext user
    rw [fillPath_eq, if_pos hskip]
  · right
    refine ⟨fun old => (newField path value (start path) (Text.segments '|' path).tail
      old).mapError .placeholder, ?_⟩
    funext user
    rw [fillPath_eq, if_neg hskip]

theorem respects_fillPath (contributed : List (String × Bool)) (value : Value) (path : String) :
    Respects Shuffled (fillPath contributed value · path) := by
  rcases fillPath_cases contributed value path with hfill | ⟨make, hfill⟩
  · rw [hfill]
    exact fun _ _ h => .ok h
  · rw [hfill]
    exact respects_putField make _

/-- Two paths that start at different segments can be written along in either
order. -/
theorem interchange_fillPath (contributed : List (String × Bool)) (value value' : Value)
    {path path' : String} (hne : start path ≠ start path') :
    Interchange Shuffled (fillPath contributed value · path)
      (fillPath contributed value' · path') := by
  rcases fillPath_cases contributed value path with hfill | ⟨make, hfill⟩
  · rw [hfill]
    exact interchange_ok shuffled_equivalence _
  rcases fillPath_cases contributed value' path' with hfill' | ⟨make', hfill'⟩
  · rw [hfill']
    exact (interchange_ok shuffled_equivalence _).symm shuffled_equivalence
  · rw [hfill, hfill']
    exact interchange_putField make make' hne.symm

/-! ## Declarations -/

/-- The value and the paths of a declaration. -/
def writesOf (traitName : String) (user : Mapping) (declaration : Value × Value) :
    Except Error (Value × List String) :=
  match declaration.1.string? with
  | none => .error (.placeholder (.variableName traitName))
  | some name =>
    match valueOf? user name with
    | none => .error (.unfulfilledVariable traitName name)
    | some value =>
      ((targetPaths traitName name declaration.2).mapError .placeholder).map (value, ·)

/-- Write a value along its paths, if there is one. -/
def writeAll (contributed : List (String × Bool)) (writes : Except Error (Value × List String))
    (user : Mapping) : Except Error Mapping := do
  let (value, paths) ← writes
  paths.foldlM (fillPath contributed value) user

theorem fillVariable_eq (declaration : Value × Value) :
    fillVariable traitName contributed user declaration =
      writeAll contributed (writesOf traitName user declaration) user := by
  rw [fillVariable, writeAll, writesOf]
  cases declaration.1.string? with
  | none => rfl
  | some name =>
    dsimp only
    cases valueOf? user name with
    | none => rfl
    | some value => cases targetPaths traitName name declaration.2 <;> rfl

theorem writesOf_congr (h : Mapping.get? user Keyword.bindings =
      Mapping.get? user' Keyword.bindings) (declaration : Value × Value) :
    writesOf traitName user declaration = writesOf traitName user' declaration := by
  rw [writesOf, writesOf]
  simp only [valueOf?_congr h]

theorem textsIn_of_writesOf {declaration : Value × Value} {value : Value} {paths : List String}
    (h : writesOf traitName user declaration = .ok (value, paths)) :
    textsIn declaration.2 = paths := by
  rw [writesOf.eq_def] at h
  split at h
  · cases h
  · split at h
    · cases h
    · rename_i name _ _ _ _
      cases htargets : targetPaths traitName name declaration.2 with
      | error fault =>
        rw [htargets] at h
        cases h
      | ok targets =>
        rw [htargets] at h
        cases h
        exact textsIn_of_targetPaths htargets

theorem respects_writeAll (contributed : List (String × Bool))
    (writes : Except Error (Value × List String)) :
    Respects Shuffled (writeAll contributed writes) := by
  intro user user' h
  cases writes with
  | error error => exact .error error error
  | ok writes => exact corresponds_foldlM (fun path _ => respects_fillPath _ _ path) h

theorem interchange_writeAll {writes writes' : Except Error (Value × List String)}
    (hapart : ∀ value paths value' paths', writes = .ok (value, paths) →
      writes' = .ok (value', paths') → ∀ path ∈ paths, ∀ path' ∈ paths', start path ≠ start path') :
    Interchange Shuffled (writeAll contributed writes) (writeAll contributed writes') := by
  cases writes with
  | error error => exact interchange_error error _
  | ok first =>
    cases writes' with
    | error error =>
      exact Interchange.symm shuffled_equivalence (interchange_error error _)
    | ok second =>
      refine interchange_foldlM shuffled_equivalence (fun path _ => respects_fillPath _ _ path)
        (fun path _ => respects_fillPath _ _ path) fun path hpath path' hpath' => ?_
      exact interchange_fillPath _ _ _ (hapart _ _ _ _ rfl rfl path hpath path' hpath')

theorem respects_fillVariable (traitName : String) (contributed : List (String × Bool))
    (declaration : Value × Value) :
    Respects Shuffled (fillVariable traitName contributed · declaration) := by
  intro user user' h
  dsimp only
  rw [fillVariable_eq, fillVariable_eq, writesOf_congr (h.get?_eq _)]
  exact respects_writeAll contributed _ user user' h

/-- A declaration that leaves the variables alone leaves alone what another one is to
write. -/
theorem fillVariable_bind_eq {declaration : Value × Value}
    (hleaves : ∀ path ∈ textsIn declaration.2, start path ≠ Keyword.bindings)
    (other : Value × Value) :
    (fillVariable traitName contributed user declaration >>=
        (fillVariable traitName contributed · other)) =
      writeAll contributed (writesOf traitName user declaration) user >>=
        writeAll contributed (writesOf traitName user other) := by
  rw [← fillVariable_eq]
  cases hfill : fillVariable traitName contributed user declaration with
  | error error => rfl
  | ok next =>
    have hget : Mapping.get? next Keyword.bindings = Mapping.get? user Keyword.bindings := by
      refine fillVariable_preserves
        (P := fun current => Mapping.get? current Keyword.bindings = _) ?_ hfill rfl
      intro path hpath value current next hstep hcurrent
      rw [get?_fillPath (hleaves path hpath) hstep, hcurrent]
    rw [ok_bind, ok_bind, fillVariable_eq, writesOf_congr hget]

/-- Two declarations whose paths start at different fields can be carried out in
either order. -/
theorem interchange_fillVariable {declaration other : Value × Value}
    (hleaves : ∀ path ∈ textsIn declaration.2, start path ≠ Keyword.bindings)
    (hleaves' : ∀ path ∈ textsIn other.2, start path ≠ Keyword.bindings)
    (hapart : ∀ path ∈ textsIn declaration.2, ∀ path' ∈ textsIn other.2,
      start path ≠ start path') :
    Interchange Shuffled (fillVariable traitName contributed · declaration)
      (fillVariable traitName contributed · other) := by
  intro user
  rw [fillVariable_bind_eq hleaves, fillVariable_bind_eq hleaves']
  refine interchange_writeAll (fun value paths value' paths' hwrites hwrites' => ?_) user
  rw [← textsIn_of_writesOf hwrites, ← textsIn_of_writesOf hwrites']
  exact hapart

/-! ## Traits -/

/-- A trait whose declarations are replaced. -/
def redeclare (declared fragment : Mapping) : Mapping :=
  Mapping.set Keyword.placeholders (.mapping declared) fragment

theorem fieldsOf_redeclare (declared fragment : Mapping) :
    fieldsOf (redeclare declared fragment) = fieldsOf fragment := by
  rw [fieldsOf, redeclare, Mapping.erase_set_self, fieldsOf]

theorem respects_applyTrait (traitName : String) (fragment : Mapping) :
    Respects Shuffled (applyTrait traitName fragment) := by
  intro user user' h
  rw [applyTrait, applyTrait]
  refine ((h.addDefaults _).mapError _).bind fun defaulted defaulted' hdefaulted => ?_
  refine corresponds_bind fun declared _ => ?_
  rw [hdefaulted.contributions_eq]
  exact corresponds_foldlM (fun declaration _ => respects_fillVariable _ _ declaration)
    (hdefaulted.addAbsent _)

/-- A trait may list its variables in any order. -/
theorem corresponds_applyTrait_redeclare {declared declared' : Mapping}
    (hdeclared : Mapping.get? fragment Keyword.placeholders = some (.mapping declared))
    (hperm : declared.Perm declared') (hapart : StartApart declared)
    (hleaves : LeavesVariables fragment) (user : Mapping) :
    Corresponds Shuffled (applyTrait traitName fragment user)
      (applyTrait traitName (redeclare declared' fragment) user) := by
  have hdeclared' : Mapping.get? (redeclare declared' fragment) Keyword.placeholders =
      some (.mapping declared') := Mapping.get?_set_self _ _ _
  have hdefaults : Mapping.get? (redeclare declared' fragment) Keyword.bindings =
      Mapping.get? fragment Keyword.bindings := Mapping.get?_set_of_ne (by decide) _ _
  have hof : declarationsOf fragment = declared := by rw [declarationsOf, hdeclared]
  have hpaths : ∀ declaration ∈ declared, ∀ path ∈ textsIn declaration.2,
      start path ≠ Keyword.bindings := fun declaration hmem path =>
    hleaves.start_ne (hof ▸ hmem)
  rw [applyTrait, applyTrait, hdeclared, hdeclared', hdefaults, fieldsOf_redeclare]
  refine corresponds_bind fun defaulted _ => ?_
  refine corresponds_foldlM_of_perm shuffled_equivalence
    (fun declaration _ => respects_fillVariable _ _ declaration) ?_ hperm _
  refine hapart.imp_of_mem fun hmem hmem' h => ?_
  exact interchange_fillVariable (hpaths _ hmem) (hpaths _ hmem') h

/-- Traits give the same fields, be it in another order, in whichever order one of
them lists variables that start at different fields. -/
theorem apply_reordered {registry : Registry} {declared declared' : Mapping}
    (hget : registry.get? traitName = some fragment)
    (hdeclared : Mapping.get? fragment Keyword.placeholders = some (.mapping declared))
    (hperm : declared.Perm declared') (hapart : StartApart declared)
    (hleaves : LeavesVariables fragment) (user : Mapping) :
    Corresponds List.Perm (apply registry user)
      (apply (registry.insert traitName (redeclare declared' fragment)) user) := by
  rw [apply, apply]
  split
  · exact .error _ _
  · refine corresponds_bind fun names _ => ?_
    refine Corresponds.bind (R := Shuffled) (corresponds_foldlM ?_ (shuffled_equivalence.refl _))
      fun applied applied' h => .ok (h.perm.filter _)
    intro name _ current current' hcurrent
    rw [applyNamed, applyNamed]
    -- Each other trait is the same in both runs, and finds the fields in another order at most.
    by_cases hname : name = traitName
    · rw [hname, hget, Registry.get?_insert_self]
      exact (respects_applyTrait traitName fragment current current' hcurrent).trans
        shuffled_equivalence
        (corresponds_applyTrait_redeclare hdeclared hperm hapart hleaves current')
    · rw [Registry.get?_insert_of_ne hname]
      cases registry.get? name with
      | none => exact .error _ _
      | some found => exact respects_applyTrait name found current current' hcurrent

/-- Two variables, each of which becomes a field. -/
def windowVariables : Mapping :=
  [(.string "size", .string "pageSize"), (.string "token", .string "header")]

/-- A trait with some declarations. -/
def windowTrait (declared : Mapping) : Mapping :=
  [(.string "path", .string "items"), (.string Keyword.placeholders, .mapping declared)]

/-- A mapping that uses it. -/
def windowUser : Mapping :=
  [(.string Keyword.traitList, .string "window"),
    (.string Keyword.bindings, .mapping [(.string "size", .string "10"),
      (.string "token", .string "abc")])]

/-- In either order both fields are added, each time at the end. -/
theorem apply_reordered_window :
    Corresponds List.Perm (apply ⟨[("window", windowTrait windowVariables)]⟩ windowUser)
        (apply ⟨[("window", windowTrait windowVariables.reverse)]⟩ windowUser) ∧
      apply ⟨[("window", windowTrait windowVariables.reverse)]⟩ windowUser =
        .ok [(.string "path", .string "items"), (.string "header", .string "abc"),
          (.string "pageSize", .string "10")] := by
  have hget : Registry.get? ⟨[("window", windowTrait windowVariables)]⟩ "window" =
      some (windowTrait windowVariables) := rfl
  have hdeclared : Mapping.get? (windowTrait windowVariables) Keyword.placeholders =
      some (.mapping windowVariables) := rfl
  have hapart : StartApart windowVariables := by decide
  have hleaves : LeavesVariables (windowTrait windowVariables) := by decide
  exact ⟨apply_reordered hget hdeclared (List.reverse_perm _).symm hapart hleaves windowUser, rfl⟩

end Routebook.Fragment
