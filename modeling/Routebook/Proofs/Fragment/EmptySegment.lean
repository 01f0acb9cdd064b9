import Routebook.Proofs.Fragment.Parts
import Routebook.Proofs.Fragment.Presence
import Routebook.Proofs.Fragment.Walk

/-!
# Paths with an empty segment

A path that is empty, or in which two separators stand side by side or one at an end,
has an empty segment.  Such a path is refused only as far as every path is: where it
does not lead to anything.  An empty segment within the path names no field unless
there is one with the empty name, but a text on the way takes the value in first, and
an empty segment at the end is no obstacle at all.  It puts a field with the empty name,
or makes the value surround each character of a text.

That a path is refused depends on the mapping as it is when the run comes to the path.
So the course of a run is described first: `RunReaches` says that it comes to a path,
with the value that is to be written and the mapping as it is then.
-/

namespace Routebook.Fragment

/-- Whether carrying out a declaration comes to a path, with the value that is to be
written and the mapping as it is then. -/
def DeclarationReaches (traitName : String) (contributed : List (String × Bool))
    (user : Mapping) (declaration : Value × Value) (path : String) (value : Value)
    (current : Mapping) : Prop :=
  ∃ name paths, declaration.1.string? = some name ∧ valueOf? user name = some value ∧
    targetPaths traitName name declaration.2 = .ok paths ∧
    Outcome.ComesTo (fillPath contributed value) paths user path current

/-- Whether applying a trait comes to a path, also with the fields that count as the
mapping's own ones. -/
def TraitReaches (traitName : String) (fragment user : Mapping) (path : String)
    (contributed : List (String × Bool)) (value : Value) (current : Mapping) : Prop :=
  ∃ defaulted declared declaration filled,
    addDefaults user (Mapping.get? fragment Keyword.bindings) = .ok defaulted ∧
    contributed = contributions defaulted (fieldsOf fragment) ∧
    declarations traitName (Mapping.get? fragment Keyword.placeholders) = .ok declared ∧
    Outcome.ComesTo (fillVariable traitName contributed) declared
      (Mapping.addAbsent defaulted (fieldsOf fragment)) declaration filled ∧
    DeclarationReaches traitName contributed filled declaration path value current

/-- Whether applying the traits that a mapping lists comes to a path of one of them. -/
def RunReaches (registry : Registry) (user : Mapping) (trait path : String)
    (contributed : List (String × Bool)) (value : Value) (current : Mapping) : Prop :=
  ∃ list names fragment reached, Mapping.get? user Keyword.traitList = some list ∧
    listedTraits list = .ok names ∧ registry.get? trait = some fragment ∧
    Outcome.ComesTo (applyNamed registry) names (Mapping.erase user Keyword.traitList) trait
      reached ∧
    TraitReaches trait fragment reached path contributed value current

/-- How a path can be carried out although a segment between others is empty. -/
inductive Tolerated (value : Value) (front back : List String) (current next : Mapping) : Prop
  /-- A text on the way has taken the value in. -/
  | text (way : List String) {behind : List String} {text rendered : String}
      (hsegments : front ++ "" :: back = way ++ behind) (hbehind : behind ≠ [])
      (hbefore : along? (.mapping current) way = some (.string text))
      (hrendered : value.text? = some rendered)
      (hafter : along? (.mapping next) way =
        some (.string (Text.replaceAll (behind.getLast hbehind) rendered text)))
  /-- There is a field with the empty name, and the path goes on inside it. -/
  | inside {others : List String} {field : String} {child inner : Mapping}
      (hback : back = others ++ [field])
      (hchild : along? (.mapping current) front = some (.mapping child))
      (hnamed : Mapping.has child "")
      (hbefore : along? (.mapping current) (front ++ "" :: others) = some (.mapping inner))
      (hafter : along? (.mapping next) (front ++ "" :: others) =
        some (.mapping (putField inner field value)))
  /-- The path ends, and a field with the empty name has been put. -/
  | last {child : Mapping} (hback : back = [])
      (hbefore : along? (.mapping current) front = some (.mapping child))
      (hafter : along? (.mapping next) front = some (.mapping (putField child "" value)))

/-- Whether a tag or a key is not the empty name. -/
def Named (part : Part) : Prop :=
  part ≠ .key (.string "")

/-- Whether neither a mapping nor the traits that it lists have a field with the empty
name, at any depth, or a path that ends with an empty segment. -/
structure NamesAll (registry : Registry) (user : Mapping) : Prop where
  own : Mapping.MadeOf Named user
  traits : ∀ trait ∈ listed user, ∀ fragment, registry.get? trait = some fragment →
    Mapping.MadeOf Named fragment ∧ TargetsAllowed Named fragment

variable {registry : Registry} {user result current next fragment : Mapping}
  {traitName trait path : String} {contributed : List (String × Bool)} {value : Value}
  {error : Error} {allowed : Part → Prop}

/-! ## The course of a run -/

theorem DeclarationReaches.fillVariable_eq_error {declaration : Value × Value}
    (h : DeclarationReaches traitName contributed user declaration path value current)
    (hfill : fillPath contributed value current path = .error error) :
    fillVariable traitName contributed user declaration = .error error := by
  obtain ⟨name, paths, hname, hvalue, hpaths, hcomes⟩ := h
  rw [fillVariable, hname]
  dsimp only
  rw [hvalue]
  dsimp only
  rw [hpaths]
  exact hcomes.foldlM_eq_error hfill

theorem TraitReaches.applyTrait_eq_error
    (h : TraitReaches traitName fragment user path contributed value current)
    (hfill : fillPath contributed value current path = .error error) :
    applyTrait traitName fragment user = .error error := by
  obtain ⟨defaulted, declared, declaration, filled, hdefaults, rfl, hdeclared, hcomes, hreaches⟩ :=
    h
  rw [applyTrait, hdefaults, hdeclared]
  exact hcomes.foldlM_eq_error (hreaches.fillVariable_eq_error hfill)

/-- A path that cannot be carried out ends the run. -/
theorem RunReaches.apply_eq_error
    (h : RunReaches registry user trait path contributed value current)
    (hfill : fillPath contributed value current path = .error error) :
    apply registry user = .error error := by
  obtain ⟨list, names, fragment, reached, hlist, hnames, hget, hcomes, hreaches⟩ := h
  have hstep : applyNamed registry reached trait = .error error := by
    rw [applyNamed, hget]
    exact hreaches.applyTrait_eq_error hfill
  rw [apply_eq_of_listedTraits hlist hnames, hcomes.foldlM_eq_error hstep]
  rfl

theorem exists_declarationReaches {declaration : Value × Value}
    (hrun : fillVariable traitName contributed user declaration = .ok result)
    (hpath : path ∈ textsIn declaration.2) :
    ∃ value current,
      DeclarationReaches traitName contributed user declaration path value current := by
  obtain ⟨name, value, paths, hname, hvalue, hpaths, hrun⟩ := fillVariable_eq_ok.1 hrun
  rw [textsIn_of_targetPaths hpaths] at hpath
  obtain ⟨current, -, hcomes, -⟩ := Outcome.exists_comesTo hrun hpath
  exact ⟨value, current, name, paths, hname, hvalue, hpaths, hcomes⟩

theorem exists_traitReaches (hrun : applyTrait traitName fragment user = .ok result)
    (hpath : path ∈ declaredPaths fragment) :
    ∃ contributed value current,
      TraitReaches traitName fragment user path contributed value current := by
  obtain ⟨defaulted, hdefaults, declared, hdeclared, hrun⟩ := applyTrait_eq_ok.1 hrun
  obtain ⟨declaration, hmem, hpath⟩ := exists_declaration_of_mem hdeclared hpath
  obtain ⟨filled, next, hcomes, hfill⟩ := Outcome.exists_comesTo hrun hmem
  obtain ⟨value, current, hreaches⟩ := exists_declarationReaches hfill hpath
  exact ⟨_, value, current, defaulted, declared, declaration, filled, hdefaults, rfl, hdeclared,
    hcomes, hreaches⟩

/-- A run that succeeds comes to each path of each trait that is listed. -/
theorem exists_runReaches (hrun : apply registry user = .ok result) (htrait : trait ∈ listed user)
    (hget : registry.get? trait = some fragment) (hpath : path ∈ declaredPaths fragment) :
    ∃ contributed value current,
      RunReaches registry user trait path contributed value current := by
  obtain ⟨list, names, applied, hlist, hnames, hfold, -⟩ := apply_eq_ok.1 hrun
  rw [listed_of_listedTraits hlist hnames] at htrait
  obtain ⟨reached, next, hcomes, hstep⟩ := Outcome.exists_comesTo hfold htrait
  obtain ⟨found, hfound, happly⟩ := applyNamed_eq_ok.1 hstep
  obtain rfl : found = fragment := Option.some.inj (hfound.symm.trans hget)
  obtain ⟨contributed, value, current, hreaches⟩ := exists_traitReaches happly hpath
  exact ⟨contributed, value, current, list, names, found, reached, hlist, hnames, hget, hcomes,
    hreaches⟩

/-! ## What a mapping is made of in the course of a run -/

theorem DeclarationReaches.madeOf {declaration : Value × Value}
    (h : DeclarationReaches traitName contributed user declaration path value current)
    (huser : Mapping.MadeOf allowed user)
    (htargets : ∀ path ∈ textsIn declaration.2, allowed (.key (.string (target path)))) :
    Mapping.MadeOf allowed current ∧ allowed (.key (.string (target path))) := by
  obtain ⟨name, paths, -, hvalue, hpaths, hcomes⟩ := h
  rw [textsIn_of_targetPaths hpaths] at htargets
  refine ⟨hcomes.preserves ?_ huser, htargets path hcomes.mem⟩
  intro other hother before after hfill hbefore
  exact madeOf_fillPath hbefore (madeOf_valueOf? huser hvalue) (htargets other hother) hfill

theorem TraitReaches.madeOf
    (h : TraitReaches traitName fragment user path contributed value current)
    (huser : Mapping.MadeOf allowed user) (hfragment : Mapping.MadeOf allowed fragment)
    (htargets : TargetsAllowed allowed fragment) :
    Mapping.MadeOf allowed current ∧ allowed (.key (.string (target path))) := by
  obtain ⟨defaulted, declared, declaration, filled, hdefaults, rfl, hdeclared, hcomes, hreaches⟩ :=
    h
  have hdefaulted : Mapping.MadeOf allowed defaulted :=
    madeOf_addDefaults huser (fun _ hvalue => hfragment.of_get? hvalue) hdefaults
  have hfields : Mapping.MadeOf allowed (fieldsOf fragment) := (hfragment.erase _).erase _
  have hdeclares : ∀ declaration ∈ declared, ∀ path ∈ textsIn declaration.2,
      allowed (.key (.string (target path))) := fun declaration hmem path hpath =>
    htargets path (mem_declaredPaths hdeclared hmem hpath)
  refine hreaches.madeOf (hcomes.preserves ?_ (hdefaulted.addAbsent hfields))
    (hdeclares declaration hcomes.mem)
  exact fun other hother before after hstep hbefore =>
    madeOf_fillVariable hbefore (hdeclares other hother) hstep

/-- Whenever a run comes to a path, the mapping is made of its own parts, of those of
the listed traits, and of the ends of their paths. -/
theorem RunReaches.madeOf (h : RunReaches registry user trait path contributed value current)
    (huser : Mapping.MadeOf allowed user)
    (htraits : ∀ trait ∈ listed user, ∀ fragment, registry.get? trait = some fragment →
      Mapping.MadeOf allowed fragment ∧ TargetsAllowed allowed fragment) :
    Mapping.MadeOf allowed current ∧ allowed (.key (.string (target path))) := by
  obtain ⟨list, names, fragment, reached, hlist, hnames, hget, hcomes, hreaches⟩ := h
  rw [listed_of_listedTraits hlist hnames] at htraits
  obtain ⟨hfragment, htargets⟩ := htraits trait hcomes.mem fragment hget
  refine hreaches.madeOf (hcomes.preserves ?_ (huser.erase _)) hfragment htargets
  intro other hother before after hstep hbefore
  obtain ⟨found, hfound, happly⟩ := applyNamed_eq_ok.1 hstep
  obtain ⟨hmade, hallowed⟩ := htraits other hother found hfound
  exact madeOf_applyTrait hbefore hmade hallowed happly

theorem madeOf_along? {segments : List String} {start found : Value} (h : start.MadeOf allowed)
    (hfound : along? start segments = some found) : found.MadeOf allowed := by
  induction segments generalizing start with
  | nil =>
    cases start <;> cases hfound <;> exact h
  | cons segment rest ih =>
    cases start with
    | mapping entries =>
      rw [along?_cons] at hfound
      obtain ⟨child, hchild, hfound⟩ := Option.bind_eq_some_iff.1 hfound
      exact ih (madeOf_fieldAt? (Value.madeOf_mapping.1 h) hchild) hfound
    | _ => cases hfound

/-! ## An empty segment -/

theorem onlyString_empty : OnlyString "" := by
  decide

/-- Both ways of writing along segments are open to segments with an empty one among
them. -/
theorem WrittenAlong.tolerated {front back : List String}
    (h : WrittenAlong value (front ++ "" :: back) current next) :
    Tolerated value front back current next := by
  cases h with
  | text way hsegments hbehind hbefore hrendered hafter =>
    exact .text way hsegments hbehind hbefore hrendered hafter
  | field way field hsegments hbefore hafter =>
    -- The field that is put has the empty name, or a name that stands behind it.
    rcases List.eq_nil_or_concat back with rfl | ⟨others, last, rfl⟩
    · obtain ⟨rfl, hfield⟩ := List.append_inj' hsegments rfl
      obtain rfl : "" = field := List.singleton_inj.1 hfield
      exact .last rfl hbefore hafter
    · have hconcat : (front ++ "" :: others) ++ [last] = way ++ [field] := by
        rw [← hsegments, List.append_assoc, List.cons_append, List.concat_eq_append]
      obtain ⟨rfl, hfield⟩ := List.append_inj' hconcat rfl
      obtain ⟨child, hchild, hinside⟩ := along?_append (List.cons_ne_nil _ _) hbefore
      obtain ⟨found, hfound, -⟩ := Option.bind_eq_some_iff.1 hinside
      obtain rfl : last = field := List.singleton_inj.1 hfield
      exact .inside List.concat_eq_append hchild (has_of_fieldAt? onlyString_empty hfound) hbefore
        hafter

/-- A path that is not passed over is carried out along its segments, or the run ends
with an error in a placeholder. -/
theorem RunReaches.writtenAlong
    (h : RunReaches registry user trait path contributed value current)
    (hnot : isOverridden contributed (start path) = false) :
    (∃ fault, apply registry user = .error (.placeholder fault)) ∨
      ∃ next, fillPath contributed value current path = .ok next ∧
        WrittenAlong value (Text.segments '|' path) current next := by
  cases hfill : fillPath contributed value current path with
  | error error =>
    obtain ⟨fault, rfl⟩ := exists_of_fillPath_eq_error hfill
    exact .inl ⟨fault, h.apply_eq_error hfill⟩
  | ok next =>
    refine .inr ⟨next, rfl, ?_⟩
    rw [fillPath] at hfill
    change (if isOverridden contributed (start path) then _ else _) = _ at hfill
    rw [hnot] at hfill
    exact writtenAlong_of_writeAlong (Outcome.mapError_eq_ok.1 hfill)

/-- A path with an empty segment that is not passed over is tolerated, or the run ends
with an error in a placeholder. -/
theorem RunReaches.tolerated {front back : List String}
    (h : RunReaches registry user trait path contributed value current)
    (hnot : isOverridden contributed (start path) = false)
    (hsegments : Text.segments '|' path = front ++ "" :: back) :
    (∃ fault, apply registry user = .error (.placeholder fault)) ∨
      ∃ next, fillPath contributed value current path = .ok next ∧
        Tolerated value front back current next := by
  refine (h.writtenAlong hnot).imp_right fun ⟨next, hfill, hwritten⟩ => ?_
  rw [hsegments] at hwritten
  exact ⟨next, hfill, hwritten.tolerated⟩

theorem has_empty_eq_false {entries : Mapping} (h : Mapping.MadeOf Named entries) :
    Mapping.has entries "" = false := by
  rw [Mapping.has, List.any_eq_false]
  intro entry hentry hname
  exact (h entry hentry).1 (by rw [Mapping.eq_string_of_isName hname])

/-- Where no field has the empty name, only a text on the way tolerates a path that
does not end with an empty segment. -/
theorem Tolerated.exists_text {front back : List String}
    (h : Tolerated value front back current next) (hcurrent : Mapping.MadeOf Named current)
    (hback : back ≠ []) :
    ∃ way behind text, front ++ "" :: back = way ++ behind ∧ behind ≠ [] ∧
      along? (.mapping current) way = some (.string text) := by
  cases h with
  | text way hsegments hbehind hbefore _ _ => exact ⟨way, _, _, hsegments, hbehind, hbefore⟩
  | inside _ hchild hnamed _ _ =>
    have hmade := madeOf_along? (Value.madeOf_mapping.2 hcurrent) hchild
    rw [has_empty_eq_false (Value.madeOf_mapping.1 hmade)] at hnamed
    cases hnamed
  | last hnil _ _ => exact absurd hnil hback

/-- Wherever a run comes to a path with an empty segment that is not passed over, it
ends with an error in a placeholder, or the path is tolerated; and a run that succeeds
comes to all paths.  If nothing has the empty name and no path ends with an empty
segment, no field with the empty name is made, and such a path is tolerated only for
the sake of a text. -/
theorem apply_empty_segment (registry : Registry) (user : Mapping) :
    (∀ trait path contributed value current front back,
      RunReaches registry user trait path contributed value current →
      isOverridden contributed (start path) = false →
      Text.segments '|' path = front ++ "" :: back →
      (∃ fault, apply registry user = .error (.placeholder fault)) ∨
        ∃ next, fillPath contributed value current path = .ok next ∧
          Tolerated value front back current next) ∧
    (∀ result, apply registry user = .ok result →
      ∀ trait ∈ listed user, ∀ fragment, registry.get? trait = some fragment →
        ∀ path ∈ declaredPaths fragment, ∃ contributed value current,
          RunReaches registry user trait path contributed value current) ∧
    (NamesAll registry user →
      (∀ result, apply registry user = .ok result → Mapping.MadeOf Named result) ∧
      ∀ trait path contributed value current,
        RunReaches registry user trait path contributed value current →
        isOverridden contributed (start path) = false → "" ∈ Text.segments '|' path →
        (∃ fault, apply registry user = .error (.placeholder fault)) ∨
          ∃ way behind text, Text.segments '|' path = way ++ behind ∧ behind ≠ [] ∧
            along? (.mapping current) way = some (.string text)) := by
  refine ⟨?_, ?_, fun hnames => ⟨?_, ?_⟩⟩
  · intro trait path contributed value current front back hreaches hnot hsegments
    exact hreaches.tolerated hnot hsegments
  · intro result hrun trait htrait fragment hget path hpath
    exact exists_runReaches hrun htrait hget hpath
  · exact fun result hrun => madeOf_apply hnames.own hnames.traits hrun
  · intro trait path contributed value current hreaches hnot hempty
    obtain ⟨front, back, hsegments⟩ := List.append_of_mem hempty
    obtain ⟨hcurrent, htarget⟩ := hreaches.madeOf hnames.own hnames.traits
    have hback : back ≠ [] := by
      rintro rfl
      exact htarget (by rw [target, hsegments, List.getLastD_concat])
    rw [hsegments]
    refine (hreaches.tolerated hnot hsegments).imp_right fun ⟨next, _, htolerated⟩ => ?_
    exact htolerated.exists_text hcurrent hback

/-- A trait with a title that writes a variable along a path. -/
def titleTrait (path : String) : Mapping :=
  [(.string "title", .string "All WHAT"),
    (.string Keyword.placeholders, .mapping [(.string "what", .string path)])]

/-- A mapping that uses it. -/
def titleUser : Mapping :=
  [(.string Keyword.traitList, .string "titled"),
    (.string Keyword.bindings, .mapping [(.string "what", .string "pets")])]

/-- The mapping as it is when the run comes to the path. -/
def titleFilled : Mapping :=
  [(.string Keyword.bindings, .mapping [(.string "what", .string "pets")]),
    (.string "title", .string "All WHAT")]

theorem runReaches_title (path : String) :
    RunReaches ⟨[("titled", titleTrait path)]⟩ titleUser "titled" path [("title", true)]
      (.string "pets") titleFilled := by
  refine ⟨.string "titled", ["titled"], titleTrait path, titleUser.tail, rfl, rfl, rfl,
    ⟨[], [], rfl, rfl⟩, titleUser.tail, _, (.string "what", .string path), titleFilled, rfl, rfl,
    rfl, ⟨[], [], rfl, rfl⟩, "what", [path], rfl, rfl, rfl, ⟨[], [], rfl, rfl⟩⟩

theorem namesAll_title : NamesAll ⟨[("titled", titleTrait "title||WHAT")]⟩ titleUser := by
  have hnamed : ∀ name, name ≠ "" → Named (.key (.string name)) := by
    intro name hname heq
    exact hname (Value.string.inj (Part.key.inj heq))
  constructor
  · simp [titleUser, Mapping.madeOf_cons, Value.madeOf_mapping, hnamed, Keyword.traitList,
      Keyword.bindings]
  · intro trait htrait fragment hget
    obtain rfl : trait = "titled" := List.mem_singleton.1 htrait
    cases hget
    constructor
    · simp [titleTrait, Mapping.madeOf_cons, Value.madeOf_mapping, hnamed, Keyword.placeholders]
    · intro path hpath
      obtain rfl : path = "title||WHAT" := List.mem_singleton.1 hpath
      exact hnamed _ (by decide)

/-- The path that is empty is tolerated at its end, and one with an empty segment in
the middle for the sake of the title. -/
theorem apply_empty_segment_title :
    (∃ next, fillPath [("title", true)] (.string "pets") titleFilled "" = .ok next ∧
        Tolerated (.string "pets") [] [] titleFilled next) ∧
      apply ⟨[("titled", titleTrait "title||WHAT")]⟩ titleUser =
        .ok [(.string "title", .string "All pets")] ∧
      ∃ way behind text, Text.segments '|' "title||WHAT" = way ++ behind ∧ behind ≠ [] ∧
        along? (.mapping titleFilled) way = some (.string text) := by
  refine ⟨?_, rfl, ?_⟩
  · refine ((apply_empty_segment _ _).1 "titled" "" _ _ _ [] [] (runReaches_title "") rfl
      rfl).resolve_left ?_
    rintro ⟨fault, hfault⟩
    cases hfault
  · refine (((apply_empty_segment _ _).2.2 namesAll_title).2 "titled" "title||WHAT" _ _ _
      (runReaches_title "title||WHAT") rfl (by decide)).resolve_left ?_
    rintro ⟨fault, hfault⟩
    cases hfault

/-- An empty path puts a field with the empty name, and an empty segment at the end
makes the value surround all characters of a text. -/
theorem apply_empty_path :
    apply ⟨[("titled", titleTrait "")]⟩ titleUser =
        .ok [(.string "title", .string "All WHAT"), (.string "", .string "pets")] ∧
      apply ⟨[("titled", [(.string "title", .string "Hi"),
          (.string Keyword.placeholders, .mapping [(.string "what", .string "title|")])])]⟩
        titleUser = .ok [(.string "title", .string "petsHpetsipets")] :=
  ⟨rfl, rfl⟩

end Routebook.Fragment
