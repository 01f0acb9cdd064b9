import Routebook.Path.Location

/-!
# Locations are canonical paths

Every location that a path or a reference leads to consists of proper names.
The path of such a location leads back to it, so that two locations with one
path are the same.
-/

namespace Routebook

namespace Text

theorem cut_eq_splitOn (separator : Char) (chars : List Char) :
    cut separator chars = chars.splitOn separator := by
  induction chars with
  | nil => rfl
  | cons c rest ih =>
    obtain ⟨first, others, hcut⟩ := List.exists_cons_of_ne_nil (cut_ne_nil separator rest)
    rw [cut, List.splitOn_cons_eq_if_modifyHead, ← ih, hcut]
    by_cases hc : c = separator
    · simp [hc]
    · simp [hc]

/-- Joined texts without the separator are cut where they were joined. -/
theorem segments_join {separator : Char} {texts : List String} (hne : texts ≠ [])
    (htexts : ∀ text ∈ texts, separator ∉ text.toList) :
    segments separator (join separator texts) = texts := by
  have hcut : cut separator (join separator texts).toList = texts.map String.toList := by
    rw [join, String.toList_intercalate, String.toList_singleton, cut_eq_splitOn]
    apply List.splitOn_intercalate
    · simpa using htexts
    · simpa using hne
  rw [segments, hcut, List.map_map]
  simp

end Text

namespace Path

/-- Whether a text can be the name of a file in a directory. -/
def ProperName (name : String) : Prop :=
  name ≠ "" ∧ name ≠ "." ∧ name ≠ ".." ∧ '/' ∉ name.toList

theorem not_mem_toList_of_mem_segments {path : Path} {segment : String}
    (h : segment ∈ path.segments) : '/' ∉ segment.toList := by
  obtain ⟨chars, hchars, rfl⟩ := List.mem_map.1 h
  rw [String.toList_ofList]
  exact Text.not_mem_of_mem_cut hchars

theorem body_subset_segments (path : Path) : path.body.2 ⊆ path.segments := by
  rw [body]
  split <;> simp_all

theorem body_fst_ne_name (path : Path) (name : String) :
    path.body.1 ≠ some (.name name) := by
  rw [body]
  split
  · simp
  · split <;> simp
  · simp

/-- Every name among the components of a path is proper. -/
theorem properName_of_mem_components {path : Path} {name : String}
    (h : Component.name name ∈ path.components) : ProperName name := by
  rcases List.mem_append.1 h with hstart | hbody
  · exact absurd (Option.mem_toList.1 hstart) (body_fst_ne_name path name)
  · obtain ⟨segment, hsegment, hname⟩ := List.mem_map.1 hbody
    obtain ⟨hmem, hidle⟩ := List.mem_filter.1 hsegment
    have hslash := not_mem_toList_of_mem_segments (body_subset_segments path hmem)
    rw [Component.ofSegment] at hname
    split at hname
    · cases hname
    · rename_i hup
      cases hname
      have hmeaning : name ≠ "" ∧ name ≠ "." := by simpa [isIdle] using hidle
      exact ⟨hmeaning.1, hmeaning.2, by simpa using hup, hslash⟩

theorem ofSegment_of_properName {name : String} (h : ProperName name) :
    Component.ofSegment name = .name name := by
  simp [Component.ofSegment, h.2.2.1]

/-- Names and steps up have a meaning. -/
theorem isIdle_eq_false {segment : String} (h : segment = ".." ∨ ProperName segment) :
    isIdle segment = false := by
  rcases h with rfl | hproper
  · rfl
  · simp [isIdle, hproper.1, hproper.2.1]

/-- A relative path whose segments all have a meaning starts with the first of
them. -/
theorem body_join {segments : List String} (hne : segments ≠ [])
    (hsegments : ∀ segment ∈ segments, segment = ".." ∨ ProperName segment) :
    (⟨Text.join '/' segments⟩ : Path).body = (none, segments) := by
  have hcut : (⟨Text.join '/' segments⟩ : Path).segments = segments := by
    apply Text.segments_join hne
    intro segment hsegment
    rcases hsegments segment hsegment with rfl | hproper
    · decide
    · exact hproper.2.2.2
  rw [body, hcut]
  split
  · simpa [isIdle] using isIdle_eq_false (hsegments "." List.mem_cons_self)
  · simpa [isIdle] using isIdle_eq_false (hsegments "" List.mem_cons_self)
  · rfl

/-- The components of a relative path whose segments all have a meaning. -/
theorem components_join {segments : List String} (hne : segments ≠ [])
    (hsegments : ∀ segment ∈ segments, segment = ".." ∨ ProperName segment) :
    (⟨Text.join '/' segments⟩ : Path).components = segments.map Component.ofSegment := by
  rw [components, body_join hne hsegments]
  simp only [Option.toList_none, List.nil_append]
  rw [List.filter_eq_self.2]
  intro segment hsegment
  rw [isIdle_eq_false (hsegments segment hsegment), Bool.not_false]

theorem segments_slash (rest : String) :
    (⟨"/" ++ rest⟩ : Path).segments = "" :: Text.segments '/' rest := by
  rw [segments, Text.segments, String.toList_append]
  rfl

theorem body_slash (rest : String) :
    (⟨"/" ++ rest⟩ : Path).body = (some .root, Text.segments '/' rest) := by
  have habsolute : (⟨"/" ++ rest⟩ : Path).isAbsolute = true := by
    rw [isAbsolute, String.toList_append]
    rfl
  rw [body, segments_slash]
  simp [habsolute]

theorem components_slash (rest : String) :
    (⟨"/" ++ rest⟩ : Path).components =
      .root :: ((Text.segments '/' rest).filter fun segment => !isIdle segment).map .ofSegment := by
  rw [components, body_slash]
  rfl

/-- The components of an absolute path whose segments are proper names. -/
theorem components_slash_join {names : List String} (hnames : ∀ name ∈ names, ProperName name) :
    (⟨"/" ++ Text.join '/' names⟩ : Path).components = .root :: names.map Component.name := by
  rw [components_slash]
  congr 1
  by_cases hne : names = []
  · subst hne
    rfl
  · rw [Text.segments_join hne fun name hname => (hnames name hname).2.2.2]
    rw [List.filter_eq_self.2]
    · exact List.map_congr_left fun name hname => ofSegment_of_properName (hnames name hname)
    · intro name hname
      simp [isIdle, (hnames name hname).1, (hnames name hname).2.1]

end Path

namespace Location

/-- The names that a location consists of. -/
def names : Location → List String
  | .absolute names => names
  | .relative _ names => names

/-- Whether all names of a location are proper. -/
def Proper (location : Location) : Prop :=
  ∀ name ∈ location.names, Path.ProperName name

/-- A step only ever adds the name that it goes to. -/
theorem mem_names_step {location : Location} {component : Path.Component} {name : String}
    (h : name ∈ (location.step component).names) :
    name ∈ location.names ∨ component = .name name := by
  rcases component with _ | _ | _ | other
  · simp [step, names] at h
  · rw [step] at h
    exact .inl h
  · left
    rcases location with before | ⟨ups, _ | ⟨first, rest⟩⟩
    · exact List.dropLast_subset _ h
    · simp [step, names] at h
    · exact List.dropLast_subset _ h
  · rcases location with before | ⟨ups, before⟩
    all_goals
      rcases List.mem_append.1 h with h | h
      · exact .inl h
      · exact .inr (by rw [List.mem_singleton.1 h])

theorem proper_step {location : Location} {component : Path.Component}
    (h : location.Proper) (hcomponent : ∀ name, component = .name name → Path.ProperName name) :
    (location.step component).Proper := by
  intro name hname
  rcases mem_names_step hname with hbefore | hadded
  · exact h name hbefore
  · exact hcomponent name hadded

theorem proper_foldl_step {components : List Path.Component}
    (hcomponents : ∀ name, .name name ∈ components → Path.ProperName name)
    {location : Location} (h : location.Proper) : (components.foldl step location).Proper := by
  induction components generalizing location with
  | nil => exact h
  | cons component rest ih =>
    apply ih
    · exact fun name hname => hcomponents name (List.mem_cons_of_mem _ hname)
    · apply proper_step h
      rintro name rfl
      exact hcomponents name List.mem_cons_self

theorem proper_follow {location : Location} (h : location.Proper) (path : Path) :
    (location.follow path).Proper :=
  proper_foldl_step (fun _ => Path.properName_of_mem_components) h

theorem proper_ofPath (path : Path) : (ofPath path).Proper :=
  proper_follow (by simp [Proper, names]) path

theorem proper_ofReference (directory : Option Path) (path : Path) :
    (ofReference directory path).Proper := by
  cases directory with
  | none => exact proper_ofPath path
  | some directory => exact proper_follow (proper_ofPath directory) path

theorem foldl_step_names (location : Location) (names : List String) :
    (names.map Path.Component.name).foldl step location =
      match location with
      | .absolute before => .absolute (before ++ names)
      | .relative ups before => .relative ups (before ++ names) := by
  induction names generalizing location with
  | nil => cases location <;> simp
  | cons name rest ih =>
    rw [List.map_cons, List.foldl_cons, ih]
    cases location <;> simp [step]

theorem foldl_step_ups (ups count : Nat) :
    (List.replicate count Path.Component.up).foldl step (.relative ups []) =
      .relative (ups + count) [] := by
  induction count generalizing ups with
  | zero => rfl
  | succ count ih =>
    rw [List.replicate_succ, List.foldl_cons, step, ih]
    congr 1
    omega

/-- What a location consists of: the root or the steps up, and the names. -/
def components : Location → List Path.Component
  | .absolute names => .root :: names.map .name
  | .relative ups names => List.replicate ups .up ++ names.map .name

theorem components_toPath {location : Location} (h : location.Proper) :
    location.toPath.components = location.components := by
  cases location with
  | absolute names => exact Path.components_slash_join h
  | relative ups names =>
    rw [toPath, text, components]
    by_cases hne : List.replicate ups ".." ++ names = []
    · obtain ⟨hups, rfl⟩ := List.append_eq_nil_iff.1 hne
      obtain rfl : ups = 0 := by simpa using hups
      rfl
    · rw [Path.components_join hne]
      · have hups : (List.replicate ups "..").map Path.Component.ofSegment =
            List.replicate ups .up := by simp [Path.Component.ofSegment]
        have hnames : names.map Path.Component.ofSegment = names.map .name :=
          List.map_congr_left fun name hname => Path.ofSegment_of_properName (h name hname)
        rw [List.map_append, hups, hnames]
      · intro segment hsegment
        rcases List.mem_append.1 hsegment with hsegment | hsegment
        · exact .inl (List.eq_of_mem_replicate hsegment)
        · exact .inr (h segment hsegment)

/-- The path of a location leads to it. -/
theorem ofPath_toPath {location : Location} (h : location.Proper) :
    ofPath location.toPath = location := by
  rw [ofPath, follow, components_toPath h]
  cases location with
  | absolute names =>
    rw [components, List.foldl_cons, foldl_step_names]
    rfl
  | relative ups names =>
    rw [components, List.foldl_append, foldl_step_ups, foldl_step_names]
    simp

end Location

end Routebook
