import Routebook.Assoc
import Routebook.Path.Location
import Routebook.Yaml.Value

/-!
# What has been included

A file is included once.  Its location is remembered from the moment when its
inclusion starts, so that a reference to it from inside itself finds it under
way.  Only a file that says so can be included again, and then always with the
same value.

The values of the files that can be included again are kept apart from the list
of all files.  Nothing in the shape of the data ties the two together; that each
of these files is listed, and is not counted as included for good, holds because
of the order in which expansion writes them.
-/

namespace Routebook

/-- How far the inclusion of a file has come. -/
inductive Progress
  | underway
  | done
  | reusable (value : Value)
deriving Repr

namespace Progress

/-- How far the inclusion of a file has come that cannot be included again. -/
def ofDone (done : Bool) : Progress :=
  if done then .done else .underway

/-- Whether the file has been included for good. -/
def isDone : Progress → Bool
  | .done => true
  | _ => false

/-- The value of a file that can be included again. -/
def value? : Progress → Option Value
  | .reusable value => some value
  | _ => none

end Progress

/-- The included files by location. -/
structure Inclusions where
  /-- Whether each file has been included for good, in the order in which the
  files were first met. -/
  finished : List (Location × Bool) := []
  /-- The values of the files that can be included again. -/
  retained : List (Location × Value) := []
deriving Inhabited

namespace Inclusions

/-- Whether the inclusion of a file has started. -/
def isKnown (inclusions : Inclusions) (location : Location) : Bool :=
  (inclusions.finished.lookup location).isSome

/-- Whether a file has been included for good. -/
def isDone (inclusions : Inclusions) (location : Location) : Bool :=
  (inclusions.finished.lookup location).getD false

/-- The value of a file that can be included again. -/
def value? (inclusions : Inclusions) (location : Location) : Option Value :=
  inclusions.retained.lookup location

/-- How far the inclusion of a file has come, if it has started.  A value to be
included again counts before anything else. -/
def progress? (inclusions : Inclusions) (location : Location) : Option Progress :=
  match inclusions.value? location with
  | some value => some (.reusable value)
  | none => (inclusions.finished.lookup location).map .ofDone

/-- Remember that the inclusion of a file starts. -/
def start (inclusions : Inclusions) (location : Location) : Inclusions :=
  { inclusions with finished := Assoc.put location false inclusions.finished }

/-- Remember that a file has been included for good. -/
def finish (inclusions : Inclusions) (location : Location) : Inclusions :=
  { inclusions with finished := Assoc.put location true inclusions.finished }

/-- Keep the value of a file that can be included again. -/
def retain (inclusions : Inclusions) (location : Location) (value : Value) : Inclusions :=
  { inclusions with retained := Assoc.put location value inclusions.retained }

/-- The locations in the order in which they were first met. -/
def locations (inclusions : Inclusions) : List Location :=
  inclusions.finished.map Prod.fst

/-- The included files in the order in which they were first met. -/
def entries (inclusions : Inclusions) : List (Location × Progress) :=
  inclusions.finished.map fun (location, done) =>
    (location, ((inclusions.value? location).map .reusable).getD (.ofDone done))

/-- How far the inclusion of the file at a path as it is written has come.
Nothing is simplified in the path. -/
def atPath? (inclusions : Inclusions) (path : Path) : Option Progress :=
  (inclusions.entries.find? fun entry => entry.1.toPath.same path).map Prod.snd

/-- What is remembered about all files but one. -/
def without (inclusions : Inclusions) (location : Location) : Inclusions where
  finished := inclusions.finished.filter fun entry => entry.1 ≠ location
  retained := inclusions.retained.filter fun entry => entry.1 ≠ location

/-! ## What the changes change -/

/-- Whether the same is remembered about a file on both sides. -/
def AgreeAt (location : Location) (a b : Inclusions) : Prop :=
  a.finished.lookup location = b.finished.lookup location ∧ a.value? location = b.value? location

variable {inclusions a b c : Inclusions} {location other : Location}

theorem AgreeAt.refl (location : Location) (inclusions : Inclusions) :
    AgreeAt location inclusions inclusions :=
  ⟨rfl, rfl⟩

theorem AgreeAt.trans (hab : AgreeAt location a b) (hbc : AgreeAt location b c) :
    AgreeAt location a c :=
  ⟨hab.1.trans hbc.1, hab.2.trans hbc.2⟩

theorem AgreeAt.progress?_eq (h : AgreeAt location a b) :
    a.progress? location = b.progress? location := by
  rw [progress?, progress?, h.1, h.2]

theorem AgreeAt.isKnown_eq (h : AgreeAt location a b) :
    a.isKnown location = b.isKnown location := by
  rw [isKnown, isKnown, h.1]

theorem AgreeAt.isDone_eq (h : AgreeAt location a b) : a.isDone location = b.isDone location := by
  rw [isDone, isDone, h.1]

theorem agreeAt_start (h : other ≠ location) (inclusions : Inclusions) :
    AgreeAt other inclusions (inclusions.start location) :=
  ⟨(Assoc.lookup_put_of_ne h _ _).symm, rfl⟩

theorem agreeAt_finish (h : other ≠ location) (inclusions : Inclusions) :
    AgreeAt other inclusions (inclusions.finish location) :=
  ⟨(Assoc.lookup_put_of_ne h _ _).symm, rfl⟩

theorem agreeAt_retain (h : other ≠ location) (inclusions : Inclusions) (value : Value) :
    AgreeAt other inclusions (inclusions.retain location value) :=
  ⟨rfl, (Assoc.lookup_put_of_ne h _ _).symm⟩

/-- Nothing is remembered about a file whose inclusion has not started. -/
theorem progress?_eq_none :
    inclusions.progress? location = none ↔
      inclusions.finished.lookup location = none ∧ inclusions.value? location = none := by
  rw [progress?]
  cases inclusions.value? location with
  | none => simp
  | some value => simp

/-- A value that is kept is all that counts about a file. -/
theorem value?_eq_bind_progress? (inclusions : Inclusions) (location : Location) :
    inclusions.value? location = (inclusions.progress? location).bind Progress.value? := by
  rw [progress?]
  cases hvalue : inclusions.value? location with
  | some value => rfl
  | none =>
    rcases inclusions.finished.lookup location with _ | _ | _
    all_goals rfl

theorem progress?_ne_none_of_isKnown (h : inclusions.isKnown location) :
    inclusions.progress? location ≠ none := by
  intro hnone
  rw [isKnown, (progress?_eq_none.1 hnone).1] at h
  cases h

theorem progress?_ne_none_of_value {value : Value} (h : inclusions.value? location = some value) :
    inclusions.progress? location ≠ none := by
  intro hnone
  rw [(progress?_eq_none.1 hnone).2] at h
  cases h

@[simp] theorem value?_retain (inclusions : Inclusions) (location : Location) (value : Value) :
    (inclusions.retain location value).value? location = some value :=
  Assoc.lookup_put_self ..

@[simp] theorem isDone_finish (inclusions : Inclusions) (location : Location) :
    (inclusions.finish location).isDone location = true := by
  simp [isDone, finish]

theorem progress?_start (h : inclusions.progress? location = none) :
    (inclusions.start location).progress? location = some .underway := by
  have hvalue : (inclusions.start location).value? location = none := (progress?_eq_none.1 h).2
  rw [progress?, hvalue]
  simp [start, Progress.ofDone]

theorem progress?_finish (h : inclusions.value? location = none) :
    (inclusions.finish location).progress? location = some .done := by
  have hvalue : (inclusions.finish location).value? location = none := h
  rw [progress?, hvalue]
  simp [finish, Progress.ofDone]

theorem progress?_retain (inclusions : Inclusions) (location : Location) (value : Value) :
    (inclusions.retain location value).progress? location = some (.reusable value) := by
  rw [progress?, value?_retain]

theorem isKnown_eq_false (h : inclusions.progress? location = none) :
    inclusions.isKnown location = false := by
  rw [isKnown, (progress?_eq_none.1 h).1]
  rfl

theorem mem_locations : location ∈ inclusions.locations ↔ inclusions.isKnown location :=
  Assoc.mem_map_fst_iff

theorem locations_start (h : inclusions.isKnown location = false) :
    (inclusions.start location).locations = inclusions.locations ++ [location] := by
  apply Assoc.map_fst_put_of_not_mem
  intro hmem
  rw [← locations, mem_locations, h] at hmem
  cases hmem

theorem locations_finish (h : inclusions.isKnown location) :
    (inclusions.finish location).locations = inclusions.locations :=
  Assoc.map_fst_put_of_mem (mem_locations.2 h) true

/-! ## What is remembered about the other files -/

theorem progress?_without (h : other ≠ location) (inclusions : Inclusions) :
    (inclusions.without location).progress? other = inclusions.progress? other := by
  rw [progress?, progress?, value?, value?, without]
  rw [Assoc.lookup_filter_of_ne h, Assoc.lookup_filter_of_ne h]

@[simp] theorem without_start_self (inclusions : Inclusions) (location : Location) :
    (inclusions.start location).without location = inclusions.without location := by
  rw [without, start, Assoc.filter_put_self]
  rfl

@[simp] theorem without_finish_self (inclusions : Inclusions) (location : Location) :
    (inclusions.finish location).without location = inclusions.without location := by
  rw [without, finish, Assoc.filter_put_self]
  rfl

theorem without_start (h : other ≠ location) (inclusions : Inclusions) :
    (inclusions.start other).without location = (inclusions.without location).start other := by
  rw [without, start, Assoc.filter_put_of_ne h]
  rfl

theorem without_finish (h : other ≠ location) (inclusions : Inclusions) :
    (inclusions.finish other).without location = (inclusions.without location).finish other := by
  rw [without, finish, Assoc.filter_put_of_ne h]
  rfl

theorem without_retain (h : other ≠ location) (inclusions : Inclusions) (value : Value) :
    (inclusions.retain other value).without location =
      (inclusions.without location).retain other value := by
  rw [without, retain, Assoc.filter_put_of_ne h]
  rfl

end Inclusions

end Routebook
