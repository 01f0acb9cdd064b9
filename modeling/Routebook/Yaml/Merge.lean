import Routebook.Yaml.Fault
import Routebook.Yaml.Mapping

/-!
# Merge keys

The value under the key `<<` of a mapping is a mapping, or a sequence of
mappings, whose entries are added to the mapping where their keys are absent.
The key itself goes away: the last entry of the mapping takes its place, and the
new entries stand behind.  A key `<<` among the new entries is an entry like any
other.

Mappings are merged from the outside in, the last child before the others; the
first fault met in this order is the one reported.
-/

namespace Routebook.Yaml

/-- The key whose value is merged into its mapping. -/
def mergeKey : String := "<<"

/-- Take the entry of the merge key out, letting the last entry take its place:
the value under the key, and the other entries. -/
def takeMergeKey : Mapping → Option Value × Mapping
  | [] => (none, [])
  | (key, value) :: rest =>
    if key.isName mergeKey then
      match rest.getLast? with
      | some last => (some value, last :: rest.dropLast)
      | none => (some value, [])
    else
      let (found, rest) := takeMergeKey rest
      (found, (key, value) :: rest)

/-- Add the entries of each mapping of a sequence in turn. -/
def addEach (entries : Mapping) : List Value → Except MergeFault Mapping
  | [] => .ok entries
  | .mapping added :: rest => addEach (Mapping.addAbsent entries added) rest
  | .sequence _ :: _ => .error .sequenceElement
  | .tagged .. :: _ => .error .tagged
  | _ :: _ => .error .scalarElement

/-- Merge the value under the merge key of one mapping into it. -/
def mergeOnce (entries : Mapping) : Except MergeFault Mapping :=
  match takeMergeKey entries with
  | (none, entries) => .ok entries
  | (some (.mapping added), entries) => .ok (Mapping.addAbsent entries added)
  | (some (.sequence items), entries) => addEach entries items
  | (some (.tagged ..), _) => .error .tagged
  | (some _, _) => .error .scalar

/-! ## The merged entries are part of the mapping

Every value of a merged mapping is a value of the mapping as it was written, or
of a mapping under its merge key.  This is why merging the children of a merged
mapping comes to an end. -/

theorem sizeOf_snd_lt_of_mem {entries : Mapping} {entry : Value × Value}
    (h : entry ∈ entries) : sizeOf entry.2 < sizeOf entries := by
  have := List.sizeOf_lt_of_mem h
  rcases entry with ⟨key, value⟩
  simp only [Prod.mk.sizeOf_spec] at this
  show sizeOf value < sizeOf entries
  omega

theorem exists_mem_of_takeMergeKey {entries : Mapping} {value : Value}
    (h : (takeMergeKey entries).1 = some value) : ∃ key, (key, value) ∈ entries := by
  induction entries with
  | nil => simp [takeMergeKey] at h
  | cons entry rest ih =>
    obtain ⟨key, first⟩ := entry
    by_cases hkey : key.isName mergeKey
    · refine ⟨key, ?_⟩
      cases hlast : rest.getLast? <;> simp_all [takeMergeKey]
    · obtain ⟨other, hother⟩ := ih (by simpa [takeMergeKey, hkey] using h)
      exact ⟨other, List.mem_cons_of_mem _ hother⟩

theorem mem_of_mem_takeMergeKey {entries : Mapping} {entry : Value × Value}
    (h : entry ∈ (takeMergeKey entries).2) : entry ∈ entries := by
  induction entries with
  | nil => simp [takeMergeKey] at h
  | cons first rest ih =>
    obtain ⟨key, value⟩ := first
    by_cases hkey : key.isName mergeKey
    · cases hlast : rest.getLast? with
      | none => simp [takeMergeKey, hkey, hlast] at h
      | some last =>
        simp only [takeMergeKey, hkey, hlast, if_true] at h
        rcases List.mem_cons.1 h with rfl | h
        · exact List.mem_cons_of_mem _ (List.mem_of_getLast? hlast)
        · exact List.mem_cons_of_mem _ (List.dropLast_subset _ h)
    · simp only [takeMergeKey, hkey] at h
      rcases List.mem_cons.1 h with rfl | h
      · exact List.mem_cons_self
      · exact List.mem_cons_of_mem _ (ih h)

theorem mem_addEach {entries merged : Mapping} {items : List Value} {entry : Value × Value}
    (hmerged : addEach entries items = .ok merged) (h : entry ∈ merged) :
    entry ∈ entries ∨ ∃ added, Value.mapping added ∈ items ∧ entry ∈ added := by
  induction items generalizing entries with
  | nil =>
    cases hmerged
    exact .inl h
  | cons item rest ih =>
    cases item with
    | mapping added =>
      rcases ih hmerged with h | ⟨other, hother, h⟩
      · rcases Mapping.mem_addAbsent h with h | h
        · exact .inl h
        · exact .inr ⟨added, List.mem_cons_self, h⟩
      · exact .inr ⟨other, List.mem_cons_of_mem _ hother, h⟩
    | _ => cases hmerged

theorem sizeOf_lt_of_mem_mergeOnce {entries merged : Mapping} {entry : Value × Value}
    (hmerged : mergeOnce entries = .ok merged) (h : entry ∈ merged) :
    sizeOf entry.2 < sizeOf entries := by
  have hold {rest : Mapping} {found : Option Value}
      (htake : takeMergeKey entries = (found, rest)) (h : entry ∈ rest) :
      sizeOf entry.2 < sizeOf entries :=
    sizeOf_snd_lt_of_mem (mem_of_mem_takeMergeKey (by rw [htake]; exact h))
  rw [mergeOnce] at hmerged
  split at hmerged
  · rename_i rest htake
    cases hmerged
    exact hold htake h
  · rename_i added rest htake
    cases hmerged
    rcases Mapping.mem_addAbsent h with h | h
    · exact hold htake h
    · obtain ⟨key, hkey⟩ := exists_mem_of_takeMergeKey (congrArg Prod.fst htake)
      have h1 := sizeOf_snd_lt_of_mem hkey
      have h2 := sizeOf_snd_lt_of_mem h
      simp only [Value.mapping.sizeOf_spec] at h1
      omega
  · rename_i items rest htake
    rcases mem_addEach hmerged h with h | ⟨added, hadded, h⟩
    · exact hold htake h
    · obtain ⟨key, hkey⟩ := exists_mem_of_takeMergeKey (congrArg Prod.fst htake)
      have h1 := sizeOf_snd_lt_of_mem hkey
      have h2 := List.sizeOf_lt_of_mem hadded
      have h3 := sizeOf_snd_lt_of_mem h
      simp only [Value.sequence.sizeOf_spec] at h1
      simp only [Value.mapping.sizeOf_spec] at h2
      omega
  · cases hmerged
  · cases hmerged

/-! ## Merging throughout a value -/

/-- Apply a function to the items of a list from the last to the first. -/
def mapLastFirst {α β ε : Type} (f : α → Except ε β) : List α → Except ε (List β)
  | [] => .ok []
  | x :: rest => do
    let rest ← mapLastFirst f rest
    let x ← f x
    return x :: rest

/-- Resolve the merge keys of all mappings in a value. -/
def mergeKeys (value : Value) : Except MergeFault Value :=
  match value with
  | .mapping entries =>
    match h : mergeOnce entries with
    | .error fault => .error fault
    | .ok merged =>
      Value.mapping <$> mapLastFirst (fun (entry : { entry // entry ∈ merged }) =>
        have := sizeOf_lt_of_mem_mergeOnce h entry.2
        (entry.1.1, ·) <$> mergeKeys entry.1.2) merged.attach
  | .sequence items =>
    Value.sequence <$> mapLastFirst (fun (item : { item // item ∈ items }) =>
      mergeKeys item.1) items.attach
  | .tagged tag value => Value.tagged tag <$> mergeKeys value
  | value => .ok value
termination_by sizeOf value
decreasing_by
  · rw [Value.mapping.sizeOf_spec]
    omega
  · have := List.sizeOf_lt_of_mem item.2
    rw [Value.sequence.sizeOf_spec]
    omega
  · rw [Value.tagged.sizeOf_spec]
    omega

end Routebook.Yaml
