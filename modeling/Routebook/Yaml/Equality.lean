import Routebook.Yaml.Value

/-!
# Equality of values

Two values are the same when they have the same content: the order of a
mapping's entries does not count, numbers are compared as numbers of one type,
and a value that is not a number equals itself.  This is the equality by which
keys of one mapping are distinct.
-/

namespace Routebook.Value

mutual

/-- Equality of content. -/
def same : Value → Value → Bool
  | .null, .null => true
  | .bool a, .bool b => a == b
  | .number a, .number b => a.same b
  | .string a, .string b => a == b
  | .sequence xs, .sequence ys => sameItems xs ys
  | .mapping xs, .mapping ys => xs.length == ys.length && sameEntries xs ys
  | .tagged s x, .tagged t y => s == t && same x y
  | _, _ => false

/-- Equality of sequences, item by item. -/
def sameItems : List Value → List Value → Bool
  | [], [] => true
  | x :: xs, y :: ys => same x y && sameItems xs ys
  | _, _ => false

/-- Whether each entry of the first mapping is an entry of the second. -/
def sameEntries : Mapping → Mapping → Bool
  | [], _ => true
  | (key, value) :: rest, entries =>
    entries.any (fun entry => same key entry.1 && same value entry.2) &&
      sameEntries rest entries

end

/-! ## Every value is the same as itself -/

mutual

theorem same_refl : ∀ value : Value, same value value
  | .null => rfl
  | .bool b => by simp [same]
  | .number n => by simpa [same] using n.same_refl
  | .string s => by simp [same]
  | .sequence items => by simpa [same] using sameItems_refl items
  | .mapping entries => by simpa [same] using sameEntries_of_subset entries fun _ h => h
  | .tagged tag value => by simpa [same] using same_refl value

theorem sameItems_refl : ∀ items : List Value, sameItems items items
  | [] => rfl
  | item :: rest => by simp [sameItems, same_refl item, sameItems_refl rest]

/-- The induction is on the entries that are looked up, while those that they are
looked up among stay as they are. -/
theorem sameEntries_of_subset : ∀ (found : Mapping) {entries : Mapping},
    (∀ entry ∈ found, entry ∈ entries) → sameEntries found entries
  | [], _, _ => rfl
  | (key, value) :: rest, entries, hsubset => by
    obtain ⟨hhead, hrest⟩ := List.forall_mem_cons.1 hsubset
    have hfound : entries.any fun entry => same key entry.1 && same value entry.2 :=
      List.any_eq_true.2 ⟨(key, value), hhead, by simp [same_refl key, same_refl value]⟩
    rw [sameEntries, hfound, sameEntries_of_subset rest hrest]
    rfl

end

end Routebook.Value
