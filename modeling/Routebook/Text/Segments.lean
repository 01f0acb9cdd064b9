/-!
# Cutting and joining text at a separator

Directory paths are cut at `/` and placeholder paths at `|`.  Both use the
same rule: a text with `n` separators has `n + 1` segments, empty ones
included, so that joining the segments with the separator gives the text back.
-/

namespace Routebook.Text

/-- Cut a list of characters at every `separator`, keeping empty segments. -/
def cut (separator : Char) : List Char → List (List Char)
  | [] => [[]]
  | c :: rest =>
    if c = separator then
      [] :: cut separator rest
    else
      match cut separator rest with
      | [] => [[c]]
      | first :: others => (c :: first) :: others

/-- The segments of `text` between occurrences of `separator`. -/
def segments (separator : Char) (text : String) : List String :=
  (cut separator text.toList).map String.ofList

/-- The text without occurrences of `c` at its start and end. -/
def trim (c : Char) (text : String) : String :=
  let behind := text.toList.dropWhile (· = c)
  .ofList (behind.reverse.dropWhile (· = c)).reverse

/-- The texts in order, with `separator` between neighbours. -/
def join (separator : Char) (texts : List String) : String :=
  (String.singleton separator).intercalate texts

theorem cut_ne_nil (separator : Char) (chars : List Char) :
    cut separator chars ≠ [] := by
  cases chars with
  | nil => simp [cut]
  | cons c rest =>
    rw [cut]
    split
    · simp
    · split <;> simp

/-- Joining the segments gives the characters back. -/
theorem intercalate_cut (separator : Char) (chars : List Char) :
    [separator].intercalate (cut separator chars) = chars := by
  induction chars with
  | nil => rfl
  | cons c rest ih =>
    obtain ⟨first, others, hcut⟩ := List.exists_cons_of_ne_nil (cut_ne_nil separator rest)
    rw [hcut] at ih
    by_cases hc : c = separator
    · rw [cut, if_pos hc, hcut, hc]
      simp_all [List.intercalate]
    · rw [cut, if_neg hc, hcut]
      cases others <;> simp_all [List.intercalate]

/-- No segment contains the separator. -/
theorem not_mem_of_mem_cut {separator : Char} {chars segment : List Char}
    (h : segment ∈ cut separator chars) : separator ∉ segment := by
  induction chars generalizing segment with
  | nil => simp_all [cut]
  | cons c rest ih =>
    rw [cut] at h
    split at h
    · rcases List.mem_cons.1 h with rfl | h
      · simp
      · exact ih h
    · rename_i hc
      split at h
      · rename_i hnil
        exact absurd hnil (cut_ne_nil separator rest)
      · rename_i first others hcut
        rcases List.mem_cons.1 h with rfl | h
        · have : separator ∉ first := ih (by simp [hcut])
          simp [this, Ne.symm hc]
        · exact ih (by simp [hcut, h])

end Routebook.Text
