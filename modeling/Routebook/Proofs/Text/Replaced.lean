import Mathlib.Data.List.Infix
import Routebook.Text.Replace

/-!
# What replacing a token makes of a text

Replacing scans a text and counts the characters of the occurrence found last.
`Replaced` says without a scan what comes of it: the characters in front of the first
occurrence stay, the replacement stands in its place, and the same goes for the
characters behind it.  An occurrence that overlaps one in front of it is none, and the
empty token occurs before each character and at the end.
-/

namespace Routebook.Text

/-- Whether characters have become others by replacing every occurrence of a token. -/
inductive Replaced (token replacement : List Char) : List Char → List Char → Prop
  /-- The token does not occur. -/
  | absent {text : List Char} (habsent : ¬ token <:+: text) : Replaced token replacement text text
  /-- The token occurs behind `before` for the first time. -/
  | first (before : List Char) {after after' : List Char} (htoken : token ≠ [])
      (hfirst : ¬ token <:+: before ++ token.dropLast)
      (hafter : Replaced token replacement after after') :
      Replaced token replacement (before ++ (token ++ after)) (before ++ (replacement ++ after'))
  /-- The token is empty. -/
  | empty (htoken : token = []) (text : List Char) :
      Replaced token replacement text (text.flatMap (fun c => replacement ++ [c]) ++ replacement)

variable {token replacement text text' : List Char} {c : Char}

theorem replaceChars_eq_drop (token replacement : List Char) (skip : Nat) (text : List Char) :
    replaceChars token replacement skip text =
      replaceChars token replacement 0 (text.drop skip) := by
  induction text generalizing skip with
  | nil => rw [List.drop_nil, replaceChars, replaceChars]
  | cons c rest ih =>
    cases skip with
    | zero => rw [List.drop_zero]
    | succ skip => rw [replaceChars, ih, List.drop_succ_cons]

theorem surround_eq_flatMap (replacement text : List Char) :
    surround replacement text = text.flatMap (fun c => replacement ++ [c]) ++ replacement := by
  induction text with
  | nil => rw [surround, List.flatMap_nil, List.nil_append]
  | cons c rest ih => simp [surround, ih]

/-- A character at which the token does not occur stays in front. -/
theorem Replaced.cons (htoken : token ≠ []) (hnot : ¬ token <+: c :: text)
    (h : Replaced token replacement text text') :
    Replaced token replacement (c :: text) (c :: text') := by
  cases h with
  | absent habsent =>
    refine .absent fun hinfix => ?_
    exact (List.infix_cons_iff.1 hinfix).elim hnot habsent
  | @first before after after' _ hfirst hafter =>
    refine .first (c :: before) htoken (fun hinfix => ?_) hafter
    rcases List.infix_cons_iff.1 hinfix with hoccurs | hinfix
    · have hdrop : before ++ token.dropLast <+: before ++ (token ++ after) :=
        (List.prefix_append_right_inj before).2
          ((List.dropLast_prefix token).trans (List.prefix_append token after))
      exact hnot (hoccurs.trans (List.cons_prefix_cons.2 ⟨rfl, hdrop⟩))
    · exact hfirst hinfix
  | empty hempty _ => exact absurd hempty htoken

/-- The induction is on the length of the text, since the scan goes on behind an
occurrence. -/
theorem replaced_replaceChars (htoken : token ≠ []) (replacement text : List Char) :
    Replaced token replacement text (replaceChars token replacement 0 text) := by
  induction hlength : text.length using Nat.strong_induction_on generalizing text with
  | _ length ih =>
    subst hlength
    cases text with
    | nil => exact .absent fun hinfix => htoken (List.infix_nil.1 hinfix)
    | cons c rest =>
      rw [replaceChars]
      split
      · rename_i hoccurs
        obtain ⟨after, hafter⟩ := List.isPrefixOf_iff_prefix.1 hoccurs
        have hbehind : rest.drop (token.length - 1) = after := by
          have hdrop : (c :: rest).drop token.length = after := by rw [← hafter, List.drop_left]
          rwa [← Nat.succ_pred_eq_of_pos (List.length_pos_of_ne_nil htoken)] at hdrop
        have hshorter : after.length < (c :: rest).length := by
          rw [← hbehind, List.length_drop, List.length_cons]
          omega
        have hfirst : ¬ token <:+: [] ++ token.dropLast := fun hinfix => by
          have hle := hinfix.length_le
          have hpos := List.length_pos_of_ne_nil htoken
          rw [List.nil_append, List.length_dropLast] at hle
          omega
        rw [replaceChars_eq_drop, hbehind, ← hafter]
        exact .first [] htoken hfirst (ih _ hshorter after rfl)
      · rename_i hoccurs
        refine (ih _ (Nat.lt_succ_self rest.length) rest rfl).cons htoken fun h => hoccurs ?_
        exact List.isPrefixOf_iff_prefix.2 h

theorem replaceChars_eq_self (h : ¬ token <:+: text) (replacement : List Char) :
    replaceChars token replacement 0 text = text := by
  induction text with
  | nil => rw [replaceChars]
  | cons c rest ih =>
    have hnot : ¬ token.isPrefixOf (c :: rest) := fun hoccurs =>
      h (List.isPrefixOf_iff_prefix.1 hoccurs).isInfix
    rw [replaceChars, if_neg hnot, ih fun hinfix => h (List.infix_cons_iff.2 (.inr hinfix))]

theorem replaceChars_append (htoken : token ≠ []) (replacement after : List Char) :
    replaceChars token replacement 0 (token ++ after) =
      replacement ++ replaceChars token replacement 0 after := by
  obtain ⟨c, rest, rfl⟩ := List.exists_cons_of_ne_nil htoken
  have hoccurs : (c :: rest).isPrefixOf (c :: (rest ++ after)) :=
    List.isPrefixOf_iff_prefix.2 (List.prefix_append (c :: rest) after)
  rw [List.cons_append, replaceChars, if_pos hoccurs, replaceChars_eq_drop, List.length_cons,
    Nat.add_sub_cancel, List.drop_left]

/-- The scan gets as far as the first occurrence. -/
theorem replaceChars_append_first {before : List Char} (htoken : token ≠ [])
    (hfirst : ¬ token <:+: before ++ token.dropLast) (replacement after : List Char) :
    replaceChars token replacement 0 (before ++ (token ++ after)) =
      before ++ (replacement ++ replaceChars token replacement 0 after) := by
  induction before with
  | nil => exact replaceChars_append htoken replacement after
  | cons c rest ih =>
    have hnot : ¬ token.isPrefixOf (c :: (rest ++ (token ++ after))) := fun hoccurs => by
      have hshort : token.length ≤ (c :: rest ++ token.dropLast).length := by
        simp only [List.length_append, List.length_cons, List.length_dropLast]
        omega
      have hdrop : c :: rest ++ token.dropLast <+: c :: rest ++ (token ++ after) :=
        (List.prefix_append_right_inj _).2
          ((List.dropLast_prefix token).trans (List.prefix_append token after))
      have hwithin := List.prefix_of_prefix_length_le (List.isPrefixOf_iff_prefix.1 hoccurs) hdrop
        hshort
      exact hfirst hwithin.isInfix
    rw [List.cons_append, replaceChars, if_neg hnot,
      ih fun hinfix => hfirst (List.infix_cons_iff.2 (.inr hinfix)), List.cons_append]

theorem Replaced.eq_replaceChars (h : Replaced token replacement text text') (htoken : token ≠ []) :
    text' = replaceChars token replacement 0 text := by
  induction h with
  | absent habsent => rw [replaceChars_eq_self habsent]
  | first before _ hfirst _ ih => rw [replaceChars_append_first htoken hfirst, ih]
  | empty hempty _ => exact absurd hempty htoken

theorem replaced_iff_of_ne_nil (htoken : token ≠ []) :
    Replaced token replacement text text' ↔ text' = replaceChars token replacement 0 text := by
  constructor
  · exact fun h => h.eq_replaceChars htoken
  · rintro rfl
    exact replaced_replaceChars htoken replacement text

theorem replaced_nil_iff :
    Replaced [] replacement text text' ↔ text' = surround replacement text := by
  rw [surround_eq_flatMap]
  constructor
  · intro h
    cases h with
    | absent habsent => exact absurd List.nil_infix habsent
    | first _ htoken _ _ => exact absurd rfl htoken
    | empty _ _ => rfl
  · rintro rfl
    exact .empty rfl text

/-- Replacing replaces every occurrence of the token, and nothing else. -/
theorem replaced_iff {token replacement text text' : String} :
    Replaced token.toList replacement.toList text.toList text'.toList ↔
      text' = replaceAll token replacement text := by
  rw [replaceAll]
  split
  · rename_i hempty
    have htoken : token.toList = [] := by simpa using hempty
    rw [htoken, replaced_nil_iff, ← String.toList_inj, String.toList_ofList]
  · rename_i hempty
    have htoken : token.toList ≠ [] := by simpa using hempty
    rw [replaced_iff_of_ne_nil htoken, ← String.toList_inj, String.toList_ofList]

end Routebook.Text
