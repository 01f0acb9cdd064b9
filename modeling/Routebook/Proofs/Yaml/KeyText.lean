import Routebook.Yaml.Value

/-!
# Texts that only strings have

Keys of different kinds can have the same text: the number `404` reads like the
string of its digits.  A text without digits that is no constant of its own is the
text of a string and of no other key, so that a key with this text is found as a
string as well.
-/

namespace Routebook

/-- Whether a text is neither that of a number nor that of a boolean. -/
def OnlyString (text : String) : Prop :=
  (∀ c ∈ text.toList, c.isDigit = false) ∧
    text ∉ ["true", "false", ".nan", ".inf", "-.inf"]

instance (text : String) : Decidable (OnlyString text) :=
  decidable_of_iff
    ((text.toList.all fun c => !c.isDigit) = true ∧
      ["true", "false", ".nan", ".inf", "-.inf"].contains text = false)
    (by simp [OnlyString])

section Digits

/-- Whether there is a digit among characters. -/
def HasDigit (chars : List Char) : Prop :=
  ∃ c ∈ chars, c.isDigit = true

theorem hasDigit_repr (n : Nat) : HasDigit n.repr.toList := by
  rw [Nat.toList_repr]
  obtain ⟨c, hc⟩ := List.exists_mem_of_ne_nil _ Nat.toDigits_ne_nil
  exact ⟨c, hc, Nat.isDigit_of_mem_toDigits (by decide) (by decide) hc⟩

theorem hasDigit_toString (n : Int) : HasDigit (toString n).toList := by
  cases n with
  | ofNat n => exact hasDigit_repr n
  | negSucc n =>
    obtain ⟨c, hc, hdigit⟩ := hasDigit_repr (n + 1)
    refine ⟨c, ?_, hdigit⟩
    change c ∈ ("-" ++ (n + 1).repr).toList
    rw [String.toList_append]
    exact List.mem_append_right _ hc

theorem isDigit_of_mem_trimmed {digits : Nat} {power : Int} {c : Char}
    (h : c ∈ (Binary64.trimmed digits power).digits) : c.isDigit = true := by
  have hmem : c ∈ ((Nat.toDigits 10 digits).reverse.dropWhile (· = '0')).reverse := h
  rw [List.mem_reverse] at hmem
  have hwritten := (List.dropWhile_suffix _).subset hmem
  exact Nat.isDigit_of_mem_toDigits (by decide) (by decide) (List.mem_reverse.1 hwritten)

theorem hasDigit_positional {d : DecimalDigits} (h : ∀ c ∈ d.digits, c.isDigit = true) :
    HasDigit (FloatLayout.positional d) := by
  rw [FloatLayout.positional]
  split
  · rename_i k hk
    split
    · exact ⟨'0', List.mem_cons_self, rfl⟩
    · split
      · rename_i hzero hlt
        obtain ⟨first, rest, hdigits⟩ := List.exists_cons_of_length_pos (Nat.zero_lt_of_lt hlt)
        obtain ⟨k, rfl⟩ := Nat.exists_eq_succ_of_ne_zero hzero
        exact ⟨first, by simp [hdigits], h first (by simp [hdigits])⟩
      · exact ⟨'0', by simp, rfl⟩
  · exact ⟨'0', List.mem_cons_self, rfl⟩

theorem hasDigit_scientific (signedPower : Bool) (d : DecimalDigits) :
    HasDigit (FloatLayout.scientific signedPower d) := by
  obtain ⟨c, hc, hdigit⟩ := hasDigit_toString (d.point - 1)
  rw [FloatLayout.scientific]
  exact ⟨c, List.mem_append_right _ (List.mem_cons_of_mem _ (List.mem_append_right _ hc)), hdigit⟩

theorem hasDigit_magnitude (layout : FloatLayout) {d : DecimalDigits}
    (h : ∀ c ∈ d.digits, c.isDigit = true) : HasDigit (layout.magnitude d) := by
  rw [FloatLayout.magnitude]
  split
  · exact hasDigit_positional h
  · exact hasDigit_scientific _ _

theorem isDigit_of_mem_shortest {significand : Nat} {exponent : Int} {c : Char}
    (h : c ∈ (Binary64.shortest significand exponent).digits) : c.isDigit = true := by
  rw [Binary64.shortest] at h
  exact isDigit_of_mem_trimmed h

/-- The digits of a finite number, with or without a sign in front of them. -/
theorem exists_text_finite (layout : FloatLayout) (negative : Bool) (significand : Nat)
    (exponent : Int) : ∃ chars, HasDigit chars ∧
      layout.text (.finite negative significand exponent) =
        .ofList (if negative then '-' :: chars else chars) := by
  refine ⟨_, ?_, rfl⟩
  split
  · exact ⟨'0', List.mem_cons_self, rfl⟩
  · exact hasDigit_magnitude _ fun c hc => isDigit_of_mem_shortest hc

/-- A number that is written without digits is none of the finite ones. -/
theorem mem_of_not_hasDigit {n : Number} (h : ¬ HasDigit n.text.toList) :
    n.text ∈ [".nan", ".inf", "-.inf"] := by
  cases n with
  | int value => exact absurd (hasDigit_toString value) h
  | float value =>
    cases value with
    | nan => exact List.mem_cons_self
    | infinite negative => cases negative <;> decide
    | finite negative significand exponent =>
      refine absurd ?_ h
      obtain ⟨chars, ⟨c, hc, hdigit⟩, htext⟩ :=
        exists_text_finite Number.layout negative significand exponent
      refine ⟨c, ?_, hdigit⟩
      rw [Number.text, htext, String.toList_ofList]
      cases negative with
      | false => exact hc
      | true => exact List.mem_cons_of_mem _ hc

end Digits

theorem eq_string_of_name? {key : Value} {name : String} (h : key.name? = some name)
    (honly : OnlyString name) : key = .string name := by
  obtain ⟨hdigits, hnames⟩ := honly
  cases key with
  | string text => exact congrArg Value.string (Option.some.inj h)
  | bool b =>
    obtain rfl : toString b = name := Option.some.inj h
    cases b <;> exact absurd (by decide) hnames
  | number n =>
    obtain rfl : n.text = name := Option.some.inj h
    have hmem : n.text ∈ [".nan", ".inf", "-.inf"] := by
      apply mem_of_not_hasDigit
      rintro ⟨c, hc, hdigit⟩
      rw [hdigits c hc] at hdigit
      cases hdigit
    exact absurd (List.mem_cons_of_mem _ (List.mem_cons_of_mem _ hmem)) hnames
  | _ => cases h

end Routebook
