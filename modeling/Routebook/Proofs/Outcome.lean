import Mathlib.Data.List.Basic

/-!
# Computations that succeed

A computation that may fail succeeds exactly when each of its steps does.
`SameResult` compares two computations by their successes only.  Loops are reasoned
with by what every step preserves: it holds of the result if it holds at the start
(`foldlM_preserves`), and of the state in which the loop comes to an item.
-/

namespace Routebook.Outcome

variable {ε ε' α β : Type}

theorem bind_eq_ok {first : Except ε α} {next : α → Except ε β} {result : β} :
    (first >>= next) = .ok result ↔ ∃ a, first = .ok a ∧ next a = .ok result := by
  cases first with
  | error fault => simp [bind, Except.bind]
  | ok a => simp [bind, Except.bind]

theorem bind_eq_error {first : Except ε α} {next : α → Except ε β} {fault : ε} :
    (first >>= next) = .error fault ↔
      first = .error fault ∨ ∃ a, first = .ok a ∧ next a = .error fault := by
  cases first with
  | error other => simp [bind, Except.bind]
  | ok a => simp [bind, Except.bind]

theorem ok_bind (a : α) (next : α → Except ε β) : (Except.ok a >>= next) = next a :=
  rfl

theorem map_bind (a : Except ε α) {γ : Type} (f : α → γ) (next : γ → Except ε β) :
    (a.map f >>= next) = a >>= fun x => next (f x) := by
  cases a <;> rfl

theorem mapError_eq_ok {outcome : Except ε α} {f : ε → ε'} {result : α} :
    outcome.mapError f = .ok result ↔ outcome = .ok result := by
  cases outcome with
  | error fault => simp [Except.mapError]
  | ok a => simp [Except.mapError]

theorem mapError_eq_error {outcome : Except ε α} {f : ε → ε'} {fault : ε'} :
    outcome.mapError f = .error fault ↔ ∃ cause, outcome = .error cause ∧ f cause = fault := by
  cases outcome with
  | error cause => simp [Except.mapError]
  | ok a => simp [Except.mapError]

theorem map_eq_ok {a : Except ε α} {f : α → β} {result : β} :
    a.map f = .ok result ↔ ∃ x, a = .ok x ∧ f x = result := by
  cases a with
  | error fault => simp [Except.map]
  | ok x => simp [Except.map]

theorem pure_eq_ok {a result : α} : (pure a : Except ε α) = .ok result ↔ a = result := by
  simp [pure, Except.pure]

/-! ## Whether a computation succeeds -/

theorem isOk_iff_exists {a : Except ε α} : a.isOk ↔ ∃ x, a = .ok x := by
  cases a with
  | error fault => simp [Except.isOk, Except.toBool]
  | ok x => simp [Except.isOk, Except.toBool]

theorem not_isOk_iff_exists {a : Except ε α} : ¬ a.isOk ↔ ∃ fault, a = .error fault := by
  cases a with
  | error fault => simp [Except.isOk, Except.toBool]
  | ok x => simp [Except.isOk, Except.toBool]

theorem isOk_ok (a : α) : (.ok a : Except ε α).isOk :=
  rfl

theorem isOk_pure (a : α) : (pure a : Except ε α).isOk :=
  rfl

theorem isOk_map (f : α → β) (a : Except ε α) : (f <$> a).isOk ↔ a.isOk := by
  cases a <;> rfl

theorem isOk_bind {first : Except ε α} {next : α → Except ε β} :
    (first >>= next).isOk ↔ ∃ a, first = .ok a ∧ (next a).isOk := by
  cases first with
  | error fault => simp [bind, Except.bind, Except.isOk, Except.toBool]
  | ok a => simp [bind, Except.bind]

theorem isOk_mapM {form : α → Except ε β} {items : List α} :
    (items.mapM form).isOk ↔ ∀ item ∈ items, (form item).isOk := by
  induction items with
  | nil => exact iff_of_true rfl (List.forall_mem_nil _)
  | cons item rest ih =>
    rw [List.mapM_cons, List.forall_mem_cons, ← ih]
    simp only [isOk_bind, isOk_pure, and_true, exists_and_right, ← isOk_iff_exists]

/-! ## Computations that succeed alike -/

/-- Whether two computations succeed alike.  They may fail differently. -/
def SameResult (a b : Except ε α) : Prop :=
  ∀ result, a = .ok result ↔ b = .ok result

theorem SameResult.refl (a : Except ε α) : SameResult a a :=
  fun _ => Iff.rfl

theorem sameResult_error (fault fault' : ε) :
    SameResult (.error fault : Except ε α) (.error fault') :=
  fun _ => by simp

theorem sameResult_bind {a a' : Except ε α} {next next' : α → Except ε β} (h : SameResult a a')
    (hnext : ∀ result, SameResult (next result) (next' result)) :
    SameResult (a >>= next) (a' >>= next') := by
  intro result
  rw [bind_eq_ok, bind_eq_ok]
  exact exists_congr fun first => and_congr (h first) (hnext first result)

theorem sameResult_map {a a' : Except ε α} (f : α → β) (h : SameResult a a') :
    SameResult (f <$> a) (f <$> a') := by
  have hmap : ∀ b : Except ε α, f <$> b = b >>= fun x => .ok (f x) := fun b => by cases b <;> rfl
  rw [hmap, hmap]
  exact sameResult_bind h fun x => .refl _

/-! ## Loops -/

/-- A loop whose steps change nothing changes nothing. -/
theorem foldlM_eq_self {step : β → α → Except ε β} {items : List α} {b : β}
    (h : ∀ item ∈ items, step b item = .ok b) : items.foldlM step b = .ok b := by
  induction items with
  | nil => rfl
  | cons item rest ih =>
    obtain ⟨hitem, hrest⟩ := List.forall_mem_cons.1 h
    rw [List.foldlM_cons, hitem, ok_bind]
    exact ih hrest

/-- A loop fails at one of its steps, and the steps before have succeeded. -/
theorem exists_of_foldlM_eq_error {step : β → α → Except ε β} {items : List α} {b : β}
    {fault : ε} (hrun : items.foldlM step b = .error fault) :
    ∃ before item after reached, items = before ++ item :: after ∧
      before.foldlM step b = .ok reached ∧ step reached item = .error fault := by
  induction items generalizing b with
  | nil => cases hrun
  | cons item rest ih =>
    rw [List.foldlM_cons, bind_eq_error] at hrun
    rcases hrun with hitem | ⟨middle, hmiddle, hrest⟩
    · exact ⟨[], item, rest, b, rfl, rfl, hitem⟩
    · obtain ⟨before, other, after, reached, rfl, hbefore, hother⟩ := ih hrest
      refine ⟨item :: before, other, after, reached, rfl, ?_, hother⟩
      rw [List.foldlM_cons, hmiddle, ok_bind, hbefore]

/-- A loop that succeeds reaches each of its items. -/
theorem exists_of_foldlM_append {step : β → α → Except ε β} {before after : List α} {item : α}
    {b result : β} (hrun : (before ++ item :: after).foldlM step b = .ok result) :
    ∃ reached next, before.foldlM step b = .ok reached ∧ step reached item = .ok next ∧
      after.foldlM step next = .ok result := by
  rw [List.foldlM_append, bind_eq_ok] at hrun
  obtain ⟨reached, hreached, hrun⟩ := hrun
  rw [List.foldlM_cons, bind_eq_ok] at hrun
  obtain ⟨next, hnext, hrun⟩ := hrun
  exact ⟨reached, next, hreached, hnext, hrun⟩

/-- What each step of a loop preserves is preserved by the loop. -/
theorem foldlM_preserves {P : β → Prop} {step : β → α → Except ε β} {items : List α}
    (hstep : ∀ item ∈ items, ∀ b b', step b item = .ok b' → P b → P b') :
    ∀ {b result : β}, items.foldlM step b = .ok result → P b → P result := by
  induction items with
  | nil =>
    intro b result hrun hb
    rw [List.foldlM_nil, pure_eq_ok] at hrun
    exact hrun ▸ hb
  | cons item rest ih =>
    intro b result hrun hb
    rw [List.foldlM_cons, bind_eq_ok] at hrun
    obtain ⟨middle, hfirst, hrest⟩ := hrun
    have hmiddle : P middle := hstep item List.mem_cons_self b middle hfirst hb
    exact ih (fun other hother => hstep other (List.mem_cons_of_mem _ hother)) hrest hmiddle

/-- What one step of a loop brings about and each step preserves holds of the
result. -/
theorem foldlM_establishes {P : β → Prop} {step : β → α → Except ε β} {items : List α} {item : α}
    (hitem : item ∈ items) (hbrings : ∀ b b', step b item = .ok b' → P b')
    (hstep : ∀ item ∈ items, ∀ b b', step b item = .ok b' → P b → P b') {b result : β}
    (hrun : items.foldlM step b = .ok result) : P result := by
  obtain ⟨before, after, rfl⟩ := List.append_of_mem hitem
  obtain ⟨reached, middle, -, hmiddle, hrun⟩ := exists_of_foldlM_append hrun
  refine foldlM_preserves (fun other hother => hstep other ?_) hrun (hbrings _ _ hmiddle)
  exact List.mem_append_right _ (List.mem_cons_of_mem _ hother)

/-! ## The items that a loop comes to -/

section ComesTo

variable {step : β → α → Except ε β} {items : List α} {item : α} {b reached result : β}

/-- Whether a loop comes to an item, and in which state it is then. -/
def ComesTo (step : β → α → Except ε β) (items : List α) (b : β) (item : α) (reached : β) :
    Prop :=
  ∃ before after, items = before ++ item :: after ∧ before.foldlM step b = .ok reached

theorem ComesTo.mem (h : ComesTo step items b item reached) : item ∈ items := by
  obtain ⟨before, after, rfl, -⟩ := h
  exact List.mem_append_right before List.mem_cons_self

/-- A loop that comes to an item at which it fails ends there. -/
theorem ComesTo.foldlM_eq_error (h : ComesTo step items b item reached) {fault : ε}
    (hitem : step reached item = .error fault) : items.foldlM step b = .error fault := by
  obtain ⟨before, after, rfl, hreached⟩ := h
  rw [List.foldlM_append, hreached, ok_bind, List.foldlM_cons, hitem]
  rfl

/-- What each step of a loop preserves holds when the loop comes to an item. -/
theorem ComesTo.preserves {P : β → Prop} (h : ComesTo step items b item reached)
    (hstep : ∀ item ∈ items, ∀ b b', step b item = .ok b' → P b → P b') (hb : P b) :
    P reached := by
  obtain ⟨before, after, rfl, hreached⟩ := h
  exact foldlM_preserves (fun other hother => hstep other (List.mem_append_left _ hother))
    hreached hb

theorem exists_comesTo (hrun : items.foldlM step b = .ok result) (hitem : item ∈ items) :
    ∃ reached next, ComesTo step items b item reached ∧ step reached item = .ok next := by
  obtain ⟨before, after, rfl⟩ := List.append_of_mem hitem
  obtain ⟨reached, next, hreached, hnext, -⟩ := exists_of_foldlM_append hrun
  exact ⟨reached, next, ⟨before, after, rfl, hreached⟩, hnext⟩

end ComesTo

end Routebook.Outcome
