import Routebook.Proofs.Outcome

/-!
# Steps that can change places

Two steps can change places if running them in either order succeeds alike, with
results that are related: one may append what the other appends, and in the other
order.  A step need not succeed alike on related states by itself, so that is asked
of it as well (`Respects`).

From single steps this carries over to loops, and a loop whose steps can change
places may go through its items in any order.  Which of two failures is reported is
left open, since it depends on the order.
-/

namespace Routebook.Outcome

variable {ε α α' β β' γ : Type}

/-- Whether two computations succeed alike, with related results. -/
inductive Corresponds (R : α → β → Prop) : Except ε α → Except ε β → Prop
  | ok {a : α} {b : β} (h : R a b) : Corresponds R (.ok a) (.ok b)
  | error (fault fault' : ε) : Corresponds R (.error fault) (.error fault')

/-- Whether a step succeeds alike on related states. -/
def Respects (R : β → β → Prop) (step : β → Except ε β) : Prop :=
  ∀ b b', R b b' → Corresponds R (step b) (step b')

/-- Whether two steps can change places. -/
def Interchange (R : β → β → Prop) (first second : β → Except ε β) : Prop :=
  ∀ b, Corresponds R (first b >>= second) (second b >>= first)

/-! ## Computations that correspond -/

section Corresponds

variable {R : α → β → Prop} {S : α' → β' → Prop} {a : Except ε α} {b : Except ε β}

theorem Corresponds.symm {R : α → α → Prop} (hR : Equivalence R) {a b : Except ε α}
    (h : Corresponds R a b) : Corresponds R b a := by
  cases h with
  | ok h => exact .ok (hR.symm h)
  | error fault fault' => exact .error fault' fault

theorem Corresponds.trans {R : α → α → Prop} (hR : Equivalence R) {a b c : Except ε α}
    (h : Corresponds R a b) (h' : Corresponds R b c) : Corresponds R a c := by
  cases h with
  | ok h =>
    cases h' with
    | ok h' => exact .ok (hR.trans h h')
  | error fault _ =>
    cases h' with
    | error _ fault' => exact .error fault fault'

theorem Corresponds.bind {next : α → Except ε α'} {next' : β → Except ε β'}
    (h : Corresponds R a b) (hnext : ∀ x y, R x y → Corresponds S (next x) (next' y)) :
    Corresponds S (a >>= next) (b >>= next') := by
  cases h with
  | ok h => exact hnext _ _ h
  | error fault fault' => exact .error fault fault'

theorem Corresponds.mapError {ε' : Type} (f : ε → ε') (h : Corresponds R a b) :
    Corresponds R (a.mapError f) (b.mapError f) := by
  cases h with
  | ok h => exact .ok h
  | error fault fault' => exact .error (f fault) (f fault')

/-- After one and the same computation, the rest has to correspond. -/
theorem corresponds_bind {a : Except ε α} {next : α → Except ε α'} {next' : α → Except ε β'}
    (hnext : ∀ x, a = .ok x → Corresponds S (next x) (next' x)) :
    Corresponds S (a >>= next) (a >>= next') := by
  cases a with
  | error fault => exact .error fault fault
  | ok x => exact hnext x rfl

/-- Two loops over the same items correspond if their steps do. -/
theorem corresponds_foldlM {step : α → γ → Except ε α} {step' : β → γ → Except ε β}
    {items : List γ}
    (hstep : ∀ item ∈ items, ∀ x y, R x y → Corresponds R (step x item) (step' y item)) :
    ∀ {x y}, R x y → Corresponds R (items.foldlM step x) (items.foldlM step' y) := by
  induction items with
  | nil => exact fun h => .ok h
  | cons item rest ih =>
    intro x y h
    obtain ⟨hitem, hrest⟩ := List.forall_mem_cons.1 hstep
    rw [List.foldlM_cons, List.foldlM_cons]
    exact (hitem x y h).bind fun _ _ h' => ih hrest h'

end Corresponds

/-! ## Steps that can change places -/

section Interchange

variable {R : β → β → Prop} {first second : β → Except ε β} {step : β → α → Except ε β}
  {step' : β → α' → Except ε β} {items : List α}

/-- A step that always fails can change places with every other one. -/
theorem interchange_error (fault : ε) (second : β → Except ε β) :
    Interchange R (fun _ => .error fault) second := by
  intro b
  cases second b with
  | error fault' => exact .error fault fault'
  | ok b' => exact .error fault fault

variable (hR : Equivalence R)

include hR

theorem Interchange.symm (h : Interchange R first second) : Interchange R second first :=
  fun b => (h b).symm hR

/-- A step that does nothing can change places with every other one. -/
theorem interchange_ok (second : β → Except ε β) : Interchange R (fun b => .ok b) second := by
  intro b
  cases hsecond : second b with
  | error fault =>
    rw [ok_bind, hsecond]
    exact .error fault fault
  | ok b' =>
    rw [ok_bind, hsecond]
    exact .ok (hR.refl b')

theorem Interchange.foldlM (hstep : ∀ item ∈ items, Respects R (step · item))
    (h : ∀ item ∈ items, Interchange R first (step · item)) :
    Interchange R first fun b => items.foldlM step b := by
  induction items with
  | nil => exact (interchange_ok hR first).symm hR
  | cons item rest ih =>
    obtain ⟨-, hrest⟩ := List.forall_mem_cons.1 hstep
    obtain ⟨hitem, hothers⟩ := List.forall_mem_cons.1 h
    have hloop : Respects R fun b => rest.foldlM step b :=
      fun _ _ hb => corresponds_foldlM hrest hb
    intro b
    simp only [List.foldlM_cons]
    -- First the step moves behind the first item, then behind the rest of the loop.
    have hbehind : Corresponds R ((first b >>= (step · item)) >>= fun x => rest.foldlM step x)
        ((step b item >>= first) >>= fun x => rest.foldlM step x) :=
      (hitem b).bind hloop
    rw [bind_assoc, bind_assoc] at hbehind
    rw [bind_assoc]
    exact hbehind.trans hR (corresponds_bind fun x _ => ih hrest hothers x)

/-- Two loops can change places if their steps can. -/
theorem interchange_foldlM {others : List α'} (hstep : ∀ item ∈ items, Respects R (step · item))
    (hstep' : ∀ item ∈ others, Respects R (step' · item))
    (h : ∀ item ∈ items, ∀ other ∈ others, Interchange R (step · item) (step' · other)) :
    Interchange R (fun b => items.foldlM step b) fun b => others.foldlM step' b := by
  refine Interchange.foldlM hR hstep' fun other hother => ?_
  refine Interchange.symm hR (Interchange.foldlM hR hstep fun item hitem => ?_)
  exact (h item hitem other hother).symm hR

/-- A loop whose steps can change places may go through its items in any order. -/
theorem corresponds_foldlM_of_perm {items' : List α}
    (hstep : ∀ item ∈ items, Respects R (step · item))
    (h : items.Pairwise fun item other => Interchange R (step · item) (step · other))
    (hperm : items.Perm items') (b : β) :
    Corresponds R (items.foldlM step b) (items'.foldlM step b) := by
  induction hperm generalizing b with
  | nil => exact .ok (hR.refl b)
  | cons item _ ih =>
    obtain ⟨-, hrest⟩ := List.forall_mem_cons.1 hstep
    rw [List.foldlM_cons, List.foldlM_cons]
    exact corresponds_bind fun x _ => ih hrest (List.pairwise_cons.1 h).2 x
  | swap item other rest =>
    have hswap : Interchange R (step · other) (step · item) :=
      (List.pairwise_cons.1 h).1 item List.mem_cons_self
    have hrest : ∀ x y, R x y → Corresponds R (rest.foldlM step x) (rest.foldlM step y) := by
      refine fun x y hxy => corresponds_foldlM (fun next hnext => hstep next ?_) hxy
      exact List.mem_cons_of_mem _ (List.mem_cons_of_mem _ hnext)
    simp only [List.foldlM_cons, ← bind_assoc]
    exact (hswap b).bind hrest
  | trans hfirst _ ih ih' =>
    have hmiddle := (hfirst.pairwise_iff fun h => Interchange.symm hR h).1 h
    refine (ih hstep h b).trans hR (ih' (fun item hitem => ?_) hmiddle b)
    exact hstep item (hfirst.mem_iff.2 hitem)

end Interchange

end Routebook.Outcome
