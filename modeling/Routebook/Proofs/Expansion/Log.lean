import Routebook.Proofs.Expansion.Course

/-!
# What successful expansions add to the journal

A step that succeeds adds a piece to the journal.  The pieces of steps one after
the other are put together, and the piece of a file that is read is the piece of
its expansion between the events of the reference.

A property of pieces that agrees with this holds of what every expansion adds.  It
may use that the files have only certain texts, and that the text of a file that
has been resolved has been expanded with success.
-/

namespace Routebook

/-- Whether what a step adds to the journal has a property, if it succeeds. -/
def Logs (property : List Event → Prop) {α : Type} (step : Expansion α) : Prop :=
  ∀ context, (step.runFrom context).1.isOk →
    ∃ new, (step.runFrom context).2.journal = new ++ context.journal ∧ property new

/-- A property that the pieces of all expansions have, if files have only the given
texts. -/
structure Loggable (held : Location → String → Prop) (property : List Event → Prop) : Prop where
  nil : property []
  append : ∀ {new new' : List Event}, property new → property new' → property (new' ++ new)
  used : ∀ body, property [.used body]
  recalled : ∀ location outcome, property [.resolved location outcome, .requested location]
  visited : ∀ {resolver : Resolver} {location : Location} {text : String}
    {context after : Context} {value outcome : Option Value} {new : List Event},
    held location text →
    (expandText resolver location text).runFrom context = (.ok value, after) →
    (value.isSome → outcome.isSome) → property new →
    property (.resolved location (.ok outcome) ::
      (new ++ [.opened location (.ok text), .requested location]))

/-- The files that are opened while another one is resolved. -/
theorem mem_opened_visited {location other : Location} {outcome : Except Error (Option Value)}
    {contents contents' : Except ReadFault String} {new : List Event} :
    .opened other contents' ∈ .resolved location outcome ::
        (new ++ [.opened location contents, .requested location]) ↔
      .opened other contents' ∈ new ∨ other = location ∧ contents' = contents := by
  simp

section Steps

variable {held : Location → String → Prop} {property : List Event → Prop} {α β : Type}

/-- What is included of a file that has come to something is something. -/
theorem isSome_of_settle {reference : Reference} {value outcome : Option Value}
    {context after : Context}
    (h : (settle reference value).runFrom context = (.ok outcome, after)) (hvalue : value.isSome) :
    outcome.isSome := by
  obtain ⟨value, rfl⟩ := Option.isSome_iff_exists.1 hvalue
  by_cases hreusable : isReusable value
  · rw [runFrom_settle_of_reusable reference hreusable] at h
    cases h
    rfl
  · rw [runFrom_settle_of_once reference hreusable] at h
    cases h
    rfl

theorem Bundle.lookup_of_without {bundle : Bundle} {location other : Location} {text : String}
    (h : (bundle.without location).texts.lookup other = some text) :
    bundle.texts.lookup other = some text := by
  by_cases hother : other = location
  · subst hother
    have hmem := Assoc.mem_of_lookup_eq_some h
    simp [without] at hmem
  · rwa [without, Assoc.lookup_filter_of_ne hother] at h

namespace Loggable

variable (hlog : Loggable held property)

include hlog

theorem logs_of_journal_eq {step : Expansion α}
    (h : ∀ context, (step.runFrom context).2.journal = context.journal) : Logs property step :=
  fun context _ => ⟨[], h context, hlog.nil⟩

theorem logs_bind {step : Expansion α} {next : α → Expansion β} (hstep : Logs property step)
    (hnext : ∀ result, Logs property (next result)) : Logs property (step >>= next) := by
  intro context hok
  obtain ⟨result, after, hrun, hrest⟩ := Expansion.of_runFrom_bind_isOk hok
  obtain ⟨new, hjournal, hnew⟩ := hstep context (by rw [hrun]; rfl)
  obtain ⟨new', hjournal', hnew'⟩ := hnext result after hrest
  rw [hrun] at hjournal
  refine ⟨new' ++ new, ?_, hlog.append hnew hnew'⟩
  rw [Expansion.runFrom_bind, hrun]
  dsimp only
  rw [hjournal', hjournal, List.append_assoc]

theorem logs_enterable : Enterable fun step _ => Logs property step where
  ofExcept _ := hlog.logs_of_journal_eq fun _ => rfl
  bind := hlog.logs_bind
  obtainSchema _ := hlog.logs_of_journal_eq fun _ => rfl
  define body := by
    apply hlog.logs_of_journal_eq
    intro context
    rw [Expansion.runFrom_define]
    split <;> rfl
  applyTraits body := by
    intro context _
    rw [Expansion.runFrom_applyTraits]
    exact ⟨[.used body], rfl, hlog.used body⟩

/-- A file that is read for the first time. -/
theorem logs_includeOnce {resolver : Resolver} {reference : Reference}
    {contents : Except ReadFault String}
    (hheld : ∀ text, contents = .ok text → held reference.location text)
    (hresolver : ∀ text, contents = .ok text → ∀ inner, Logs property (resolver inner)) :
    Logs property (includeOnce reference contents fun text _ =>
      expandText resolver reference.location text) := by
  intro context hok
  cases hprogress : context.inclusions.progress? reference.location with
  | some progress =>
    rw [runFrom_includeOnce_of_known hprogress]
    exact ⟨[_, _], rfl, hlog.recalled reference.location _⟩
  | none =>
    cases contents with
    | error fault =>
      rw [runFrom_includeOnce_of_unread hprogress rfl] at hok
      cases hok
    | ok text =>
      rw [runFrom_includeOnce_of_read hprogress rfl] at hok ⊢
      obtain ⟨value, after, hrun, -⟩ := Expansion.of_runFrom_bind_isOk hok
      have hinside : Logs property (expandText resolver reference.location text) :=
        @Enterable.expandText _ resolver resolver hlog.logs_enterable (hresolver text rfl) _ text
      obtain ⟨new, hjournal, hnew⟩ := hinside _ (by rw [hrun]; rfl)
      obtain ⟨outcome, inclusions, hsettle, -⟩ := ending_settle reference value after
      rw [hrun] at hjournal
      rw [Expansion.runFrom_bind, hrun]
      dsimp only
      rw [hsettle]
      dsimp only
      rw [hjournal]
      refine ⟨.resolved reference.location (.ok outcome) :: (new ++
        [.opened reference.location (.ok text), .requested reference.location]), ?_, ?_⟩
      · simp [Context.enter]
      · exact hlog.visited (hheld text rfl) hrun (isSome_of_settle hsettle) hnew

theorem logs_resolve (bundle : Bundle)
    (hheld : ∀ location text, bundle.texts.lookup location = some text → held location text)
    (reference : Reference) : Logs property (resolve bundle reference) := by
  induction hsize : bundle.size using Nat.strongRecOn generalizing bundle reference with
  | ind size ih =>
    subst hsize
    rw [resolve]
    apply hlog.logs_includeOnce
    · intro text hread
      rw [← reference.ofPath_toPath]
      exact hheld _ _ (Bundle.lookup_of_read hread)
    · intro text hread inner
      refine ih _ (Bundle.size_without_lt hread) _ ?_ inner rfl
      exact fun location text hlookup => hheld location text (Bundle.lookup_of_without hlookup)

theorem logs_expand (bundle : Bundle)
    (hheld : ∀ location text, bundle.texts.lookup location = some text → held location text)
    (schema : Schema) (value : Value) : Logs property (expand (resolve bundle) schema value) :=
  @Walkable.expand _ _ (resolve bundle) schema schema hlog.logs_enterable.toWalkable
    (fun _ _ => hlog.logs_resolve bundle hheld _) value

theorem logs_expandRoot (bundle : Bundle)
    (hheld : ∀ location text, bundle.texts.lookup location = some text → held location text)
    (root : Value) : Logs property (expandRoot bundle root) := by
  apply hlog.logs_bind
  · exact hlog.logs_of_journal_eq fun _ => rfl
  · intro context
    apply hlog.logs_bind
    · apply hlog.logs_bind (hlog.logs_enterable.obtainSchema _)
      exact fun schema => hlog.logs_expand bundle hheld schema root
    · intro value
      apply hlog.logs_of_journal_eq
      intro context
      split <;> rfl

end Loggable

end Steps

end Routebook
