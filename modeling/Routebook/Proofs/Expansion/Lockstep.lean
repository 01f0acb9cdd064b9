import Routebook.Proofs.Expansion.Apart
import Routebook.Proofs.Expansion.Journal
import Routebook.Proofs.Expansion.Provider

/-!
# Runs in lockstep

Two runs start from related contexts.  They are in lockstep if they have the same
result and leave related contexts, whether they succeed or fail.

What a relation between contexts has to allow for is little: inclusions and journal
are the same on both sides and change alike, traits are defined alike, and a mapping
that uses traits comes out the same.  Mappings of which this is not known can be
excluded by a condition on what the first run adds to the journal.
-/

namespace Routebook

/-- Whether all that the journal has more in one context than in an earlier one
satisfies a condition. -/
def Context.Records (allowed : Event → Prop) (before after : Context) : Prop :=
  ∀ new, after.journal = new ++ before.journal → ∀ event ∈ new, allowed event

/-- Whether two steps are in lockstep from all related contexts, provided that the
first one adds nothing to the journal but what is allowed. -/
structure Lockstep (related : Context → Context → Prop) (allowed : Event → Prop) {α : Type}
    (step step' : Expansion α) : Prop where
  journal_suffix : ∀ context, context.journal <:+ (step.runFrom context).2.journal
  runs : ∀ {context context'}, related context context' →
    context.Records allowed (step.runFrom context).2 →
      (step.runFrom context).1 = (step'.runFrom context').1 ∧
        related (step.runFrom context).2 (step'.runFrom context').2

/-- What a relation between contexts has to allow for so that walks are in lockstep. -/
structure Tied (related : Context → Context → Prop) (allowed : Event → Prop) : Prop where
  inclusions_eq : ∀ {context context'}, related context context' →
    context.inclusions = context'.inclusions
  journal_eq : ∀ {context context'}, related context context' → context.journal = context'.journal
  change : ∀ {context context'}, related context context' → ∀ inclusions journal,
    related { context with inclusions, journal } { context' with inclusions, journal }
  insert : ∀ {context context'}, related context context' → ∀ name fragment,
    related { context with registry := context.registry.insert name fragment }
      { context' with registry := context'.registry.insert name fragment }
  apply_eq : ∀ {context context'}, related context context' → ∀ body, allowed (.used body) →
    Fragment.apply context.registry body = Fragment.apply context'.registry body

/-- A piece of a run records nothing that the whole run does not record. -/
theorem Context.Records.piece {allowed : Event → Prop} {before first after last : Context}
    (h : before.Records allowed last) (hfirst : before.journal <:+ first.journal)
    (hafter : after.journal <:+ last.journal) : first.Records allowed after := by
  intro new hnew event hevent
  obtain ⟨earlier, hearlier⟩ := hfirst
  obtain ⟨later, hlater⟩ := hafter
  refine h (later ++ (new ++ earlier)) ?_ event (by simp [hevent])
  rw [← hlater, hnew, ← hearlier]
  simp only [List.append_assoc]

/-- Whether a definition is accepted, and under which name, does not depend on what
has been defined. -/
theorem Registry.define_cases (body : Mapping) :
    (∃ name fragment, ∀ registry : Registry,
      registry.define body = .ok (name, registry.insert name fragment)) ∨
    ∃ fault, ∀ registry : Registry, registry.define body = .error fault := by
  cases hname : Mapping.get? body Keyword.traitName with
  | none => exact .inr ⟨_, fun registry => by rw [define, hname]⟩
  | some value =>
    cases value with
    | string name => exact .inl ⟨name, _, fun registry => by rw [define, hname]⟩
    | _ => exact .inr ⟨_, fun registry => by rw [define, hname]⟩

/-- The journal only grows where a file is included, if it does so inside the file. -/
theorem journal_suffix_includeOnce {reference : Reference} {contents : Except ReadFault String}
    {inside : ∀ text, contents = .ok text → Expansion (Option Value)}
    (hinside : ∀ text found context,
      context.journal <:+ ((inside text found >>= settle reference).runFrom context).2.journal)
    (context : Context) :
    context.journal <:+ ((includeOnce reference contents inside).runFrom context).2.journal := by
  cases hprogress : context.inclusions.progress? reference.location with
  | some progress =>
    rw [runFrom_includeOnce_of_known hprogress]
    exact ⟨[_, _], rfl⟩
  | none =>
    cases contents with
    | error fault =>
      rw [runFrom_includeOnce_of_unread hprogress rfl]
      exact ⟨[_, _, _], rfl⟩
    | ok text =>
      rw [runFrom_includeOnce_of_read hprogress rfl]
      have hentered : context.journal <:+
          (context.enter reference.location (.ok text)).journal := ⟨[_, _], rfl⟩
      exact (hentered.trans (hinside text rfl _)).trans (List.suffix_cons _ _)

namespace Tied

variable {related : Context → Context → Prop} {allowed : Event → Prop} {α β : Type}
  {context context' : Context} (h : Tied related allowed)

include h

/-- Both contexts change in the same way. -/
theorem change_eq (hrelated : related context context') {inclusions inclusions' : Inclusions}
    {journal journal' : List Event} (hinclusions : inclusions = inclusions')
    (hjournal : journal = journal') :
    related { context with inclusions, journal }
      { context' with inclusions := inclusions', journal := journal' } := by
  subst hinclusions hjournal
  exact h.change hrelated inclusions journal

omit h in
theorem lockstep_ofExcept (result : Except Error α) :
    Lockstep related allowed (Expansion.ofExcept result) (Expansion.ofExcept result) where
  journal_suffix _ := List.suffix_refl _
  runs hrelated _ := ⟨rfl, hrelated⟩

omit h in
theorem lockstep_bind {step step' : Expansion α} {next next' : α → Expansion β}
    (hstep : Lockstep related allowed step step')
    (hnext : ∀ result, Lockstep related allowed (next result) (next' result)) :
    Lockstep related allowed (step >>= next) (step' >>= next') where
  journal_suffix context := by
    have hfirst := hstep.journal_suffix context
    rw [Expansion.runFrom_bind]
    rcases hrun : step.runFrom context with ⟨outcome, after⟩
    rw [hrun] at hfirst
    cases outcome with
    | error error => exact hfirst
    | ok result => exact hfirst.trans ((hnext result).journal_suffix after)
  runs {context context'} hrelated hrecords := by
    have hfirst := hstep.journal_suffix context
    have hruns := hstep.runs hrelated
    rw [Expansion.runFrom_bind] at hrecords
    rw [Expansion.runFrom_bind, Expansion.runFrom_bind]
    rcases hrun : step.runFrom context with ⟨outcome, after⟩
    rcases hrun' : step'.runFrom context' with ⟨outcome', after'⟩
    rw [hrun] at hfirst hrecords
    rw [hrun, hrun'] at hruns
    cases outcome with
    | error error =>
      obtain ⟨hsame, hafter⟩ := hruns hrecords
      obtain rfl : .error error = outcome' := hsame
      exact ⟨rfl, hafter⟩
    | ok result =>
      have hlast := (hnext result).journal_suffix after
      obtain ⟨hsame, hafter⟩ := hruns (hrecords.piece (List.suffix_refl _) hlast)
      obtain rfl : .ok result = outcome' := hsame
      exact (hnext result).runs hafter (hrecords.piece hfirst (List.suffix_refl _))

theorem lockstep_define (body : Mapping) :
    Lockstep related allowed (Expansion.define body) (Expansion.define body) where
  journal_suffix context := by
    rw [Expansion.runFrom_define]
    split
    all_goals exact List.suffix_refl _
  runs {context context'} hrelated _ := by
    rw [Expansion.runFrom_define, Expansion.runFrom_define]
    obtain ⟨name, fragment, hdefine⟩ | ⟨fault, hdefine⟩ := Registry.define_cases body
    · rw [hdefine, hdefine]
      exact ⟨rfl, h.insert hrelated name fragment⟩
    · rw [hdefine, hdefine]
      exact ⟨rfl, hrelated⟩

theorem lockstep_applyTraits (body : Mapping) :
    Lockstep related allowed (Expansion.applyTraits body) (Expansion.applyTraits body) where
  journal_suffix context := by
    rw [Expansion.runFrom_applyTraits]
    exact List.suffix_cons _ _
  runs {context context'} hrelated hrecords := by
    rw [Expansion.runFrom_applyTraits] at hrecords
    rw [Expansion.runFrom_applyTraits, Expansion.runFrom_applyTraits]
    have hused : allowed (.used body) := hrecords [.used body] rfl _ List.mem_cons_self
    refine ⟨h.apply_eq hrelated body hused, ?_⟩
    exact h.change_eq hrelated (h.inclusions_eq hrelated) (by rw [h.journal_eq hrelated])

theorem walkable : Walkable (Lockstep related allowed) where
  ofExcept := lockstep_ofExcept
  bind := lockstep_bind
  define := h.lockstep_define
  applyTraits := h.lockstep_applyTraits

/-! ## References -/

section References

variable {reference reference' : Reference} (hsame : reference.SameFile reference')

include hsame

theorem lockstep_settle (value : Option Value) :
    Lockstep related allowed (settle reference value) (settle reference' value) where
  journal_suffix context := by
    obtain ⟨outcome, inclusions, hrun, -⟩ := ending_settle reference value context
    have hjournal : ((settle reference value).runFrom context).2.journal = context.journal := by
      rw [hrun]
    exact hjournal.symm ▸ List.suffix_refl _
  runs {context context'} hrelated _ := by
    have hinclusions := h.inclusions_eq hrelated
    have hjournal := h.journal_eq hrelated
    cases value with
    | none => exact ⟨rfl, h.change_eq hrelated (by rw [hinclusions, hsame.location]) hjournal⟩
    | some value =>
      by_cases hreusable : isReusable value
      · rw [runFrom_settle_of_reusable reference hreusable,
          runFrom_settle_of_reusable reference' hreusable]
        exact ⟨rfl, h.change_eq hrelated (by rw [hinclusions, hsame.location]) hjournal⟩
      · rw [runFrom_settle_of_once reference hreusable, runFrom_settle_of_once reference' hreusable,
          hsame.pathless]
        exact ⟨rfl, h.change_eq hrelated (by rw [hinclusions, hsame.location]) hjournal⟩

/-- Files are entered in related contexts. -/
theorem enter (hrelated : related context context') (contents : Except ReadFault String) :
    related (context.enter reference.location contents)
      (context'.enter reference'.location contents) := by
  have hlocation := hsame.location
  apply h.change_eq hrelated
  · rw [h.inclusions_eq hrelated, hlocation]
  · rw [h.journal_eq hrelated, hlocation]

/-- Files are included in lockstep if what is inside them is expanded in lockstep. -/
theorem lockstep_includeOnce {contents : Except ReadFault String}
    {inside inside' : ∀ text, contents = .ok text → Expansion (Option Value)}
    (hinside : ∀ text found, Lockstep related allowed (inside text found) (inside' text found)) :
    Lockstep related allowed (includeOnce reference contents inside)
      (includeOnce reference' contents inside') := by
  have hsettled : ∀ text found, Lockstep related allowed (inside text found >>= settle reference)
      (inside' text found >>= settle reference') :=
    fun text found => lockstep_bind (hinside text found) (h.lockstep_settle hsame)
  constructor
  · exact journal_suffix_includeOnce fun text found => (hsettled text found).journal_suffix
  · intro context context' hrelated hrecords
    have hlocation := hsame.location
    have hinclusions := h.inclusions_eq hrelated
    have hprogress' : context'.inclusions.progress? reference'.location =
        context.inclusions.progress? reference.location := by
      rw [hinclusions, hlocation]
    cases hprogress : context.inclusions.progress? reference.location with
    | some progress =>
      rw [hprogress] at hprogress'
      rw [runFrom_includeOnce_of_known hprogress, runFrom_includeOnce_of_known hprogress']
      exact ⟨rfl, h.change_eq hrelated hinclusions (by rw [hlocation, h.journal_eq hrelated])⟩
    | none =>
      rw [hprogress] at hprogress'
      have hentered := h.enter hsame hrelated contents
      cases contents with
      | error fault =>
        rw [runFrom_includeOnce_of_unread hprogress rfl,
          runFrom_includeOnce_of_unread hprogress' rfl]
        refine ⟨rfl, h.change_eq hentered (h.inclusions_eq hentered) ?_⟩
        rw [h.journal_eq hentered, hlocation]
      | ok text =>
        rw [runFrom_includeOnce_of_read hprogress rfl] at hrecords
        rw [runFrom_includeOnce_of_read hprogress rfl, runFrom_includeOnce_of_read hprogress' rfl]
        obtain ⟨hresult, hafter⟩ := (hsettled text rfl).runs hentered
          (hrecords.piece ⟨[_, _], rfl⟩ (List.suffix_cons _ _))
        refine ⟨hresult, h.change_eq hafter (h.inclusions_eq hafter) ?_⟩
        rw [h.journal_eq hafter, hresult, hlocation]

end References

/-- References to the same file are resolved in lockstep if, whatever way they come by
schemas, texts are expanded in lockstep by resolvers that are. -/
theorem lockstep_resolveWith {provider provider' : Provider}
    (htext : ∀ {resolver resolver' : Resolver},
      (∀ reference reference', reference.SameFile reference' →
        Lockstep related allowed (resolver reference) (resolver' reference')) →
      ∀ location text, Lockstep related allowed (expandTextWith provider resolver location text)
        (expandTextWith provider' resolver' location text))
    (bundle : Bundle) {reference reference' : Reference} (hsame : reference.SameFile reference') :
    Lockstep related allowed (resolveWith provider bundle reference)
      (resolveWith provider' bundle reference') := by
  induction hsize : bundle.size using Nat.strongRecOn
    generalizing bundle reference reference' with
  | ind size ih =>
    subst hsize
    rw [resolveWith, resolveWith, ← hsame.location]
    apply h.lockstep_includeOnce hsame
    intro text hread
    apply htext
    intro inner inner' hinner
    exact ih _ (Bundle.size_without_lt hread) _ hinner rfl

end Tied

end Routebook
