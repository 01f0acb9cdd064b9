import Mathlib.Data.List.Nodup
import Routebook.Proofs.Compile.Names
import Routebook.Proofs.Expansion.Bookkeeping
import Routebook.Proofs.Expansion.History
import Routebook.Proofs.Expansion.Log
import Routebook.Proofs.Yaml.SingleEntry

/-!
# References back to the root file

A source file is loaded before the expansion starts, and nothing is remembered about
it.  So the first reference that leads back to it includes it once more, like any
other file; what is cut off are references from inside this second copy and those
that follow.

References to the root file come to nothing throughout only if there are none, as
far as the expansion succeeds and the root is not itself a tag.
-/

namespace Routebook

open Outcome

/-! ## Files are opened once -/

/-- A course opens each file that becomes known, and each of them once. -/
theorem Course.exists_openings {held : List Location} {ok : Bool} {first last : Stage}
    (h : Course held ok first last) :
    ∃ new, openings last.journal = openings first.journal ++ new ∧ new.Nodup ∧
      ∀ location, location ∈ new ↔ first.inclusions.progress? location = none ∧
        last.inclusions.progress? location ≠ none := by
  induction h with
  | stay | used | recalled =>
    refine ⟨[], by simp [Stage.note, Stage.leave], List.nodup_nil, fun location => ?_⟩
    simp only [List.not_mem_nil, false_iff, not_and, not_not]
    exact id
  | @andThen _ _ first middle last hfirst hsecond ihfirst ihsecond =>
    obtain ⟨new, hopened, hnodup, hnew⟩ := ihfirst
    obtain ⟨new', hopened', hnodup', hnew'⟩ := ihsecond
    refine ⟨new ++ new', by rw [hopened', hopened, List.append_assoc], ?_, fun location => ?_⟩
    · rw [List.nodup_append]
      refine ⟨hnodup, hnodup', ?_⟩
      rintro location hmem _ hmem' rfl
      exact ((hnew location).1 hmem).2 ((hnew' location).1 hmem').1
    · rw [List.mem_append, hnew, hnew']
      by_cases hmiddle : middle.inclusions.progress? location = none
      · simp [hmiddle, hfirst.progress?_eq_none hmiddle]
      · have hlast : last.inclusions.progress? location ≠ none :=
          fun hlast => hmiddle (hsecond.progress?_eq_none hlast)
        simp [hmiddle, hlast]
  | @unreadable stage opened hnew =>
    refine ⟨[opened], by simp [Stage.enter, Stage.leave], by simp, fun location => ?_⟩
    rw [List.mem_singleton, Stage.leave]
    by_cases hother : location = opened
    · subst hother
      simp [hnew, Inclusions.progress?_start hnew]
    · simp only [hother, false_iff, not_and, not_not]
      exact fun hunknown =>
        (Inclusions.agreeAt_start hother stage.inclusions).progress?_eq ▸ hunknown
  | @visited _ stage middle opened _ outcome inclusions hnew _ hinner hending ih =>
    obtain ⟨new, hopened, hnodup, hmem⟩ := ih
    have hentered : (stage.inclusions.start opened).progress? opened ≠ none := by
      simp [Inclusions.progress?_start hnew]
    refine ⟨opened :: new, ?_, ?_, fun location => ?_⟩
    · rw [Stage.leave, openings_resolved, hopened]
      simp [Stage.enter]
    · rw [List.nodup_cons]
      exact ⟨fun hopened => hentered ((hmem opened).1 hopened).1, hnodup⟩
    · rw [List.mem_cons, Stage.leave]
      by_cases hother : location = opened
      · subst hother
        obtain ⟨hunderway, hnone⟩ := hinner.underway hnew
        obtain ⟨progress, hprogress, -⟩ := hending.concludes hunderway hnone
        simp [hnew, hprogress]
      · have hstart := (Inclusions.agreeAt_start hother stage.inclusions).progress?_eq
        rw [hmem, Stage.enter, ← hstart, (hending.agreeAt hother).progress?_eq]
        simp [hother]

/-! ## What comes of the files that are opened -/

/-- Whether what has been opened is a text of a bundle, and has come to something
unless its root is a tag. -/
def Delivers (bundle : Bundle) (events : List Event) (location : Location)
    (contents : Except ReadFault String) : Prop :=
  ∃ text, contents = .ok text ∧ bundle.texts.lookup location = some text ∧
    ∀ root, Yaml.read text = .ok root → (∀ tag operand, root ≠ .tagged tag operand) →
      ∃ value, .resolved location (.ok (some value)) ∈ events

/-- Whether all files that have been opened are texts of a bundle and have come to
something. -/
def Delivered (bundle : Bundle) (events : List Event) : Prop :=
  ∀ location contents, .opened location contents ∈ events →
    Delivers bundle events location contents

theorem Delivers.mono {bundle : Bundle} {events events' : List Event} {location : Location}
    {contents : Except ReadFault String} (h : Delivers bundle events location contents)
    (hsub : events ⊆ events') : Delivers bundle events' location contents := by
  obtain ⟨text, hcontents, hlookup, hvalue⟩ := h
  refine ⟨text, hcontents, hlookup, fun root hread hroot => ?_⟩
  obtain ⟨value, hmem⟩ := hvalue root hread hroot
  exact ⟨value, hsub hmem⟩

theorem isSome_of_expand {resolver : Resolver} {schema : Schema} {root : Value}
    {value : Option Value} {context after : Context}
    (hrun : (expand resolver schema root).runFrom context = (.ok value, after))
    (hroot : ∀ tag operand, root ≠ .tagged tag operand) : value.isSome := by
  cases root with
  | tagged tag operand => exact absurd rfl (hroot tag operand)
  | mapping entries =>
    rw [expand] at hrun
    obtain ⟨result, middle, -, hrun⟩ := Expansion.runFrom_bind_eq_ok hrun
    cases hrun
    rfl
  | sequence items =>
    rw [expand] at hrun
    obtain ⟨result, middle, -, hrun⟩ := Expansion.runFrom_bind_eq_ok hrun
    cases hrun
    rfl
  | _ =>
    simp only [expand] at hrun
    cases hrun
    rfl

theorem loggable_delivered (bundle : Bundle) :
    Loggable (fun location text => bundle.texts.lookup location = some text)
      (Delivered bundle) where
  nil := by simp [Delivered]
  append h h' := by
    intro location contents hopened
    rcases List.mem_append.1 hopened with hopened | hopened
    · exact (h' location contents hopened).mono (List.subset_append_left _ _)
    · exact (h location contents hopened).mono (List.subset_append_right _ _)
  used := by simp [Delivered]
  recalled := by simp [Delivered]
  visited := by
    intro _ location text context after value outcome new hheld hrun hsome hnew other contents
      hopened
    rcases mem_opened_visited.1 hopened with hopened | ⟨rfl, rfl⟩
    · apply (hnew other contents hopened).mono
      exact fun event hevent => List.mem_cons_of_mem _ (List.mem_append_left _ hevent)
    · refine ⟨text, rfl, hheld, fun root hread hroot => ?_⟩
      rw [runFrom_expandText_of_read hread] at hrun
      obtain ⟨content, rfl⟩ := Option.isSome_iff_exists.1 (hsome (isSome_of_expand hrun hroot))
      exact ⟨content, List.mem_cons_self⟩

/-! ## References to the root file -/

/-- The first reference to a file makes it known and decides about those to follow. -/
theorem Story.nil_or_exists_first {after : Option Progress} {told : List Resolution}
    (h : Story none after told) :
    told = [] ∨ after ≠ none ∧ ∃ first ∈ told, ∀ other ∈ told,
      other = first ∨ first.began < other.began ∧
        other.outcome = .ok (if other.began < first.ended then none
          else after.bind Progress.value?) := by
  cases after with
  | none =>
    cases h with
    | unknown => exact .inl rfl
  | some progress =>
    obtain ⟨first, hfirst, -, hothers⟩ := h.exists_first
    exact .inr ⟨by simp, first, hfirst, hothers⟩

theorem mem_openings {location : Location} {journal : List Event} :
    location ∈ openings journal ↔ ∃ contents, .opened location contents ∈ journal := by
  rw [openings, List.mem_reverse, List.mem_filterMap]
  constructor
  · rintro ⟨event, hevent, hopened⟩
    cases event with
    | opened other contents =>
      cases hopened
      exact ⟨contents, hevent⟩
    | _ => cases hopened
  · rintro ⟨contents, hopened⟩
    exact ⟨_, hopened, rfl⟩

theorem exists_resolution {location : Location} {outcome : Except Error (Option Value)}
    {journal : List Event} (h : .resolved location outcome ∈ journal) :
    ∃ resolution ∈ resolutionsOf location journal, resolution.outcome = outcome := by
  simp only [resolutionsOf, List.mem_filter, decide_eq_true_eq]
  induction journal with
  | nil => cases h
  | cons event earlier ih =>
    rcases List.mem_cons.1 h with rfl | h
    · exact ⟨_, ⟨List.mem_cons_self, rfl⟩, rfl⟩
    · obtain ⟨resolution, ⟨hmem, hlocation⟩, houtcome⟩ := ih h
      refine ⟨resolution, ⟨?_, hlocation⟩, houtcome⟩
      cases event with
      | resolved => exact List.mem_cons_of_mem _ hmem
      | _ => exact hmem

theorem load_file_eq_ok {bundle : Bundle} {path : Path} {root : Value} {directory : Option Path}
    (h : (Source.file path).load bundle = .ok (root, directory)) :
    ∃ text, bundle.read path = .ok text ∧ Yaml.read text = .ok root := by
  rw [Source.load, bind_eq_ok] at h
  obtain ⟨text, hread, h⟩ := h
  obtain ⟨value, hvalue, h⟩ := bind_eq_ok.1 h
  cases h
  exact ⟨text, mapError_eq_ok.1 hread, mapError_eq_ok.1 hvalue⟩

/-- Starting with nothing, a course opens the files that are known in the end. -/
theorem Course.nodup_openings {held : List Location} {ok : Bool} {last : Stage}
    (h : Course held ok ⟨{}, []⟩ last) :
    (openings last.journal).Nodup ∧ ∀ location,
      location ∈ openings last.journal ↔ last.inclusions.progress? location ≠ none := by
  obtain ⟨new, hopened, hnodup, hnew⟩ := h.exists_openings
  have hall : openings last.journal = new := hopened
  rw [hall]
  refine ⟨hnodup, fun location => ?_⟩
  rw [hnew]
  exact and_iff_right rfl

section Expansions

variable {bundle : Bundle} {root : Value} {options : Options} {directory : Option Path}
  {result : Except Error Mapping} {after : Context}

theorem course_expandRoot
    (hrun : (expandRoot bundle root).runFrom (options.start directory) = (result, after)) :
    Course bundle.locations result.isOk ⟨{}, []⟩ after.stage := by
  have hcourse := traces_expandRoot bundle root (options.start directory)
  rwa [hrun] at hcourse

theorem delivered_of_expandRoot
    (hrun : (expandRoot bundle root).runFrom (options.start directory) = (result, after))
    (hok : result.isOk) : Delivered bundle after.journal := by
  obtain ⟨new, hjournal, hnew⟩ := (loggable_delivered bundle).logs_expandRoot bundle
    (fun _ _ hlookup => hlookup) root (options.start directory) (by rwa [hrun])
  rw [hrun] at hjournal
  have hall : after.journal = new ++ [] := hjournal
  rwa [hall, List.append_nil]

/-- A value has come of a file that is known after an expansion with success, unless
the root of the file is a tag. -/
theorem exists_value_of_known {location : Location} {text : String} {content : Value}
    (hrun : (expandRoot bundle root).runFrom (options.start directory) = (result, after))
    (hok : result.isOk) (hknown : after.inclusions.progress? location ≠ none)
    (hlookup : bundle.texts.lookup location = some text) (hread : Yaml.read text = .ok content)
    (hcontent : ∀ tag operand, content ≠ .tagged tag operand) :
    ∃ resolution ∈ resolutionsOf location after.journal,
      ∃ value, resolution.outcome = .ok (some value) := by
  have hopened := ((course_expandRoot hrun).nodup_openings.2 location).2 hknown
  obtain ⟨contents, hopened⟩ := mem_openings.1 hopened
  obtain ⟨other, -, hother, hvalue⟩ := delivered_of_expandRoot hrun hok location contents hopened
  obtain rfl : text = other := Option.some.inj (hlookup.symm.trans hother)
  obtain ⟨value, hresolved⟩ := hvalue content hread hcontent
  obtain ⟨resolution, hmem, houtcome⟩ := exists_resolution hresolved
  exact ⟨resolution, hmem, value, houtcome⟩

end Expansions

/-- What the references to a source file come to in its own expansion.  The first one
includes the file once more, and nothing comes of those that are met meanwhile; later
ones come to nothing or to the value that is kept. -/
theorem expandRoot_references {bundle : Bundle} {path : Path} {root : Value}
    {directory : Option Path} (hload : (Source.file path).load bundle = .ok (root, directory))
    (options : Options) :
    let (result, after) := (expandRoot bundle root).runFrom (options.start directory)
    let told := resolutionsOf (.ofPath path) after.journal
    (openings after.journal).count (.ofPath path) ≤ 1 ∧
    (told = [] ∨ ∃ first ∈ told, ∀ other ∈ told, other = first ∨ first.began < other.began ∧
      other.outcome = .ok (if other.began < first.ended then none
        else after.inclusions.value? (.ofPath path))) ∧
    (result.isOk → (∀ tag operand, root ≠ .tagged tag operand) →
      ((∀ other ∈ told, other.outcome = .ok none) ↔ told = [])) := by
  obtain ⟨text, hread, hroot⟩ := load_file_eq_ok hload
  rcases hrun : (expandRoot bundle root).runFrom (options.start directory) with ⟨result, after⟩
  have hcourse := course_expandRoot hrun
  have hcases := (hcourse.story (.ofPath path)).nil_or_exists_first
  dsimp only
  refine ⟨List.nodup_iff_count_le_one.1 hcourse.nodup_openings.1 _, ?_, fun hok hplain => ?_⟩
  · rw [Inclusions.value?_eq_bind_progress?]
    exact hcases.imp_right And.right
  · constructor
    · intro hnothing
      by_contra htold
      obtain ⟨hknown, -⟩ := hcases.resolve_left htold
      obtain ⟨resolution, hmem, value, hvalue⟩ :=
        exists_value_of_known hrun hok hknown (Bundle.lookup_of_read hread) hroot hplain
      cases hvalue.symm.trans (hnothing resolution hmem)
    · intro htold
      rw [htold]
      exact List.forall_mem_nil _

/-! ## A file that refers to itself -/

def selfPath : Path :=
  ⟨"root.yaml"⟩

def selfText : String :=
  "self: !include root.yaml"

def selfBundle : Bundle :=
  .ofFiles [(selfPath, selfText)]

def selfTokens : List Yaml.Token :=
  [.blockMappingStart, .key, .scalar "self" true, .value,
    .tag "!" [105, 110, 99, 108, 117, 100, 101], .scalar "root.yaml" true, .blockEnd, .streamEnd]

def selfNode : Yaml.Node :=
  .mapping {} [(.scalar {} "self" true,
    .scalar { tag := some [33, 105, 110, 99, 108, 117, 100, 101] } "root.yaml" true)]

def selfRoot : Value :=
  .mapping [(.string "self", .tagged ⟨"include"⟩ (.string "root.yaml"))]

def selfReference : Reference :=
  ⟨some ⟨""⟩, "root.yaml", true⟩

/-- What the file is when it is included: without the entry that refers to it. -/
def selfStamped : Value :=
  .mapping [(.string Keyword.virtualField, .bool true), (.string Keyword.noPathField, .bool true)]

def selfEntries : Mapping :=
  [(.string "self", selfStamped)]

def selfJournal : List Event :=
  [.resolved selfReference.location (.ok (some selfStamped)),
    .resolved selfReference.location (.ok none), .requested selfReference.location,
    .opened selfReference.location (.ok selfText), .requested selfReference.location]

theorem tokens_selfText : Yaml.tokens selfText = selfTokens := by
  decide +kernel

theorem ofTokens_selfTokens :
    Yaml.FirstDocument.ofTokens selfTokens = .ok ⟨some selfNode, false⟩ :=
  Yaml.ofTokens_entry "self" rfl
    (Yaml.readNode_tag (Yaml.expandTag_own _) ⟨true, true⟩ "root.yaml" true _)

theorem mergeKeys_selfRoot : Yaml.mergeKeys selfRoot = .ok selfRoot :=
  Yaml.mergeKeys_entry (by decide) (by simp [Yaml.mergeKeys])

theorem read_selfText : Yaml.read selfText = .ok selfRoot :=
  Yaml.read_of_tokens tokens_selfText ofTokens_selfTokens rfl rfl mergeKeys_selfRoot

theorem read_selfBundle :
    selfBundle.read selfReference.location.toPath = .ok selfText :=
  rfl

theorem load_self : (Source.file selfPath).load selfBundle = .ok (selfRoot, some ⟨""⟩) := by
  have hfile : (selfBundle.read selfPath).mapError Error.unreadable = .ok selfText := rfl
  have hparent : selfPath.parent? = some ⟨""⟩ := rfl
  have hroot : (Yaml.read selfText).mapError Error.text = .ok selfRoot :=
    mapError_eq_ok.2 read_selfText
  rw [Source.load, hparent]
  exact bind_eq_ok.2 ⟨selfText, hfile, bind_eq_ok.2 ⟨selfRoot, hroot, rfl⟩⟩

theorem runFrom_expand_self {value : Option Value} {context after : Context}
    (h : (resolve selfBundle selfReference).runFrom context = (.ok value, after)) :
    (expand (resolve selfBundle) ⟨some ⟨""⟩⟩ selfRoot).runFrom context =
      (.ok (some (.mapping (value.map (Value.string "self", ·)).toList)), after) := by
  have hcommand : Schema.command? ⟨some ⟨""⟩⟩ (Tag.bareName ⟨"include"⟩) = some .includeFile := by
    decide
  rw [selfReference] at h
  simp only [selfRoot, expand, expandEntries, hcommand, Expansion.runFrom_bind,
    Expansion.runFrom_pure, Option.getD_some, Command.accepts, OperandKind.accept, Command.run, h]
  cases value <;> rfl

/-- The context in which the root has been entered. -/
def selfContext : Context :=
  { configDir := some ⟨""⟩, schemas := ⟨[⟨some ⟨""⟩⟩]⟩ }

theorem obtain_selfSchemas :
    selfContext.schemas.obtain (some ⟨""⟩) = (⟨some ⟨""⟩⟩, selfContext.schemas) :=
  rfl

/-- The first reference takes the file in, without the entry that refers to it. -/
theorem runFrom_resolve_self :
    ∃ after, (resolve selfBundle selfReference).runFrom selfContext =
      (.ok (some selfStamped), after) ∧ after.journal = selfJournal := by
  let inside : Context := selfContext.enter selfReference.location (.ok selfText)
  have hnew : selfContext.inclusions.progress? selfReference.location = none := rfl
  have hknown : inside.inclusions.progress? selfReference.location = some .underway := rfl
  have hinner := runFrom_resolve selfBundle selfReference inside
  rw [resolveOnce, runFrom_includeOnce_of_known hknown] at hinner
  have hparent : selfReference.location.toPath.parent? = some ⟨""⟩ := rfl
  have hobtain : inside.schemas.obtain (some ⟨""⟩) = (⟨some ⟨""⟩⟩, inside.schemas) :=
    obtain_selfSchemas
  have htext := runFrom_expandText_of_read read_selfText (resolve selfBundle)
    selfReference.location inside
  rw [hparent, hobtain] at htext
  have hexpand := htext.trans (runFrom_expand_self hinner)
  rw [runFrom_resolve, resolveOnce, runFrom_includeOnce_of_read hnew read_selfBundle,
    read_selfBundle, Expansion.runFrom_bind, hexpand]
  exact ⟨_, rfl, rfl⟩

theorem runFrom_expandRoot_self :
    ∃ after, (expandRoot selfBundle selfRoot).runFrom (Options.start {} (some ⟨""⟩)) =
      (.ok selfEntries, after) ∧ after.journal = selfJournal := by
  obtain ⟨after, hresolve, hjournal⟩ := runFrom_resolve_self
  exact ⟨after, runFrom_expandRoot_eq_ok.2 ⟨_, runFrom_expand_self hresolve, .inl rfl⟩, hjournal⟩

/-- A value comes of one of the references from the file to itself, and nothing of the
other one. -/
theorem expandRoot_references_self :
    ∃ after, (Source.file selfPath).load selfBundle = .ok (selfRoot, some ⟨""⟩) ∧
      (expandRoot selfBundle selfRoot).runFrom (Options.start {} (some ⟨""⟩)) =
        (.ok selfEntries, after) ∧
      (openings after.journal).count (.ofPath selfPath) ≤ 1 ∧
      ¬ ∀ other ∈ resolutionsOf (.ofPath selfPath) after.journal, other.outcome = .ok none := by
  obtain ⟨after, hrun, hjournal⟩ := runFrom_expandRoot_self
  have hreferences := expandRoot_references load_self {}
  rw [hrun] at hreferences
  obtain ⟨hopened, -, hnothing⟩ := hreferences
  refine ⟨after, load_self, hrun, hopened, ?_⟩
  rw [hnothing rfl (fun _ _ => by rintro ⟨⟩), hjournal]
  have hlocation : selfReference.location = .ofPath selfPath := by decide
  simp [selfJournal, resolutionsOf, resolutions, hlocation]

/-- The file that includes itself gets a route of its own making: what comes of a
reference back to the root file is not nothing. -/
theorem Document.repeated_compile_self :
    ∃ document, compile (.file selfPath) {} selfBundle = .ok document ∧
      document.routes.map Route.name = ["self"] ∧
      ∃ resolution ∈ resolutionsOf (.ofPath selfPath) document.context.journal,
        resolution.outcome ≠ .ok none := by
  obtain ⟨after, hrun, hjournal⟩ := runFrom_expandRoot_self
  have hbuild : ∃ document, build selfEntries after = .ok document ∧
      document.routes.map Route.name = ["self"] ∧ document.context = after :=
    ⟨_, rfl, rfl, rfl⟩
  obtain ⟨document, hdocument, hroutes, hcontext⟩ := hbuild
  refine ⟨document, compile_eq_ok.2 ⟨_, _, _, after, load_self, hrun, hdocument⟩, hroutes, ?_⟩
  rw [hcontext, hjournal]
  have hlocation : selfReference.location = .ofPath selfPath := by decide
  refine ⟨⟨.ofPath selfPath, 0, 4, .ok (some selfStamped)⟩, ?_, by simp⟩
  simp [selfJournal, resolutionsOf, resolutions, pending, hlocation]

end Routebook
