import Routebook.Proofs.Route.Places

/-!
# Tests are examples with flags

Tests and examples are built apart, each from the fields of its own kind.  They read the
fields that they share alike, so that a value from which a test is built is an example as
well, the one in the test.  The converse holds if the flags of the test can be read: what
an example ignores must not be a fault in a test.
-/

namespace Routebook

open Outcome

namespace Fields

theorem ofValue_eq_ok {kind : EntityKind} {shorthand : String} {scope : Scope} {value : Value}
    {fields : Fields} : ofValue kind shorthand scope value = .ok fields ↔
      ∃ entries, value.asFields? shorthand = some entries ∧ ⟨kind, scope, entries⟩ = fields := by
  rw [ofValue]
  cases value.asFields? shorthand <;> simp

/-- Whether what stands in a field, if anything does, can be a flag. -/
def IsFlag : Option Value → Prop
  | none => True
  | some value => value.isNull ∨ ∃ flag, value = .bool flag

theorem exists_flag_iff (fields : Fields) (name : String) :
    (∃ flag, fields.flag name = .ok flag) ↔ IsFlag (fields.raw? name) := by
  constructor
  · rintro ⟨flag, hflag⟩
    rw [Fields.flag, readWith, value?] at hflag
    cases hraw : fields.raw? name with
    | none => trivial
    | some value =>
      by_cases hnull : value.isNull
      · exact .inl hnull
      · rw [hraw, Option.filter_some_pos (by simpa using hnull)] at hflag
        cases value with
        | bool flag => exact .inr ⟨flag, rfl⟩
        | _ => cases hflag
  · intro h
    cases hraw : fields.raw? name with
    | none => exact ⟨false, flag_eq_false hraw⟩
    | some value =>
      rw [hraw] at h
      obtain hnull | ⟨flag, rfl⟩ := h
      · refine ⟨false, ?_⟩
        rw [Fields.flag, readWith, value?, hraw, Option.filter_some_neg (by simpa using hnull)]
        rfl
      · exact ⟨flag, flag_eq_of_bool hraw⟩

end Fields

/-! ## What tests and examples are read from -/

/-- What an example is read from. -/
structure Example.ReadFrom (fields : Fields) (item : Example) : Prop where
  title : fields.text? "title" = .ok item.title
  description : fields.text? "description" = .ok item.description
  request : fields.entity? "request" Request.build = .ok item.request
  response : fields.entity? "response" Response.build = .ok item.response

/-- An example is read from the entries alone. -/
theorem Example.ReadFrom.of_entries_eq {fields fields' : Fields} {item : Example}
    (h : item.ReadFrom fields) (hentries : fields.entries = fields'.entries) :
    item.ReadFrom fields' where
  title := (Fields.sameResult_text? hentries "title" _).1 h.title
  description := (Fields.sameResult_text? hentries "description" _).1 h.description
  request := (Fields.sameResult_entity? unlocated_request hentries "request" _).1 h.request
  response := (Fields.sameResult_entity? unlocated_response hentries "response" _).1 h.response

theorem Example.build_eq_ok {scope : Scope} {value : Value} {item : Example} :
    build scope value = .ok item ↔
      ∃ entries, value.asFields? "title" = some entries ∧
        item.ReadFrom ⟨.example, scope, entries⟩ := by
  simp only [build, bind_eq_ok, pure_eq_ok, Fields.ofValue_eq_ok]
  constructor
  · rintro ⟨_, ⟨entries, hentries, rfl⟩, title, htitle, description, hdescription, request,
      hrequest, response, hresponse, rfl⟩
    exact ⟨entries, hentries, htitle, hdescription, hrequest, hresponse⟩
  · rintro ⟨entries, hentries, h⟩
    exact ⟨_, ⟨entries, hentries, rfl⟩, _, h.title, _, h.description, _, h.request, _,
      h.response, rfl⟩

/-- What a test has beyond its example, and what that is read from. -/
structure Test.ChecksFrom (fields : Fields) (test : Test) : Prop where
  validateRequest : fields.flag "validateRequest" = .ok test.validateRequest
  validateResponse : fields.flag "validateResponse" = .ok test.validateResponse
  validateSchema : fields.flag "validateSchema" = .ok test.validateSchema
  auth : fields.value? "auth" = test.auth

theorem Test.build_eq_ok {scope : Scope} {value : Value} {test : Test} :
    build scope value = .ok test ↔
      ∃ entries, value.asFields? "title" = some entries ∧
        test.toExample.ReadFrom ⟨.test, scope, entries⟩ ∧
        test.ChecksFrom ⟨.test, scope, entries⟩ := by
  simp only [build, bind_eq_ok, pure_eq_ok, Fields.ofValue_eq_ok]
  constructor
  · rintro ⟨_, ⟨entries, hentries, rfl⟩, title, htitle, description, hdescription, request,
      hrequest, response, hresponse, validateRequest, hvalidateRequest, validateResponse,
      hvalidateResponse, validateSchema, hvalidateSchema, rfl⟩
    exact ⟨entries, hentries, ⟨htitle, hdescription, hrequest, hresponse⟩,
      ⟨hvalidateRequest, hvalidateResponse, hvalidateSchema, rfl⟩⟩
  · rintro ⟨entries, hentries, h, hchecks⟩
    refine ⟨_, ⟨entries, hentries, rfl⟩, _, h.title, _, h.description, _, h.request, _,
      h.response, _, hchecks.validateRequest, _, hchecks.validateResponse, _,
      hchecks.validateSchema, ?_⟩
    rw [hchecks.auth]
    rfl

/-! ## The example in a test -/

/-- The fields that say what a test checks. -/
def Test.flagNames : List String :=
  ["validateRequest", "validateResponse", "validateSchema"]

/-- Whether the flags of a test can be read from a value.  A value that is no mapping
stands for a test without flags. -/
def Test.HasFlags (value : Value) : Prop :=
  ∀ entries, value = .mapping entries →
    ∀ name ∈ flagNames, Fields.IsFlag (Mapping.get? entries name)

/-- Shorthand for a title leaves the flags out. -/
theorem Test.hasFlags_iff {value : Value} {entries : Mapping}
    (h : value.asFields? "title" = some entries) :
    HasFlags value ↔ ∀ name ∈ flagNames, Fields.IsFlag (Mapping.get? entries name) := by
  cases value with
  | mapping own =>
    obtain rfl : own = entries := Option.some.inj h
    simp [HasFlags]
  | sequence _ | tagged _ _ => cases h
  | null | bool _ | number _ | string _ =>
    obtain rfl := Option.some.inj h
    simp [HasFlags, flagNames, Mapping.get?, Value.isName, Fields.IsFlag]

/-- Whatever its example, a test has checks exactly if its flags can be read. -/
theorem Test.exists_checksFrom_iff (fields : Fields) (item : Example) :
    (∃ test : Test, test.ChecksFrom fields ∧ test.toExample = item) ↔
      ∀ name ∈ flagNames, Fields.IsFlag (fields.raw? name) := by
  simp only [flagNames, List.forall_mem_cons, ← Fields.exists_flag_iff]
  constructor
  · rintro ⟨test, hchecks, -⟩
    exact ⟨⟨_, hchecks.validateRequest⟩, ⟨_, hchecks.validateResponse⟩,
      ⟨_, hchecks.validateSchema⟩, by simp⟩
  · rintro ⟨⟨validateRequest, hrequest⟩, ⟨validateResponse, hresponse⟩,
      ⟨validateSchema, hschema⟩, -⟩
    exact ⟨⟨item.title, item.description, item.request, item.response, validateRequest,
      validateResponse, validateSchema, fields.value? "auth"⟩,
      ⟨hrequest, hresponse, hschema, rfl⟩, rfl⟩

/-- A test is built with a given example in it exactly if the example is built and the
flags of the test can be read. -/
theorem Test.exists_build_iff (scope : Scope) (value : Value) (item : Example) :
    (∃ test, build scope value = .ok test ∧ test.toExample = item) ↔
      Example.build scope value = .ok item ∧ HasFlags value := by
  constructor
  · rintro ⟨test, htest, rfl⟩
    obtain ⟨entries, hentries, hread, hchecks⟩ := build_eq_ok.1 htest
    have hflags := (exists_checksFrom_iff _ _).1 ⟨test, hchecks, rfl⟩
    refine ⟨Example.build_eq_ok.2 ⟨entries, hentries, hread.of_entries_eq rfl⟩, ?_⟩
    exact (hasFlags_iff hentries).2 hflags
  · rintro ⟨hitem, hflags⟩
    obtain ⟨entries, hentries, hread⟩ := Example.build_eq_ok.1 hitem
    obtain ⟨test, hchecks, rfl⟩ := (exists_checksFrom_iff ⟨.test, scope, entries⟩ item).2
      ((hasFlags_iff hentries).1 hflags)
    exact ⟨test, build_eq_ok.2 ⟨entries, hentries, hread.of_entries_eq rfl, hchecks⟩, rfl⟩

end Routebook
