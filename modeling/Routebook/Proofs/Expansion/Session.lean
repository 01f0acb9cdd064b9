import Routebook.Proofs.Expansion.Course

/-!
# Sessions

A session is a sequence of calls on one context.  Each call has a bundle of its
own, so that files can be added and changed between the calls.  A call that
fails does not end the session.
-/

namespace Routebook

/-- A call that expands something. -/
inductive Call
  | part (schema : Schema) (value : Value)
  | document (root : Value)
  | file (reference : Reference)

/-- What a call does by the files of a bundle. -/
def Call.step (bundle : Bundle) : Call → Expansion (Option Value)
  | .part schema value => expand (resolve bundle) schema value
  | .document root => do
    let entries ← expandRoot bundle root
    return some (.mapping entries)
  | .file reference => resolve bundle reference

/-- A context in which nothing has been expanded. -/
def Context.fresh (configDir : Option Path) (methodPrefix : Option String) : Context :=
  { configDir, methodPrefix }

/-- Carry out calls one after the other, each by the files of its bundle. -/
def session : List (Bundle × Call) → Context → List (Except Error (Option Value)) × Context
  | [], context => ([], context)
  | (bundle, call) :: calls, context =>
    let (result, between) := (call.step bundle).runFrom context
    let (results, after) := session calls between
    (result :: results, after)

theorem session_append (first second : List (Bundle × Call)) (context : Context) :
    (session (first ++ second) context).2 = (session second (session first context).2).2 := by
  induction first generalizing context with
  | nil => rfl
  | cons head rest ih => exact ih _

theorem traces_call (bundle : Bundle) (call : Call) :
    Traces bundle.locations (call.step bundle) := by
  cases call with
  | part schema value => exact traces_expand (traces_resolve bundle) schema value
  | document root =>
    apply traces_bind
    · exact traces_expandRoot bundle root
    · exact fun entries => traces_of_stage_eq fun _ => rfl
  | file reference => exact traces_resolve bundle reference

/-- The locations of all files that the calls of a session can read. -/
def heldIn (calls : List (Bundle × Call)) : List Location :=
  calls.flatMap fun call => call.1.locations

/-- A session takes a course, and succeeds if all its calls do. -/
theorem course_session (calls : List (Bundle × Call)) (context : Context) :
    Course (heldIn calls) ((session calls context).1.all Except.isOk) context.stage
      (session calls context).2.stage := by
  induction calls generalizing context with
  | nil => exact .stay true context.stage
  | cons head rest ih =>
    obtain ⟨bundle, call⟩ := head
    have hfirst := traces_call bundle call context
    have hrest := ih ((call.step bundle).runFrom context).2
    rw [heldIn, List.flatMap_cons]
    apply Course.andThen
    · exact hfirst.mono (List.subset_append_left _ _)
    · exact hrest.mono (List.subset_append_right _ _)

end Routebook
