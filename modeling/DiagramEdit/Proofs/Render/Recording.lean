import DiagramEdit.Proofs.Render.Run
import Mathlib.Data.List.Induction

/-!
# Recorded renderers

Any renderer can be made to write down the calls it receives.  The record is
written and never read: a session on a recorded renderer does what it does on
the renderer itself.  A run is a list of actions in any order, and the tickets
that it completes need not be the session's own.
-/

namespace DiagramEdit

/-- The options that a call brings to the renderer. -/
def RendererCall.options? : RendererCall → Option RenderOptions
  | .configure options => some options
  | .render _ _ => none

/-- The options brought by some calls, in order. -/
def configurationsOf (calls : List RendererCall) : List RenderOptions :=
  calls.filterMap RendererCall.options?

@[simp]
theorem configurationsOf_append_configure (calls : List RendererCall)
    (options : RenderOptions) :
    configurationsOf (calls ++ [.configure options]) =
      configurationsOf calls ++ [options] := by
  simp [configurationsOf, RendererCall.options?]

@[simp]
theorem configurationsOf_append_render (calls : List RendererCall)
    (id source : Text) :
    configurationsOf (calls ++ [.render id source]) =
      configurationsOf calls := by
  simp [configurationsOf, RendererCall.options?]

/-- A renderer with the calls it has received, in order. -/
structure Recorded (ρ : Type) where
  renderer : ρ
  calls : List RendererCall

/-- What can be done to a session. -/
inductive SessionAction where
  | setOptions (options : RenderOptions)
  | request (source : Text)
  | complete (ticket : RenderTicket) (result : Except Text Text)
  | renderNow (source : Text)

variable {ρ : Type} [Renderer ρ]

instance : Renderer (Recorded ρ) where
  configure options recorded :=
    { renderer := Renderer.configure options recorded.renderer
      calls := recorded.calls ++ [.configure options] }
  render id source recorded :=
    let (result, drawn) := Renderer.render id source recorded.renderer
    (result,
      { renderer := drawn, calls := recorded.calls ++ [.render id source] })

namespace RenderSession

/-- The session after an action. -/
def perform (session : RenderSession ρ) : SessionAction → RenderSession ρ
  | .setOptions options => session.setOptions options
  | .request source => (session.request source).2
  | .complete ticket result => (session.complete ticket result).2
  | .renderNow source => (session.renderNow source).2

/-- The session after a run of actions. -/
def performAll (session : RenderSession ρ) (actions : List SessionAction) :
    RenderSession ρ :=
  actions.foldl perform session

/-- A new session on a recorded renderer after a run of actions. -/
def recordedRun (renderer : ρ) (options : RenderOptions)
    (actions : List SessionAction) : RenderSession (Recorded ρ) :=
  (new ⟨renderer, []⟩ options).performAll actions

theorem recordedRun_concat (renderer : ρ) (options : RenderOptions)
    (actions : List SessionAction) (action : SessionAction) :
    recordedRun renderer options (actions ++ [action]) =
      (recordedRun renderer options actions).perform action := by
  simp [recordedRun, performAll]

omit [Renderer ρ] in
/-- The session without the record. -/
def unrecorded (session : RenderSession (Recorded ρ)) : RenderSession ρ where
  renderer := session.renderer.renderer
  options := session.options
  needsConfigure := session.needsConfigure
  latest := session.latest
  svg := session.svg
  error := session.error
  rendering := session.rendering

variable (session : RenderSession (Recorded ρ))

omit [Renderer ρ] in
theorem unrecorded_setOptions (options : RenderOptions) :
    (session.setOptions options).unrecorded =
      session.unrecorded.setOptions options := by
  by_cases same : options = session.options <;>
    simp [setOptions, unrecorded, same]

theorem unrecorded_configured :
    session.configured.unrecorded = session.unrecorded.configured := by
  cases needed : session.needsConfigure <;>
    simp [configured, unrecorded, needed, Renderer.configure]

theorem request_unrecorded (source : Text) :
    session.unrecorded.request source =
      ((session.request source).1, (session.request source).2.unrecorded) := by
  cases blank : Text.isBlank source with
  | true => simp [request, blank]
  | false =>
      simp only [request, blank, Bool.false_eq_true, if_false,
        ← unrecorded_configured]
      rfl

omit [Renderer ρ] in
theorem complete_unrecorded (ticket : RenderTicket)
    (result : Except Text Text) :
    session.unrecorded.complete ticket result =
      ((session.complete ticket result).1,
        (session.complete ticket result).2.unrecorded) := by
  by_cases newest : ticket.seq = session.latest
  · cases result <;> simp [complete, unrecorded, newest]
  · simp [complete, unrecorded, newest]

theorem renderNow_unrecorded (source : Text) :
    session.unrecorded.renderNow source =
      ((session.renderNow source).1,
        (session.renderNow source).2.unrecorded) := by
  have requestedAlike := session.request_unrecorded source
  cases requested : session.request source with
  | mk ticket? next =>
      rw [requested] at requestedAlike
      cases ticket? with
      | none =>
          rw [renderNow_eq_skipped requestedAlike,
            renderNow_eq_skipped requested]
      | some ticket =>
          rw [renderNow_eq_complete requestedAlike,
            renderNow_eq_complete requested]
          exact complete_unrecorded
            { next with
              renderer := (Renderer.render ticket.id source next.renderer).2 }
            ticket _

theorem unrecorded_perform (action : SessionAction) :
    (session.perform action).unrecorded =
      session.unrecorded.perform action := by
  cases action with
  | setOptions options => exact session.unrecorded_setOptions options
  | request source =>
      exact (congrArg Prod.snd (session.request_unrecorded source)).symm
  | complete ticket result =>
      exact (congrArg Prod.snd (session.complete_unrecorded ticket result)).symm
  | renderNow source =>
      exact (congrArg Prod.snd (session.renderNow_unrecorded source)).symm

/-- Recording the calls of a renderer changes nothing in a run. -/
theorem unrecorded_recordedRun (renderer : ρ) (options : RenderOptions)
    (actions : List SessionAction) :
    (recordedRun renderer options actions).unrecorded =
      (new renderer options).performAll actions := by
  induction actions using List.reverseRecOn with
  | nil => rfl
  | append_singleton actions action induction =>
      rw [recordedRun_concat, unrecorded_perform, induction]
      simp [performAll]

end RenderSession

end DiagramEdit
