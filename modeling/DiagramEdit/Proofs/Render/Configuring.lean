import DiagramEdit.Proofs.Render.Recording

/-!
# When a renderer is configured

Three things tell what a renderer knows of the options: those of the session,
those it was told last, and whether it is still owed a call.  An action leaves
all three alone, or takes on other options, or tells the renderer those it was
owed.
-/

namespace DiagramEdit

variable {ρ : Type}

namespace RenderSession

/-- The options that the renderer has been told, in order. -/
def configurations (session : RenderSession (Recorded ρ)) :
    List RenderOptions :=
  configurationsOf session.renderer.calls

/-- Neither the options nor what the renderer knows of them have changed. -/
structure LeftAlone (session next : RenderSession (Recorded ρ)) : Prop where
  configurations : next.configurations = session.configurations
  options : next.options = session.options
  needsConfigure : next.needsConfigure = session.needsConfigure

/-- The session has taken on other options, and owes the renderer a call. -/
structure Chosen (session next : RenderSession (Recorded ρ)) : Prop where
  configurations : next.configurations = session.configurations
  options : next.options ≠ session.options
  needsConfigure : next.needsConfigure = true

/-- The renderer has been told the options of the session, as it was owed. -/
structure Told (session next : RenderSession (Recorded ρ)) : Prop where
  owed : session.needsConfigure = true
  configurations :
    next.configurations = session.configurations ++ [session.options]
  options : next.options = session.options
  needsConfigure : next.needsConfigure = false

theorem LeftAlone.refl (session : RenderSession (Recorded ρ)) :
    session.LeftAlone session :=
  ⟨rfl, rfl, rfl⟩

theorem LeftAlone.trans {session middle next : RenderSession (Recorded ρ)}
    (first : session.LeftAlone middle) (second : middle.LeftAlone next) :
    session.LeftAlone next := by
  constructor
  · exact second.configurations.trans first.configurations
  · exact second.options.trans first.options
  · exact second.needsConfigure.trans first.needsConfigure

theorem Told.trans {session middle next : RenderSession (Recorded ρ)}
    (first : session.Told middle) (second : middle.LeftAlone next) :
    session.Told next := by
  constructor
  · exact first.owed
  · exact second.configurations.trans first.configurations
  · exact second.options.trans first.options
  · exact second.needsConfigure.trans first.needsConfigure

section Actions

theorem setOptions_cases (session : RenderSession (Recorded ρ))
    (options : RenderOptions) :
    session.LeftAlone (session.setOptions options) ∨
      session.Chosen (session.setOptions options) := by
  by_cases same : options = session.options
  · rw [setOptions, if_pos same]
    exact .inl (.refl session)
  · rw [setOptions, if_neg same]
    exact .inr ⟨rfl, same, rfl⟩

theorem exists_complete_eq (session : RenderSession ρ) (ticket : RenderTicket)
    (result : Except Text Text) :
    ∃ svg error rendering, (session.complete ticket result).2 =
      { session with svg := svg, error := error, rendering := rendering } := by
  by_cases newest : ticket.seq = session.latest
  · rw [complete.eq_def, if_pos newest]
    cases result with
    | ok svg => exact ⟨_, _, _, rfl⟩
    | error message => exact ⟨_, _, _, rfl⟩
  · rw [complete_eq_superseded newest]
    exact ⟨_, _, _, rfl⟩

theorem leftAlone_complete (session : RenderSession (Recorded ρ))
    (ticket : RenderTicket) (result : Except Text Text) :
    session.LeftAlone (session.complete ticket result).2 := by
  obtain ⟨_, _, _, settled⟩ := session.exists_complete_eq ticket result
  rw [settled]
  exact ⟨rfl, rfl, rfl⟩

theorem renderer_complete (session : RenderSession ρ) (ticket : RenderTicket)
    (result : Except Text Text) :
    (session.complete ticket result).2.renderer = session.renderer := by
  obtain ⟨_, _, _, settled⟩ := session.exists_complete_eq ticket result
  rw [settled]

variable [Renderer ρ] {session next : RenderSession (Recorded ρ)}
  {source : Text} {ticket : RenderTicket}

theorem configured_cases (session : RenderSession (Recorded ρ)) :
    session.needsConfigure = false ∧ session.configured = session ∨
      session.Told session.configured := by
  cases needed : session.needsConfigure with
  | false => exact .inl ⟨rfl, by simp [configured, needed]⟩
  | true =>
      right
      rw [configured, if_pos needed]
      exact ⟨needed, configurationsOf_append_configure _ _, rfl, rfl⟩

/-- A request that issues a ticket has configured the renderer and called it for
nothing else. -/
theorem leftAlone_configured_of_request
    (requested : session.request source = (some ticket, next)) :
    session.configured.LeftAlone next := by
  obtain ⟨_, _, rfl⟩ := request_eq_some_iff.mp requested
  exact ⟨rfl, rfl, rfl⟩

theorem request_cases
    (requested : session.request source = (some ticket, next)) :
    session.LeftAlone next ∨ session.Told next := by
  have alone := leftAlone_configured_of_request requested
  rcases session.configured_cases with ⟨_, same⟩ | told
  · rw [same] at alone
    exact .inl alone
  · exact .inr (told.trans alone)

theorem leftAlone_of_render
    (requested : session.request source = (some ticket, next)) :
    next.LeftAlone (session.renderNow source).2 := by
  rw [renderNow_eq_complete requested]
  refine LeftAlone.trans ?_ (leftAlone_complete _ _ _)
  exact ⟨configurationsOf_append_render _ _ _, rfl, rfl⟩

theorem perform_cases (session : RenderSession (Recorded ρ))
    (action : SessionAction) :
    session.LeftAlone (session.perform action) ∨
      session.Chosen (session.perform action) ∨
      session.Told (session.perform action) := by
  cases action with
  | setOptions options =>
      exact (session.setOptions_cases options).imp_right .inl
  | complete ticket result =>
      exact .inl (session.leftAlone_complete ticket result)
  | request source =>
      rw [perform]
      cases requested : session.request source with
      | mk ticket? next =>
          cases ticket? with
          | none =>
              obtain ⟨_, rfl⟩ := request_eq_none_iff.mp requested
              exact .inl (.refl _)
          | some ticket => exact (request_cases requested).imp_right .inr
  | renderNow source =>
      rw [perform]
      cases requested : session.request source with
      | mk ticket? next =>
          cases ticket? with
          | none =>
              obtain ⟨_, rfl⟩ := request_eq_none_iff.mp requested
              rw [renderNow_eq_skipped requested]
              exact .inl (.refl _)
          | some ticket =>
              have drawn := leftAlone_of_render requested
              rcases request_cases requested with alone | told
              · exact .inl (alone.trans drawn)
              · exact .inr (.inr (told.trans drawn))

/-- An action tells the renderer at most the options of the session. -/
theorem configurations_perform_cases (session : RenderSession (Recorded ρ))
    (action : SessionAction) :
    (session.perform action).configurations = session.configurations ∨
      session.Told (session.perform action) := by
  rcases session.perform_cases action with alone | chosen | told
  · exact .inl alone.configurations
  · exact .inl chosen.configurations
  · exact .inr told

end Actions

theorem Told.getLast?_configurations {session next : RenderSession (Recorded ρ)}
    (told : session.Told next) :
    next.configurations.getLast? = some session.options := by
  rw [told.configurations, List.getLast?_concat]

/-- A renderer that is owed nothing was last told the options of the session. -/
def Informed (session : RenderSession (Recorded ρ)) : Prop :=
  session.needsConfigure = false →
    session.configurations.getLast? = some session.options

variable [Renderer ρ]

theorem Informed.perform {session : RenderSession (Recorded ρ)}
    (informed : session.Informed) (action : SessionAction) :
    (session.perform action).Informed := by
  intro owesNothing
  rcases session.perform_cases action with alone | chosen | told
  · rw [alone.configurations, alone.options]
    exact informed (alone.needsConfigure.symm.trans owesNothing)
  · rw [chosen.needsConfigure] at owesNothing
    cases owesNothing
  · rw [told.options]
    exact told.getLast?_configurations

theorem informed_recordedRun (renderer : ρ) (options : RenderOptions)
    (actions : List SessionAction) :
    (recordedRun renderer options actions).Informed := by
  induction actions using List.reverseRecOn with
  | nil =>
      intro owesNothing
      cases owesNothing
  | append_singleton actions action induction =>
      rw [recordedRun_concat]
      exact induction.perform action

section Request

variable {session next : RenderSession (Recorded ρ)} {source : Text}
  {ticket : RenderTicket}

theorem Informed.request (informed : session.Informed)
    (requested : session.request source = (some ticket, next)) :
    next.options = session.options ∧
      next.configurations.getLast? = some session.options := by
  have alone := leftAlone_configured_of_request requested
  rcases session.configured_cases with ⟨owesNothing, same⟩ | told
  · rw [same] at alone
    rw [alone.configurations]
    exact ⟨alone.options, informed owesNothing⟩
  · have toldNext := told.trans alone
    exact ⟨toldNext.options, toldNext.getLast?_configurations⟩

theorem calls_isPrefix_request
    (requested : session.request source = (some ticket, next)) :
    session.renderer.calls <+: next.renderer.calls := by
  obtain ⟨_, _, rfl⟩ := request_eq_some_iff.mp requested
  cases needed : session.needsConfigure with
  | false => simp [configured, needed]
  | true => simp [configured, needed, Renderer.configure]

/-- What drawing at once asks of the renderer, and when. -/
theorem Informed.renderNow (informed : session.Informed)
    (visible : Text.isBlank source = false) :
    ∃ id earlier,
      (session.renderNow source).2.renderer.calls =
          earlier ++ [.render id source] ∧ session.renderer.calls <+: earlier ∧
        (configurationsOf earlier).getLast? = some session.options ∧
        (session.renderNow source).2.options = session.options := by
  obtain ⟨ticket, next, requested⟩ :
      ∃ ticket next, session.request source = (some ticket, next) :=
    ⟨_, _, request_eq_some_iff.mpr ⟨visible, rfl, rfl⟩⟩
  obtain ⟨options, last⟩ := informed.request requested
  refine ⟨ticket.id, next.renderer.calls, ?_, calls_isPrefix_request requested,
    last, ?_⟩
  · rw [renderNow_eq_complete requested, renderer_complete]
    rfl
  · rw [(leftAlone_of_render requested).options, options]

end Request

/-- While the renderer is owed a call, the options of the session have been
others than those it was told last, at some moment since it was told them. -/
theorem exists_moment_of_needsConfigure (renderer : ρ) (options : RenderOptions)
    {actions : List SessionAction} {told : RenderOptions}
    (owed : (recordedRun renderer options actions).needsConfigure = true)
    (last : (recordedRun renderer options actions).configurations.getLast? =
      some told) :
    ∃ moment, moment <+: actions ∧
      (recordedRun renderer options moment).configurations =
        (recordedRun renderer options actions).configurations ∧
      (recordedRun renderer options moment).options ≠ told := by
  induction actions using List.reverseRecOn with
  | nil => cases last
  | append_singleton actions action induction =>
      have informed := informed_recordedRun renderer options actions
      rw [recordedRun_concat] at owed last ⊢
      rcases (recordedRun renderer options actions).perform_cases action with
        alone | chosen | informedNow
      · rw [alone.needsConfigure] at owed
        rw [alone.configurations] at last ⊢
        obtain ⟨moment, earlier, same, others⟩ := induction owed last
        exact ⟨moment, earlier.trans (List.prefix_append _ _), same, others⟩
      · rw [chosen.configurations] at last ⊢
        cases before :
          (recordedRun renderer options actions).needsConfigure with
        | true =>
            obtain ⟨moment, earlier, same, others⟩ := induction before last
            exact ⟨moment, earlier.trans (List.prefix_append _ _), same, others⟩
        | false =>
            -- The renderer knew the options that have just been left behind.
            have current := Option.some.inj ((informed before).symm.trans last)
            refine ⟨actions ++ [action], List.prefix_rfl, ?_, ?_⟩
            · rw [recordedRun_concat, chosen.configurations]
            · rw [recordedRun_concat, ← current]
              exact chosen.options
      · rw [informedNow.needsConfigure] at owed
        cases owed

end RenderSession

open RenderSession

variable [Renderer ρ]

/-- Every render runs under the options of the session.  In every run, and with
the renderer's calls recorded, which changes nothing: when a request issues a
ticket, and when a source is drawn at once, the renderer was last told the
options that the session has; and a blank source brings it no call at all. -/
theorem renders_under_current_options (renderer : ρ) (options : RenderOptions)
    (actions : List SessionAction) :
    let session := recordedRun renderer options actions
    session.unrecorded =
        (RenderSession.new renderer options).performAll actions ∧
      (∀ source ticket next, session.request source = (some ticket, next) →
        next.options = session.options ∧
          next.configurations.getLast? = some session.options) ∧
      (∀ source, Text.isBlank source = false →
        ∃ id earlier,
          (session.renderNow source).2.renderer.calls =
              earlier ++ [.render id source] ∧
            session.renderer.calls <+: earlier ∧
            (configurationsOf earlier).getLast? = some session.options ∧
            (session.renderNow source).2.options = session.options) ∧
      ∀ source, Text.isBlank source = true →
        session.request source = (none, session) ∧
          session.renderNow source = (.skipped, session) := by
  intro session
  have informed := informed_recordedRun renderer options actions
  refine ⟨unrecorded_recordedRun renderer options actions, ?_, ?_, ?_⟩
  · intro source ticket next requested
    exact informed.request requested
  · intro source visible
    exact informed.renderNow visible
  · intro source blank
    have requested := request_eq_none_iff.mpr ⟨blank, Eq.refl session⟩
    exact ⟨requested, renderNow_eq_skipped requested⟩

/-- The standard options on a dark background. -/
def darkOptions : RenderOptions :=
  { RenderOptions.standard with dark := true }

theorem renders_under_current_options_dark :
    let session :=
      recordedRun (⟨[], .ok []⟩ : Transcript) .standard
        [.request ['a'], .setOptions darkOptions, .request ['\n']]
    (session.request ['b']).1 = some (.numbered 2) ∧
      (session.request ['b']).2.configurations.getLast? = some darkOptions ∧
      ∃ id earlier,
        (session.renderNow ['b']).2.renderer.calls =
            earlier ++ [.render id ['b']] ∧ session.renderer.calls <+: earlier ∧
          (configurationsOf earlier).getLast? = some darkOptions ∧
          (session.renderNow ['b']).2.options = darkOptions := by
  intro session
  have requested :
      session.request ['b'] = (some (.numbered 2), (session.request ['b']).2) :=
    rfl
  have visible : Text.isBlank ['b'] = false := by decide
  obtain ⟨_, issued, drawn, _⟩ := renders_under_current_options
    (⟨[], .ok []⟩ : Transcript) .standard
    [.request ['a'], .setOptions darkOptions, .request ['\n']]
  exact ⟨rfl, (issued ['b'] _ _ requested).2, drawn ['b'] visible⟩

/-- A renderer is told the same options twice running only if they have changed
in between: at some moment after the first of the two calls and before the
second the options of the session were others. -/
theorem exists_other_options_between (renderer : ρ) (options : RenderOptions)
    {actions : List SessionAction} {position : Nat} {told : RenderOptions}
    (first : (recordedRun renderer options actions).configurations[position]? =
      some told)
    (second : (recordedRun renderer options actions).configurations[position +
        1]? = some told) :
    ∃ moment, moment <+: actions ∧
      (recordedRun renderer options moment).configurations.length =
        position + 1 ∧
      (recordedRun renderer options moment).options ≠ told := by
  induction actions using List.reverseRecOn with
  | nil => cases first
  | append_singleton actions action induction =>
      let session := recordedRun renderer options actions
      have settled : session.configurations[position]? = some told →
          session.configurations[position + 1]? = some told →
          ∃ moment, moment <+: actions ++ [action] ∧
            (recordedRun renderer options moment).configurations.length =
              position + 1 ∧
            (recordedRun renderer options moment).options ≠ told := by
        intro first second
        obtain ⟨moment, earlier, count, others⟩ := induction first second
        exact ⟨moment, earlier.trans (List.prefix_append _ _), count, others⟩
      rw [recordedRun_concat] at first second
      rcases session.configurations_perform_cases action with same | informedNow
      · rw [same] at first second
        exact settled first second
      · rw [informedNow.configurations] at first second
        by_cases old : position + 1 < session.configurations.length
        · rw [List.getElem?_append_left (by omega)] at first second
          exact settled first second
        · -- The second call is the one that this action has brought.
          have bound := (List.getElem?_eq_some_iff.mp second).1
          rw [List.length_append, List.length_singleton] at bound
          have count : session.configurations.length = position + 1 := by omega
          rw [List.getElem?_append_left (by omega)] at first
          have last : session.configurations.getLast? = some told := by
            rw [List.getLast?_eq_getElem?, count]
            exact first
          obtain ⟨moment, earlier, same, others⟩ :=
            exists_moment_of_needsConfigure renderer options informedNow.owed
              last
          refine ⟨moment, earlier.trans (List.prefix_append _ _), ?_, others⟩
          rw [same]
          exact count

/-- A request under the standard options, and another one under the same options
after others had been chosen for a while. -/
def returningActions : List SessionAction :=
  [.request ['a'], .setOptions darkOptions, .setOptions .standard,
    .request ['a']]

theorem exists_other_options_between_returning :
    let told :=
      (recordedRun (⟨[], .ok []⟩ : Transcript) .standard
        returningActions).configurations
    told[0]? = some .standard ∧ told[0 + 1]? = some .standard ∧
      ∃ moment, moment <+: returningActions ∧
        (recordedRun (⟨[], .ok []⟩ : Transcript) .standard
            moment).configurations.length = 0 + 1 ∧
        (recordedRun (⟨[], .ok []⟩ : Transcript) .standard moment).options ≠
          .standard := by
  intro told
  have first : told[0]? = some .standard := by decide
  have second : told[0 + 1]? = some .standard := by decide
  exact ⟨first, second, exists_other_options_between _ _ first second⟩

/-- The same options may follow each other. -/
theorem not_isChain_configurations :
    ¬List.IsChain (· ≠ ·)
      (recordedRun (⟨[], .ok []⟩ : Transcript) .standard
        returningActions).configurations := by
  decide

end DiagramEdit
