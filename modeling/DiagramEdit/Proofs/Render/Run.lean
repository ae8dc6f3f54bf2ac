import DiagramEdit.Proofs.Text.Characters
import DiagramEdit.Render.Transcript
import Mathlib.Data.List.Nodup

/-!
# Runs of a render session

Requests may overlap, and their results may come late, twice, out of order or
never.  A log tells what was requested and what was completed; what a session
shows can be read off its log, and there a result counts only if no newer
request had been made when it came in.
-/

namespace DiagramEdit

/-- What a session takes note of. -/
inductive SessionEvent where
  | issued (ticket : RenderTicket)
  | completed (ticket : RenderTicket) (result : Except Text Text)

namespace SessionLog

/-- The tickets issued, newest first. -/
def tickets : List SessionEvent → List RenderTicket
  | [] => []
  | .issued ticket :: earlier => ticket :: tickets earlier
  | .completed _ _ :: earlier => tickets earlier

/-- The results that came in for the ticket that was the newest one then, latest
first. -/
def counted : List SessionEvent → List (Except Text Text)
  | [] => []
  | .issued _ :: earlier => counted earlier
  | .completed ticket result :: earlier =>
      if (tickets earlier).head? = some ticket then
        result :: counted earlier
      else
        counted earlier

/-- The first drawing among results, or the empty one. -/
def firstDrawing : List (Except Text Text) → Text
  | [] => []
  | .ok svg :: _ => svg
  | .error _ :: others => firstDrawing others

/-- The last drawing among the results that counted. -/
def drawing (log : List SessionEvent) : Text :=
  firstDrawing (counted log)

/-- The message of the last result that counted, if that was a failure. -/
def message? (log : List SessionEvent) : Option Text :=
  match counted log with
  | .error message :: _ => some message
  | _ => none

/-- There is a newest ticket, and it has not been completed. -/
def IsPending (log : List SessionEvent) : Prop :=
  ∃ ticket, (tickets log).head? = some ticket ∧
    ∀ result, .completed ticket result ∉ log

theorem not_isPending_completed {log : List SessionEvent}
    {ticket : RenderTicket} (newest : (tickets log).head? = some ticket)
    (result : Except Text Text) :
    ¬IsPending (.completed ticket result :: log) := by
  intro pending
  obtain ⟨other, otherNewest, untouched⟩ := pending
  obtain rfl : ticket = other := Option.some.inj (newest.symm.trans otherNewest)
  exact untouched result List.mem_cons_self

theorem isPending_completed_iff {log : List SessionEvent}
    {ticket : RenderTicket} (older : (tickets log).head? ≠ some ticket)
    {result : Except Text Text} :
    IsPending (.completed ticket result :: log) ↔ IsPending log := by
  constructor
  · intro pending
    obtain ⟨newest, isNewest, untouched⟩ := pending
    refine ⟨newest, isNewest, ?_⟩
    intro outcome member
    exact untouched outcome (List.mem_cons_of_mem _ member)
  · intro pending
    obtain ⟨newest, isNewest, untouched⟩ := pending
    refine ⟨newest, isNewest, ?_⟩
    intro outcome member
    rcases List.mem_cons.mp member with here | earlier
    · cases here
      exact older isNewest
    · exact untouched outcome earlier

end SessionLog

open SessionLog

variable {ρ : Type}

/-- The sessions that a new one can become, each with its log, newest event
first.  Any ticket that was issued may be completed with any result at any
time. -/
inductive SessionRun [Renderer ρ] (renderer : ρ) (options : RenderOptions) :
    RenderSession ρ → List SessionEvent → Prop where
  | new : SessionRun renderer options (.new renderer options) []
  | setOptions {session log} (chosen : RenderOptions) :
      SessionRun renderer options session log →
      SessionRun renderer options (session.setOptions chosen) log
  | request {session log ticket next} (source : Text) :
      SessionRun renderer options session log →
      session.request source = (some ticket, next) →
      SessionRun renderer options next (.issued ticket :: log)
  | requestBlank {session log next} (source : Text) :
      SessionRun renderer options session log →
      session.request source = (none, next) →
      SessionRun renderer options next log
  | complete {session log ticket} (result : Except Text Text) :
      SessionRun renderer options session log →
      ticket ∈ tickets log →
      SessionRun renderer options (session.complete ticket result).2
        (.completed ticket result :: log)
  | renderNow {session log ticket next result drawn} (source : Text) :
      SessionRun renderer options session log →
      session.request source = (some ticket, next) →
      Renderer.render ticket.id source next.renderer = (result, drawn) →
      SessionRun renderer options (session.renderNow source).2
        (.completed ticket result :: .issued ticket :: log)
  | renderNowBlank {session log next} (source : Text) :
      SessionRun renderer options session log →
      session.request source = (none, next) →
      SessionRun renderer options (session.renderNow source).2 log

/-- What a log says about the session it belongs to. -/
structure RenderSession.Tells (session : RenderSession ρ)
    (log : List SessionEvent) :
    Prop where
  tickets : tickets log = (List.range' 1 session.latest).reverse.map .numbered
  completed : ∀ ticket result, .completed ticket result ∈ log →
    ticket ∈ SessionLog.tickets log
  svg : session.svg = drawing log
  error : session.error = message? log
  rendering : session.rendering = true ↔ IsPending log

theorem RenderTicket.numbered_injective :
    Function.Injective RenderTicket.numbered := by
  intro left right equality
  exact congrArg RenderTicket.seq equality

namespace RenderSession.Tells

variable {session : RenderSession ρ} {log : List SessionEvent}

theorem mem_tickets_iff (tells : session.Tells log) {ticket : RenderTicket} :
    ticket ∈ SessionLog.tickets log ↔
      ∃ seq, 1 ≤ seq ∧ seq ≤ session.latest ∧ ticket = .numbered seq := by
  rw [tells.tickets]
  simp only [List.mem_map, List.mem_reverse, List.mem_range'_1]
  constructor
  · rintro ⟨seq, ⟨lower, upper⟩, rfl⟩
    exact ⟨seq, lower, by omega, rfl⟩
  · rintro ⟨seq, lower, upper, rfl⟩
    exact ⟨seq, ⟨lower, by omega⟩, rfl⟩

/-- The newest ticket is the one with the number of the newest request. -/
theorem head?_eq_some_iff (tells : session.Tells log) {ticket : RenderTicket}
    (issued : ticket ∈ SessionLog.tickets log) :
    (SessionLog.tickets log).head? = some ticket ↔
      ticket.seq = session.latest := by
  obtain ⟨seq, lower, upper, rfl⟩ := tells.mem_tickets_iff.mp issued
  have newest :
      (SessionLog.tickets log).head? = some (.numbered session.latest) := by
    rw [tells.tickets, List.head?_map, List.head?_reverse]
    cases latest : session.latest with
    | zero => omega
    | succ earlier => simp [List.range'_concat, Nat.add_comm]
  rw [newest, Option.some.injEq, RenderTicket.numbered_injective.eq_iff]
  exact eq_comm

theorem of_shown_eq {other : RenderSession ρ} (tells : session.Tells log)
    (latest : other.latest = session.latest) (svg : other.svg = session.svg)
    (error : other.error = session.error)
    (rendering : other.rendering = session.rendering) :
    other.Tells log := by
  constructor
  · rw [latest]
    exact tells.tickets
  · exact tells.completed
  · rw [svg]
    exact tells.svg
  · rw [error]
    exact tells.error
  · rw [rendering]
    exact tells.rendering

theorem new (renderer : ρ) (options : RenderOptions) :
    (RenderSession.new renderer options).Tells [] := by
  constructor
  · rfl
  · intro ticket result member
    cases member
  · rfl
  · rfl
  · constructor
    · intro impossible
      cases impossible
    · rintro ⟨ticket, newest, _⟩
      cases newest

end RenderSession.Tells

/-- What is said about a result that counts: a failure comes with its message
and with whether there is a drawing to keep. -/
def RenderOutcome.ofResult (kept : Bool) : Except Text Text → RenderOutcome
  | .ok _ => .rendered
  | .error message => .failed message kept

namespace RenderSession

theorem setOptions_shown (session : RenderSession ρ) (options : RenderOptions) :
    (session.setOptions options).latest = session.latest ∧
      (session.setOptions options).svg = session.svg ∧
      (session.setOptions options).error = session.error ∧
      (session.setOptions options).rendering = session.rendering := by
  by_cases same : options = session.options <;> simp [setOptions, same]

/-- The result of any request but the newest is dropped. -/
theorem complete_eq_superseded {session : RenderSession ρ}
    {ticket : RenderTicket} (older : ticket.seq ≠ session.latest)
    (result : Except Text Text) :
    session.complete ticket result = (.superseded, session) := by
  rw [complete.eq_def, if_neg older]

theorem complete_eq_failed {session : RenderSession ρ} {ticket : RenderTicket}
    (newest : ticket.seq = session.latest) (message : Text) :
    session.complete ticket (.error message) =
      (.failed message (!session.svg.isEmpty),
        { session with rendering := false, error := some message }) := by
  rw [complete.eq_def, if_pos newest]

theorem complete_outcome {session : RenderSession ρ} {ticket : RenderTicket}
    (newest : ticket.seq = session.latest) (result : Except Text Text) :
    (session.complete ticket result).1 =
      .ofResult (!session.svg.isEmpty) result := by
  cases result with
  | ok svg =>
      rw [complete, if_pos newest]
      rfl
  | error message =>
      rw [complete_eq_failed newest]
      rfl

section Rendering

variable [Renderer ρ]

theorem configured_shown (session : RenderSession ρ) :
    session.configured.latest = session.latest ∧
      session.configured.svg = session.svg ∧
      session.configured.error = session.error := by
  cases needed : session.needsConfigure <;> simp [configured, needed]

theorem request_eq_some_iff {session next : RenderSession ρ} {source : Text}
    {ticket : RenderTicket} :
    session.request source = (some ticket, next) ↔
      Text.isBlank source = false ∧ ticket = .numbered (session.latest + 1) ∧
        next =
          { session.configured with
            latest := session.latest + 1
            rendering := true } := by
  cases blank : Text.isBlank source <;> simp [request, blank, eq_comm]

theorem svg_of_request {session next : RenderSession ρ} {source : Text}
    {ticket : RenderTicket}
    (requested : session.request source = (some ticket, next)) :
    next.svg = session.svg := by
  obtain ⟨_, _, rfl⟩ := request_eq_some_iff.mp requested
  exact session.configured_shown.2.1

theorem request_eq_none_iff {session next : RenderSession ρ} {source : Text} :
    session.request source = (none, next) ↔
      Text.isBlank source = true ∧ next = session := by
  cases blank : Text.isBlank source <;> simp [request, blank, eq_comm]

/-- Rendering in one step is a request and its completion. -/
theorem renderNow_eq_complete {session next : RenderSession ρ} {source : Text}
    {ticket : RenderTicket}
    (requested : session.request source = (some ticket, next)) :
    session.renderNow source =
      { next with
        renderer :=
          (Renderer.render ticket.id source next.renderer).2 }.complete ticket
        (Renderer.render ticket.id source next.renderer).1 := by
  rw [renderNow, requested]

theorem renderNow_outcome {session next : RenderSession ρ} {source : Text}
    {ticket : RenderTicket}
    (requested : session.request source = (some ticket, next)) :
    (session.renderNow source).1 =
      .ofResult (!session.svg.isEmpty)
        (Renderer.render ticket.id source next.renderer).1 := by
  have newest : ticket.seq = next.latest := by
    obtain ⟨_, rfl, rfl⟩ := request_eq_some_iff.mp requested
    rfl
  rw [renderNow_eq_complete requested, ← svg_of_request requested]
  apply complete_outcome
  exact newest

theorem renderNow_eq_skipped {session next : RenderSession ρ} {source : Text}
    (blank : session.request source = (none, next)) :
    session.renderNow source = (.skipped, next) := by
  rw [renderNow, blank]

end Rendering

namespace Tells

variable {session next : RenderSession ρ} {log : List SessionEvent}
  {source : Text} {ticket : RenderTicket}

/-- A request issues a ticket that nothing in the log has completed. -/
theorem request [Renderer ρ] (tells : session.Tells log)
    (requested : session.request source = (some ticket, next)) :
    next.Tells (.issued ticket :: log) := by
  obtain ⟨_, rfl, rfl⟩ := request_eq_some_iff.mp requested
  obtain ⟨_, svg, error⟩ := session.configured_shown
  constructor
  · simp [SessionLog.tickets, tells.tickets, List.range'_concat, Nat.add_comm]
  · intro completed result member
    have earlier := tells.completed completed result (by simpa using member)
    exact List.mem_cons_of_mem _ earlier
  · exact svg.trans tells.svg
  · exact error.trans tells.error
  · constructor
    · intro _
      refine ⟨.numbered (session.latest + 1), rfl, ?_⟩
      intro result member
      have old := tells.completed _ result (by simpa using member)
      obtain ⟨seq, _, upper, equality⟩ := tells.mem_tickets_iff.mp old
      have sameSeq := RenderTicket.numbered_injective equality
      omega
    · intro _
      rfl

theorem complete (tells : session.Tells log)
    (issued : ticket ∈ SessionLog.tickets log) (result : Except Text Text) :
    (session.complete ticket result).2.Tells
      (.completed ticket result :: log) := by
  have completed : ∀ other outcome,
      SessionEvent.completed other outcome ∈
          SessionEvent.completed ticket result :: log →
        other ∈ SessionLog.tickets log := by
    intro other outcome member
    rcases List.mem_cons.mp member with here | earlier
    · cases here
      exact issued
    · exact tells.completed other outcome earlier
  have newest_iff := tells.head?_eq_some_iff issued
  by_cases newest : ticket.seq = session.latest
  · have head := newest_iff.mpr newest
    have notPending := not_isPending_completed head result
    cases result with
    | ok svg =>
        rw [RenderSession.complete, if_pos newest]
        constructor
        · exact tells.tickets
        · exact completed
        · simp [drawing, counted, head, firstDrawing]
        · simp [message?, counted, head]
        · simpa using notPending
    | error message =>
        rw [complete_eq_failed newest]
        constructor
        · exact tells.tickets
        · exact completed
        · simpa [drawing, counted, head, firstDrawing] using tells.svg
        · simp [message?, counted, head]
        · simpa using notPending
  · have head : (SessionLog.tickets log).head? ≠ some ticket :=
      mt newest_iff.mp newest
    rw [complete_eq_superseded newest result]
    constructor
    · exact tells.tickets
    · exact completed
    · simpa [drawing, counted, head] using tells.svg
    · simpa [message?, counted, head] using tells.error
    · rw [isPending_completed_iff head]
      exact tells.rendering

end Tells

end RenderSession

/-- Every session can be read off its log. -/
theorem SessionRun.tells [Renderer ρ] {renderer : ρ} {options : RenderOptions}
    {session : RenderSession ρ} {log : List SessionEvent}
    (run : SessionRun renderer options session log) : session.Tells log := by
  induction run with
  | new => exact .new renderer options
  | setOptions chosen _ induction =>
      obtain ⟨latest, svg, error, rendering⟩ :=
        RenderSession.setOptions_shown _ chosen
      exact induction.of_shown_eq latest svg error rendering
  | request _ _ requested induction => exact induction.request requested
  | requestBlank _ _ blank induction =>
      obtain ⟨_, rfl⟩ := RenderSession.request_eq_none_iff.mp blank
      exact induction
  | complete result _ issued induction => exact induction.complete issued result
  | renderNow _ _ requested rendered induction =>
      have requestTells := induction.request requested
      rw [RenderSession.renderNow_eq_complete requested, rendered]
      apply RenderSession.Tells.complete
      · exact requestTells.of_shown_eq rfl rfl rfl rfl
      · exact List.mem_cons_self
  | renderNowBlank _ _ blank induction =>
      rw [RenderSession.renderNow_eq_skipped blank]
      obtain ⟨_, rfl⟩ := RenderSession.request_eq_none_iff.mp blank
      exact induction

namespace RenderSession

variable {session : RenderSession ρ} {log : List SessionEvent}

theorem Tells.map_seq_tickets (tells : session.Tells log) :
    (SessionLog.tickets log).reverse.map RenderTicket.seq =
      List.range' 1 (SessionLog.tickets log).length := by
  have sequence :
      (List.range' 1 session.latest).map (RenderTicket.seq ∘ .numbered) =
        List.range' 1 session.latest :=
    List.map_id' _
  simp [tells.tickets, sequence]

theorem Tells.nodup_ids (tells : session.Tells log) :
    ((SessionLog.tickets log).map RenderTicket.id).Nodup := by
  have injective :
      Function.Injective (RenderTicket.id ∘ RenderTicket.numbered) := by
    intro left right equality
    exact Text.toDigits_injective (List.append_cancel_left equality)
  rw [tells.tickets, List.map_map]
  exact (List.nodup_reverse.mpr List.nodup_range').map injective

/-- A failure keeps the drawing, whether it counts or not. -/
theorem svg_complete_error (session : RenderSession ρ) (ticket : RenderTicket)
    (message : Text) :
    (session.complete ticket (.error message)).2.svg = session.svg := by
  by_cases newest : ticket.seq = session.latest
  · rw [complete_eq_failed newest]
  · rw [complete_eq_superseded newest]

theorem eq_error_of_complete_failed {ticket : RenderTicket}
    {result : Except Text Text} {message : Text} {kept : Bool}
    (failed : (session.complete ticket result).1 = .failed message kept) :
    result = .error message ∧ (kept = true ↔ session.svg ≠ []) := by
  by_cases newest : ticket.seq = session.latest
  · cases result with
    | ok svg =>
        rw [complete, if_pos newest] at failed
        cases failed
    | error shown =>
        rw [complete_eq_failed newest] at failed
        obtain ⟨rfl, rfl⟩ := RenderOutcome.failed.inj failed
        exact ⟨rfl, by simp⟩
  · rw [complete_eq_superseded newest] at failed
    cases failed

theorem svg_renderNow_failed [Renderer ρ] {source message : Text} {kept : Bool}
    (failed : (session.renderNow source).1 = .failed message kept) :
    (session.renderNow source).2.svg = session.svg ∧
      (kept = true ↔ session.svg ≠ []) := by
  cases requested : session.request source with
  | mk ticket? next =>
      cases ticket? with
      | none =>
          rw [renderNow_eq_skipped requested] at failed
          cases failed
      | some ticket =>
          rw [renderNow_eq_complete requested] at failed ⊢
          obtain ⟨refused, keptIff⟩ := eq_error_of_complete_failed failed
          rw [refused, svg_complete_error, ← svg_of_request requested]
          exact ⟨rfl, keptIff⟩

end RenderSession

/-- The last writer wins.  In every run the session shows the last drawing and
the last failure among the results of requests that were the newest ones when
they were completed, and it is rendering exactly while the newest request is
open.  Requests are numbered from one on and have different identifiers.  A
result for an older request changes nothing at all, and one for the newest is
answered with what it is.  A failure never changes the drawing: it says whether
there is one to keep, also where the session renders at once. -/
theorem SessionRun.last_writer_wins [Renderer ρ] {renderer : ρ}
    {options : RenderOptions} {session : RenderSession ρ}
    {log : List SessionEvent} (run : SessionRun renderer options session log) :
    session.svg = drawing log ∧ session.error = message? log ∧
      (session.rendering = true ↔ IsPending log) ∧
      (tickets log).reverse.map RenderTicket.seq =
        List.range' 1 (tickets log).length ∧
      ((tickets log).map RenderTicket.id).Nodup ∧
      (∀ ticket ∈ tickets log, (tickets log).head? ≠ some ticket →
        ∀ result, session.complete ticket result = (.superseded, session)) ∧
      (∀ ticket, (tickets log).head? = some ticket →
        ∀ result,
          (session.complete ticket result).1 =
            .ofResult (!session.svg.isEmpty) result) ∧
      (∀ ticket message,
        (session.complete ticket (.error message)).2.svg = session.svg) ∧
      (∀ ticket result message kept,
        (session.complete ticket result).1 = .failed message kept →
          (kept = true ↔ session.svg ≠ [])) ∧
      (∀ source ticket next, session.request source = (some ticket, next) →
        (session.renderNow source).1 =
          .ofResult (!session.svg.isEmpty)
            (Renderer.render ticket.id source next.renderer).1) ∧
      ∀ source message kept,
        (session.renderNow source).1 = .failed message kept →
          (session.renderNow source).2.svg = session.svg ∧
            (kept = true ↔ session.svg ≠ []) := by
  have tells := run.tells
  refine ⟨tells.svg, tells.error, tells.rendering, tells.map_seq_tickets,
    tells.nodup_ids, ?_, ?_, session.svg_complete_error, ?_, ?_, ?_⟩
  · intro ticket issued older result
    apply RenderSession.complete_eq_superseded
    exact mt (tells.head?_eq_some_iff issued).mpr older
  · intro ticket newest result
    have issued := List.mem_of_mem_head? newest
    exact RenderSession.complete_outcome
      ((tells.head?_eq_some_iff issued).mp newest) result
  · intro ticket result message kept failed
    exact (RenderSession.eq_error_of_complete_failed failed).2
  · intro source ticket next requested
    exact RenderSession.renderNow_outcome requested
  · intro source message kept failed
    exact RenderSession.svg_renderNow_failed failed

/-- Two requests overlap, the first one is completed after the second, and a
third one fails. -/
def overlappingLog : List SessionEvent :=
  [.completed (.numbered 3) (.error "bad".toList), .issued (.numbered 3),
    .completed (.numbered 1) (.ok "old".toList),
    .completed (.numbered 2) (.ok "new".toList), .issued (.numbered 2),
    .issued (.numbered 1)]

/-- The failure leaves the drawing of the second request, and so do a failure
that comes in twice and one of a request that is rendered at once. -/
theorem last_writer_wins_overlapping :
    ∃ session : RenderSession Transcript,
      SessionRun ⟨[], .error "bad".toList⟩ .standard session overlappingLog ∧
        session.svg = "new".toList ∧ session.error = some "bad".toList ∧
        session.rendering = false ∧
        (session.complete (.numbered 3) (.error "worse".toList)).1 =
          .failed "worse".toList true ∧
        (session.complete (.numbered 3) (.error "worse".toList)).2.svg =
          "new".toList ∧
        session.complete (.numbered 2) (.error "late".toList) =
          (.superseded, session) ∧
        (session.renderNow ['d']).1 = .failed "bad".toList true := by
  have start :
      SessionRun (⟨[], .error "bad".toList⟩ : Transcript) .standard _ _ :=
    .new
  have first := start.request ['a'] rfl
  have second := first.request ['b'] rfl
  have newer := second.complete (.ok "new".toList) List.mem_cons_self
  have older :=
    newer.complete (.ok "old".toList)
      (List.mem_cons_of_mem _ List.mem_cons_self)
  have third := older.request ['c'] rfl
  have failed := third.complete (.error "bad".toList) List.mem_cons_self
  obtain ⟨svg, error, _, _, _, superseded, newest, keeps, _, now, _⟩ :=
    failed.last_writer_wins
  refine ⟨_, failed, svg, error, rfl, ?_, ?_, ?_, ?_⟩
  · exact newest _ rfl _
  · exact (keeps _ _).trans svg
  · exact superseded _ (by decide) (by decide) _
  · exact now ['d'] _ _ rfl

end DiagramEdit
