import Mathlib.Logic.Function.Basic
import PgGateway.Proofs.Session.Completions

/-!
# Sessions that share an engine

A service has any number of sessions, one engine and one registry. It handles one request after the
other, each by the session it is meant for, in whatever order they come (`Service.run`). What a
session asks of the engine, and is answered, is known from the run (`Service.consulted`).
-/

namespace PgGateway

variable {ι σ : Type}

/-- What a client asks of its session. -/
inductive Request
  | startup (request : Startup)
  | message (message : Frontend)
deriving DecidableEq, Repr

/-- What a session answers. -/
inductive Response
  | opening (reply : StartupReply)
  | replies (messages : List Backend)
  /-- The request breaks the protocol. -/
  | refused (error : WireError)
deriving DecidableEq, Repr

/-- The statement that is run, if there is one. -/
def Plan.statement? : Plan → Option Translated
  | reply _ => none
  | run statement => some statement

/-- The response opens a session. -/
def Response.isAccepted : Response → Bool
  | opening (.accepted _) => true
  | _ => false

namespace Session

/-- Handles a request. One that is refused leaves everything as it is. -/
def handle (engine : Engine σ) (s : Session) (request : Request) (shared : Shared σ) :
    Response × Session × Shared σ :=
  match request with
  | .startup request =>
    match s.startup request with
    | .ok (reply, s) => (.opening reply, s, shared)
    | .error e => (.refused e, s, shared)
  | .message message =>
    match s.receive engine message shared with
    | .ok (messages, s, shared) => (.replies messages, s, shared)
    | .error e => (.refused e, s, shared)

/-- Handles requests one after the other. -/
def handleAll (engine : Engine σ) :
    List Request → Session → Shared σ → List Response × Session × Shared σ
  | [], s, shared => ([], s, shared)
  | request :: later, s, shared =>
    let (response, s, shared) := s.handle engine request shared
    let (responses, s, shared) := handleAll engine later s shared
    (response :: responses, s, shared)

/-- The statement that a request has the session run, if there is one. -/
def asked (s : Session) : Request → Option Translated
  | .message (.query sql) => if s.phase = .ready then (Plan.ofText sql).statement? else none
  | _ => none

/-- The call that a request makes, if it makes one, and what an engine in this state answers. -/
def consulted (engine : Engine σ) (s : Session) (request : Request) (state : σ) :
    List (Call × Outcome) :=
  (s.asked request).toList.map fun t => (t.call, (engine t.call state).1)

variable {s : Session} {request : Request}

/-! ## One request -/

theorem handle_ready {engine : Engine σ} {shared : Shared σ} (ready : s.phase = .ready)
    (message : Frontend) : s.handle engine (.message message) shared =
      (.replies (s.answer engine message shared).1, (s.answer engine message shared).2) := by
  rw [handle, receive_ready ready]

/-- What is shared changes only by the statement that the session runs. -/
theorem handle_asked {t : Translated} (h : s.asked request = some t) (engine : Engine σ)
    (shared : Shared σ) : s.handle engine request shared =
      let outcome := engine t.call shared.engine
      let completed := s.complete t.statement outcome.1 shared.registry
      (.replies completed.1, completed.2.1, ⟨completed.2.2, outcome.2⟩) := by
  match request, h with
  | .message (.query sql), h =>
    rw [asked] at h
    split at h
    · next ready =>
      rw [handle_ready ready]
      show (Response.replies (s.query engine sql shared).1, (s.query engine sql shared).2) = _
      unfold query
      cases hplan : Plan.ofText sql with
      | reply messages =>
        rw [hplan] at h
        cases h
      | run u =>
        rw [hplan] at h
        cases h
        rfl
    · cases h

theorem handle_startup_late {engine : Engine σ} {shared : Shared σ} {request : Startup}
    (late : s.phase ≠ .awaitingStartup) : s.handle engine (.startup request) shared =
      (.refused (.protocol .lateStartup), s, shared) := by
  rw [handle, startup_late late]

/-- A session that is not ready leaves everything as it is when it is sent a message. -/
theorem handle_unready {engine : Engine σ} {shared : Shared σ} (unready : s.phase ≠ .ready)
    (message : Frontend) : (s.handle engine (.message message) shared).2 = (s, shared) := by
  unfold handle receive
  cases hphase : s.phase with
  | ready => exact absurd hphase unready
  | awaitingStartup | terminated => rfl

/-- A request that runs no statement is handled without the engine and the registry. -/
theorem handle_quiet (h : s.asked request = none) : ∃ response next,
    ∀ (τ : Type) (engine : Engine τ) (shared : Shared τ),
      s.handle engine request shared = (response, next, shared) := by
  cases request with
  | startup request =>
    cases hstartup : s.startup request with
    | error e => exact ⟨.refused e, s, fun τ engine shared => by rw [handle, hstartup]⟩
    | ok answer =>
      exact ⟨.opening answer.1, answer.2, fun τ engine shared => by rw [handle, hstartup]⟩
  | message message =>
    cases hphase : s.phase with
    | awaitingStartup =>
      refine ⟨.refused (.protocol (.earlyMessage message.tag)), s, fun τ engine shared => ?_⟩
      simp only [handle, receive, hphase]
    | terminated =>
      refine ⟨.replies [], s, fun τ engine shared => ?_⟩
      simp only [handle, receive, hphase]
    | ready =>
      simp only [handle_ready hphase]
      cases message with
      | query sql =>
        rw [asked, if_pos hphase] at h
        cases hplan : Plan.ofText sql with
        | run t =>
          rw [hplan] at h
          cases h
        | reply messages =>
          refine ⟨.replies messages, s, fun τ engine shared => ?_⟩
          rw [answer, query, hplan]
      | sync =>
        exact ⟨.replies (s.pending.map Completion.toMessage ++ [.ready]), { s with pending := [] },
          fun _ _ _ => rfl⟩
      | terminate =>
        exact ⟨.replies [], { s with phase := .terminated, pending := [] }, fun _ _ _ => rfl⟩
      | unknown tag payload => exact ⟨.replies [], s, fun _ _ _ => rfl⟩

end Session

/-- Sessions, and what they share. -/
structure Service (ι σ : Type) where
  sessions : ι → Session
  shared : Shared σ

/-- What belongs to one session of what happens to all of them. -/
def ownOf [DecidableEq ι] {α : Type} (i : ι) (l : List (ι × α)) : List α :=
  l.filterMap fun p => if p.1 = i then some p.2 else none

namespace Service

variable [DecidableEq ι]

/-- Has one session handle a request. -/
def step (engine : Engine σ) (v : Service ι σ) (i : ι) (request : Request) :
    Response × Service ι σ :=
  let (response, s, shared) := (v.sessions i).handle engine request v.shared
  (response, ⟨Function.update v.sessions i s, shared⟩)

/-- Handles requests, each by the session it is meant for: the responses, and what comes of the
service. -/
def run (engine : Engine σ) : List (ι × Request) → Service ι σ → List (ι × Response) × Service ι σ
  | [], v => ([], v)
  | (i, request) :: later, v =>
    let (response, v) := v.step engine i request
    let (responses, v) := run engine later v
    ((i, response) :: responses, v)

/-- The service after requests. -/
def after (engine : Engine σ) (v : Service ι σ) (requests : List (ι × Request)) : Service ι σ :=
  (v.run engine requests).2

/-- The calls that one session makes while the service handles requests, and their answers. -/
def consulted (engine : Engine σ) (i : ι) :
    List (ι × Request) → Service ι σ → List (Call × Outcome)
  | [], _ => []
  | (j, request) :: later, v =>
    (if j = i then (v.sessions j).consulted engine request v.shared.engine else []) ++
      consulted engine i later (v.step engine j request).2

variable {engine : Engine σ} {v : Service ι σ} {i j : ι} {request : Request}
  {requests later : List (ι × Request)}

theorem step_own : (v.step engine i request).2.sessions i =
    ((v.sessions i).handle engine request v.shared).2.1 :=
  Function.update_self i _ v.sessions

/-- No other session changes. -/
theorem step_other (h : j ≠ i) : (v.step engine j request).2.sessions i = v.sessions i :=
  Function.update_of_ne h.symm _ v.sessions

theorem run_cons : (v.run engine ((i, request) :: later)).1 =
    (i, (v.step engine i request).1) :: ((v.step engine i request).2.run engine later).1 := rfl

theorem after_nil : v.after engine [] = v := rfl

theorem after_cons : v.after engine ((i, request) :: later) =
    (v.step engine i request).2.after engine later := rfl

theorem after_append : v.after engine (requests ++ later) =
    (v.after engine requests).after engine later := by
  induction requests generalizing v with
  | nil => rfl
  | cons first requests ih =>
    rw [List.cons_append, after_cons, after_cons]
    exact ih

theorem after_concat : v.after engine (requests ++ [(i, request)]) =
    ((v.after engine requests).step engine i request).2 := after_append

/-- What is kept by every step is kept by a run. -/
theorem after_induction (P : Service ι σ → Prop)
    (hstep : ∀ v i request, P v → P (Service.step engine v i request).2) (h : P v) :
    P (v.after engine requests) := by
  induction requests generalizing v with
  | nil => exact h
  | cons first requests ih => exact ih (hstep v first.1 first.2 h)

end Service

end PgGateway
