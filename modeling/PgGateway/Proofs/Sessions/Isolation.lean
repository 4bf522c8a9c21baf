import PgGateway.Proofs.Sessions.Service

/-!
# Sessions do not disturb each other

Sessions share the engine and the registry and nothing else. What a session is told of the engine it
is told in the answers to its own calls; what it is told of the registry is the types by which
columns are described. So a session that runs alone on its own requests, with the answers that it
was given among the others, comes to the same end and says the same up to the types of columns
(`Service.sessions_isolated`).
-/

namespace PgGateway

variable {ι σ : Type}

/-! ## Messages without types -/

/-- The message without the types of the columns that it describes. -/
def Backend.untyped : Backend → Backend
  | rowDescription fields => rowDescription (fields.map fun f => { f with oid := .text })
  | message => message

/-- The response without the types of columns. -/
def Response.untyped : Response → Response
  | replies messages => replies (messages.map Backend.untyped)
  | response => response

namespace Session

variable {engine : Engine σ} {s : Session} {request : Request} {shared : Shared σ}

/-- The registry says nothing but the types of columns. -/
theorem untyped_resultMessages (statement : Statement) (result : ResultSet) (r r' : Registry) :
    (resultMessages statement result r).map Backend.untyped =
      (resultMessages statement result r').map Backend.untyped := by
  have hfields : ∀ table table' : Option TableInfo,
      (result.fields table).map (fun f => { f with oid := .text }) =
        (result.fields table').map (fun f => { f with oid := .text }) := by
    intro table table'
    simp only [ResultSet.fields, List.map_map]
    rfl
  simp only [resultMessages, Projection.messages, Projection.ofResult, List.map_cons,
    Backend.untyped, hfields _ (statement.sourceTable.bind r'.table?)]

theorem untyped_reply (mode : ReturningMode) (v : Verdict) (r r' : Registry) :
    (v.reply mode r).map Backend.untyped = (v.reply mode r').map Backend.untyped := by
  cases v with
  | empty | failed => rfl
  | done statement result =>
    simp only [Verdict.reply, List.map_append]
    split
    · rw [untyped_resultMessages statement result r r']
    · rfl

/-- What comes of an answer of the engine does not depend on the registry, up to types. -/
theorem complete_untyped (statement : Statement) (outcome : Outcome) (r r' : Registry) :
    (s.complete statement outcome r).1.map Backend.untyped =
        (s.complete statement outcome r').1.map Backend.untyped ∧
      (s.complete statement outcome r).2.1 = (s.complete statement outcome r').2.1 := by
  cases outcome with
  | error e => exact ⟨rfl, rfl⟩
  | ok result =>
    unfold complete
    dsimp only
    rw [succeed_eq, succeed_eq]
    exact ⟨untyped_reply s.config.returning (.done statement result) r r', rfl⟩

/-! ## One request -/

/-- **A request is handled alone as it was among others**, if the engine answers the same, whatever
the registry holds. -/
theorem handle_alone (engine : Engine σ) (s : Session) (request : Request) (shared : Shared σ)
    (registry : Registry) (calls : List Call) (rest : Script) : ∃ response registry',
      s.handle Script.engine.recording request
          ⟨registry, calls, (s.consulted engine request shared.engine).map Prod.snd ++ rest⟩ =
        (response, (s.handle engine request shared).2.1,
          ⟨registry', calls ++ (s.consulted engine request shared.engine).map Prod.fst, rest⟩) ∧
      response.untyped = (s.handle engine request shared).1.untyped := by
  unfold consulted
  cases hasked : s.asked request with
  | none =>
    obtain ⟨response, next, hhandle⟩ := handle_quiet hasked
    refine ⟨response, registry, ?_, by rw [hhandle]⟩
    rw [hhandle, hhandle]
    simp
  | some t =>
    -- the script gives the answer of the engine to the one call
    obtain ⟨hmessages, hsession⟩ :=
      complete_untyped (s := s) t.statement (engine t.call shared.engine).1 registry shared.registry
    rw [handle_asked hasked, handle_asked hasked]
    refine ⟨.replies (s.complete t.statement (engine t.call shared.engine).1 registry).1,
      (s.complete t.statement (engine t.call shared.engine).1 registry).2.2, ?_,
      congrArg Response.replies hmessages⟩
    dsimp only
    rw [← hsession]
    rfl

/-! ## How far a session is -/

end Session

/-- A session goes from awaiting startup to ready and from there to its end, or to its end at
once. -/
inductive Phase.Moves : Phase → Phase → Prop
  | stays (p : Phase) : Moves p p
  | opens : Moves .awaitingStartup .ready
  | leaves : Moves .awaitingStartup .terminated
  | ends : Moves .ready .terminated

theorem Phase.Moves.late {p q : Phase} (h : p.Moves q) (late : p ≠ .awaitingStartup) :
    q ≠ .awaitingStartup := by
  cases h with
  | stays => exact late
  | opens | leaves | ends => nofun

namespace Session

variable {engine : Engine σ} {s : Session} {request : Request} {shared : Shared σ}

theorem handle_moves : s.phase.Moves (s.handle engine request shared).2.1.phase := by
  cases request with
  | startup request =>
    by_cases fresh : s.phase = .awaitingStartup
    · rw [handle, startup_fresh fresh, fresh]
      cases request with
      | session parameters => exact .opens
      | ssl | gssEncryption => exact fresh ▸ .stays s.phase
      | cancel key => exact .leaves
    · rw [handle_startup_late fresh]
      exact .stays s.phase
  | message message =>
    by_cases ready : s.phase = .ready
    · rw [handle_ready ready]
      dsimp only
      rw [answer_phase, ready]
      split
      · exact .ends
      · exact .stays .ready
    · rw [handle_unready ready]
      exact .stays s.phase

/-- Only a session that awaits startup is opened, and with the parameters it is sent. -/
theorem handle_accepted (h : (s.handle engine request shared).1.isAccepted = true) :
    s.phase = .awaitingStartup ∧ ∃ parameters, request = .startup (.session parameters) ∧
      (s.handle engine request shared).2.1 = s.opened parameters := by
  cases request with
  | startup request =>
    by_cases fresh : s.phase = .awaitingStartup
    · refine ⟨fresh, ?_⟩
      rw [handle, startup_fresh fresh] at h ⊢
      cases request with
      | session parameters => exact ⟨parameters, rfl, rfl⟩
      | ssl | gssEncryption | cancel => cases h
    · rw [handle_startup_late fresh] at h
      cases h
  | message message =>
    cases hreceive : s.receive engine message shared with
    | ok answer | error e =>
      rw [handle, hreceive] at h
      cases h

theorem handle_late (late : s.phase ≠ .awaitingStartup) :
    (s.handle engine request shared).1.isAccepted = false ∧
      (s.handle engine request shared).2.1.parameters = s.parameters := by
  constructor
  · rw [Bool.eq_false_iff]
    intro haccepted
    exact late (handle_accepted haccepted).1
  · cases request with
    | startup request => rw [handle_startup_late late]
    | message message =>
      by_cases ready : s.phase = .ready
      · obtain ⟨phase, pending, h⟩ := answer_session engine s message shared
        rw [handle_ready ready]
        dsimp only
        rw [h]
      · rw [handle_unready ready]

/-! ## Parameters -/

/-- The value is the last one that was sent for the name. -/
def LastSent (parameters : List (Text × Text)) (name value : Text) : Prop :=
  ∃ before after, parameters = before ++ (name, value) :: after ∧ ∀ p ∈ after, p.1 ≠ name

theorem parameter?_eq_some {name value : Text} :
    s.parameter? name = some value ↔ LastSent s.parameters name value := by
  rw [parameter?, Option.map_eq_some_iff]
  constructor
  · rintro ⟨⟨name', value'⟩, hfind, rfl⟩
    obtain ⟨hname, after, before, hreverse, hlater⟩ := List.find?_eq_some_iff_append.1 hfind
    obtain rfl : name' = name := by simpa using hname
    refine ⟨before.reverse, after.reverse, ?_, ?_⟩
    · rw [← List.reverse_reverse s.parameters, hreverse]
      simp
    · intro p hp
      simpa using hlater p (List.mem_reverse.1 hp)
  · rintro ⟨before, after, hparameters, hlater⟩
    refine ⟨(name, value), List.find?_eq_some_iff_append.2 ⟨by simp, after.reverse, before.reverse,
      by simp [hparameters], ?_⟩, rfl⟩
    intro p hp
    simpa using hlater p (List.mem_reverse.1 hp)

end Session

/-! ## Runs -/

section

variable [DecidableEq ι] {α : Type} {i j : ι} {a : α} {l : List (ι × α)}

theorem ownOf_cons_self : ownOf i ((i, a) :: l) = a :: ownOf i l := by
  simp [ownOf]

theorem ownOf_cons_of_ne (h : j ≠ i) : ownOf i ((j, a) :: l) = ownOf i l := by
  simp [ownOf, h]

end

namespace Service

variable [DecidableEq ι] {engine : Engine σ} {v : Service ι σ} {i j : ι} {request : Request}
  {requests later : List (ι × Request)}

/-- **A session alone comes to the end that it comes to among others**, making the same calls. -/
theorem run_alone (engine : Engine σ) (i : ι) (requests : List (ι × Request)) (v : Service ι σ)
    (registry : Registry) (calls : List Call) : ∃ responses registry',
      (v.sessions i).handleAll Script.engine.recording (ownOf i requests)
          ⟨registry, calls, (v.consulted engine i requests).map Prod.snd⟩ =
        (responses, (v.after engine requests).sessions i,
          ⟨registry', calls ++ (v.consulted engine i requests).map Prod.fst, []⟩) ∧
      responses.map Response.untyped =
        (ownOf i (v.run engine requests).1).map Response.untyped := by
  induction requests generalizing v registry calls with
  | nil => exact ⟨[], registry, by simp [consulted, ownOf, Session.handleAll, after_nil], rfl⟩
  | cons first later ih =>
    obtain ⟨j, request⟩ := first
    rw [run_cons, after_cons]
    by_cases hj : j = i
    · subst hj
      rw [ownOf_cons_self, ownOf_cons_self, consulted, if_pos rfl, List.map_append, List.map_append]
      obtain ⟨response, registry', hhandle, hresponse⟩ := (v.sessions j).handle_alone engine
        request v.shared registry calls
        (((v.step engine j request).2.consulted engine j later).map Prod.snd)
      obtain ⟨responses, registry'', hlater, hresponses⟩ := ih (v.step engine j request).2 registry'
        (calls ++ ((v.sessions j).consulted engine request v.shared.engine).map Prod.fst)
      refine ⟨response :: responses, registry'', ?_, ?_⟩
      · rw [step_own] at hlater
        rw [Session.handleAll, hhandle]
        dsimp only
        rw [hlater, List.append_assoc]
      · rw [List.map_cons, List.map_cons, hresponse, hresponses]
        rfl
    · rw [ownOf_cons_of_ne hj, ownOf_cons_of_ne hj, consulted, if_neg hj, List.nil_append]
      obtain ⟨responses, registry', hlater, hresponses⟩ :=
        ih (v.step engine j request).2 registry calls
      rw [step_other hj] at hlater
      exact ⟨responses, registry', hlater, hresponses⟩

/-- No session is opened twice. -/
theorem countP_accepted (engine : Engine σ) (i : ι) (requests : List (ι × Request))
    (v : Service ι σ) : (ownOf i (v.run engine requests).1).countP Response.isAccepted ≤
      if (v.sessions i).phase = .awaitingStartup then 1 else 0 := by
  induction requests generalizing v with
  | nil => exact Nat.zero_le _
  | cons first later ih =>
    obtain ⟨j, request⟩ := first
    have hlater := ih (v.step engine j request).2
    rw [run_cons]
    by_cases hj : j = i
    · subst hj
      rw [ownOf_cons_self, List.countP_cons]
      rw [step_own] at hlater
      have hresponse : (v.step engine j request).1 =
        ((v.sessions j).handle engine request v.shared).1 := rfl
      have hmoves : (v.sessions j).phase.Moves
          ((v.sessions j).handle engine request v.shared).2.1.phase := Session.handle_moves
      by_cases fresh : (v.sessions j).phase = .awaitingStartup
      · rw [if_pos fresh]
        by_cases haccepted : ((v.sessions j).handle engine request v.shared).1.isAccepted = true
        · obtain ⟨-, parameters, -, hopened⟩ := Session.handle_accepted haccepted
          have hready : ((v.sessions j).opened parameters).phase ≠ .awaitingStartup := nofun
          rw [hopened, if_neg hready] at hlater
          rw [hresponse, if_pos haccepted]
          omega
        · rw [hresponse, if_neg haccepted]
          split at hlater <;> omega
      · rw [if_neg fresh]
        rw [if_neg (hmoves.late fresh)] at hlater
        rw [hresponse, (Session.handle_late fresh).1]
        simpa using hlater
    · rw [ownOf_cons_of_ne hj]
      rwa [step_other hj] at hlater

/-- A session that was opened, or has ended, keeps its parameters. -/
theorem after_parameters (late : (v.sessions i).phase ≠ .awaitingStartup) :
    ((v.after engine requests).sessions i).parameters = (v.sessions i).parameters := by
  refine (after_induction (fun w => (w.sessions i).phase ≠ .awaitingStartup ∧
    (w.sessions i).parameters = (v.sessions i).parameters) ?_ ⟨late, rfl⟩).2
  rintro w j request ⟨hlate, hparameters⟩
  by_cases hj : j = i
  · subst hj
    rw [step_own]
    exact ⟨Session.handle_moves.late hlate, (Session.handle_late hlate).2.trans hparameters⟩
  · rw [step_other hj]
    exact ⟨hlate, hparameters⟩

/-- **Sessions do not disturb each other.** Whatever the engine, and whatever requests are handled
in whatever order:

* a request of one session changes no other one;
* a session alone, with any registry, an engine that gives the answers that were given to its own
  calls, and its own requests, makes the same calls, uses up the answers, comes to the same end, and
  responds the same up to the types of columns;
* a session moves from awaiting startup to ready to terminated, perhaps past the second;
* it is opened at most once;
* from then on it tells, for every name, the last value that was sent with the request that opened
  it. -/
theorem sessions_isolated (engine : Engine σ) (v : Service ι σ) (requests : List (ι × Request))
    (i : ι) (registry : Registry) :
    (∀ before j request later, requests = before ++ (j, request) :: later → j ≠ i →
      (v.after engine (before ++ [(j, request)])).sessions i = (v.after engine before).sessions i) ∧
    (∃ responses registry',
      (v.sessions i).handleAll Script.engine.recording (ownOf i requests)
          ⟨registry, [], (v.consulted engine i requests).map Prod.snd⟩ =
        (responses, (v.after engine requests).sessions i,
          ⟨registry', (v.consulted engine i requests).map Prod.fst, []⟩) ∧
      responses.map Response.untyped =
        (ownOf i (v.run engine requests).1).map Response.untyped) ∧
    (∀ before j request later, requests = before ++ (j, request) :: later →
      ((v.after engine before).sessions i).phase.Moves
        ((v.after engine (before ++ [(j, request)])).sessions i).phase) ∧
    (ownOf i (v.run engine requests).1).countP Response.isAccepted ≤ 1 ∧
    ∀ before request later, requests = before ++ (i, request) :: later →
      ((v.after engine before).step engine i request).1.isAccepted = true →
      ∃ parameters, request = .startup (.session parameters) ∧ ∀ name value,
        ((v.after engine requests).sessions i).parameter? name = some value ↔
          Session.LastSent parameters name value := by
  refine ⟨?_, ?_, ?_, ?_, ?_⟩
  · intro before j request later _ hj
    rw [after_concat, step_other hj]
  · obtain ⟨responses, registry', hrun, hresponses⟩ := run_alone engine i requests v registry []
    exact ⟨responses, registry', hrun, hresponses⟩
  · intro before j request later _
    rw [after_concat]
    by_cases hj : j = i
    · subst hj
      rw [step_own]
      exact Session.handle_moves
    · rw [step_other hj]
      exact .stays _
  · have hcount := countP_accepted engine i requests v
    split at hcount <;> omega
  · intro before request later hrequests haccepted
    obtain ⟨-, parameters, hrequest, hopened⟩ := Session.handle_accepted haccepted
    refine ⟨parameters, hrequest, ?_⟩
    intro name value
    rw [hrequests, after_append, after_cons, Session.parameter?_eq_some]
    -- the session is open from here on, and keeps what it was sent
    have hsession : (((v.after engine before).step engine i request).2.sessions i) =
        ((v.after engine before).sessions i).opened parameters := step_own.trans hopened
    have hlate : (((v.after engine before).step engine i request).2.sessions i).phase ≠
        .awaitingStartup := by
      rw [hsession]
      nofun
    rw [after_parameters hlate, hsession]
    rfl

/-- Two sessions on an engine that makes a table and reads a row from it. -/
def tableShared : Service Bool Script where
  sessions second := { config := {}, key := ⟨if second then 2 else 1, 7⟩ }
  shared := ⟨.empty, [.ok ⟨[], [], [], 0⟩, .ok ⟨["a"], [some "INTEGER"], [[.integer 7]], 0⟩]⟩

/-- The first session makes the table that the second one reads. -/
def twoVisits : List (Bool × Request) :=
  [(false, .startup (.session [("user", "a"), ("user", "b")])),
    (true, .startup (.session [("user", "c")])),
    (false, .message (.query "CREATE TABLE t (a BIGINT)")),
    (true, .message (.query "SELECT a FROM t")),
    (false, .message .terminate)]

/-- The second session alone, without the table in its registry. -/
def secondAlone : List Response :=
  ((tableShared.sessions true).handleAll Script.engine.recording (ownOf true twoVisits)
    ⟨.empty, [], (tableShared.consulted Script.engine true twoVisits).map Prod.snd⟩).1

/-- The types of columns do depend on the other session, and nothing else does. -/
theorem sessions_isolated_twoVisits :
    secondAlone ≠ ownOf true (tableShared.run Script.engine twoVisits).1 ∧
    secondAlone.map Response.untyped =
      (ownOf true (tableShared.run Script.engine twoVisits).1).map Response.untyped ∧
    ((tableShared.after Script.engine twoVisits).sessions false).parameter? "user" = some "b" := by
  refine ⟨by decide +kernel, ?_, ?_⟩
  · obtain ⟨-, ⟨responses, registry', hrun, hresponses⟩, -⟩ :=
      sessions_isolated Script.engine tableShared twoVisits true .empty
    rw [secondAlone, hrun]
    exact hresponses
  · obtain ⟨-, -, -, -, hopened⟩ :=
      sessions_isolated Script.engine tableShared twoVisits false .empty
    obtain ⟨parameters, hrequest, hlast⟩ := hopened [] _ _ rfl (by decide +kernel)
    cases hrequest
    exact (hlast "user" "b").2 ⟨[("user", "a")], [], rfl, nofun⟩

end Service

end PgGateway
