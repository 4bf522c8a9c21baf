import PgGateway.Proofs.Tables.Live

/-!
# Statements that cross

Between the answer of the engine and the update of the registry other sessions may go on. The engine
answers one call after the other, but nothing keeps the updates in the order of the calls
(`Traffic`). So the registry may come to know a table that was dropped, forget one that is there, or
know one by the definition of another (`Traffic.registry_not_followed`). It follows the tables of
the engine as long as, for every table, the updates are made in the order of the calls
(`Traffic.registry_follows_orderly`).
-/

namespace PgGateway

open Sql

variable {ι σ : Type}

/-! ## Statements in flight -/

/-- A statement that the engine has answered and its session has not completed. -/
structure Flight (ι : Type) where
  session : ι
  statement : Statement
  outcome : Outcome

/-- The key of the table that a statement makes or drops. -/
def Statement.changedKey? : Statement → Option Text
  | createTable c => some (Registry.key c.table)
  | drop _ table => table.map Registry.key
  | _ => none

namespace Flight

/-- The statement that will be recorded: the engine has carried it out. -/
def recorded? (f : Flight ι) : Option Statement :=
  match f.outcome with
  | .ok _ => some f.statement
  | .error _ => none

/-- What will be recorded is about the table of the key. -/
def Concerns (k : Text) (f : Flight ι) : Prop := f.recorded?.bind Statement.changedKey? = some k

instance (k : Text) (f : Flight ι) : Decidable (f.Concerns k) :=
  inferInstanceAs (Decidable (f.recorded?.bind Statement.changedKey? = some k))

/-- What is known of the table of a key after the session has completed. -/
def landing (k : Text) (entry : Option TableInfo) (f : Flight ι) : Option TableInfo :=
  Registry.entryOn k entry f.statement f.outcome

variable {k : Text} {f : Flight ι} {flights : List (Flight ι)} {entry : Option TableInfo}

theorem landing_of_not_concerns (h : ¬f.Concerns k) : f.landing k entry = entry := by
  obtain ⟨i, statement, outcome⟩ := f
  cases outcome with
  | error e => rfl
  | ok result =>
    cases statement with
    | createTable c => exact if_neg fun hmade => h (congrArg some hmade.1)
    | drop object table =>
      cases table with
      | none => rfl
      | some table => exact if_neg fun hdropped => h (congrArg some hdropped)
    | select | insert | update | delete => rfl

theorem foldl_landing (h : ∀ f ∈ flights, ¬f.Concerns k) :
    flights.foldl (landing k) entry = entry := by
  induction flights with
  | nil => rfl
  | cons f flights ih =>
    obtain ⟨hf, hflights⟩ := List.forall_mem_cons.1 h
    rw [List.foldl_cons, landing_of_not_concerns hf]
    exact ih hflights

end Flight

/-- A service with statements in flight. -/
structure Traffic (ι σ : Type) extends Service ι σ where
  /-- The statements in flight, in the order of the calls. -/
  flights : List (Flight ι)

/-- One of the two steps of a query. -/
inductive Move (ι : Type)
  /-- The session has the engine run the statement of a text. -/
  | call (i : ι) (sql : Text)
  /-- The session completes its statement. -/
  | complete (i : ι)

/-- The text of a query that a move begins. -/
def Move.query? : Move ι → Option Text
  | call _ sql => some sql
  | complete _ => none

/-- The move has the engine run the definition. -/
def Move.Defines (move : Move ι) (c : CreateTable) : Prop :=
  ∃ i sql t, move = .call i sql ∧ translate sql = .ok t ∧ t.statement = .createTable c

/-- A move defines one table at most. -/
theorem Move.Defines.unique {move : Move ι} {c d : CreateTable} (hc : move.Defines c)
    (hd : move.Defines d) : c = d := by
  obtain ⟨i, sql, t, rfl, ht, hct⟩ := hc
  obtain ⟨j, sql', t', hmove, ht', hdt⟩ := hd
  cases hmove
  obtain rfl := Except.ok.inj (ht.symm.trans ht')
  exact Statement.createTable.inj (hct.symm.trans hdt)

namespace Traffic

variable [DecidableEq ι]

/-- The first step of a query. A session that is still waiting for the second one does not begin
another. -/
def call (engine : Engine σ) (w : Traffic ι σ) (i : ι) (sql : Text) : Traffic ι σ :=
  match (w.sessions i).asked (.message (.query sql)) with
  | none => w
  | some t =>
    if ∀ f ∈ w.flights, f.session ≠ i then
      let (outcome, state) := engine t.call w.shared.engine
      { w with
        shared := ⟨w.shared.registry, state⟩
        flights := w.flights ++ [⟨i, t.statement, outcome⟩] }
    else w

/-- The second step: the session brings the registry up to date and replies. -/
def complete (w : Traffic ι σ) (i : ι) : List Backend × Traffic ι σ :=
  match w.flights.find? fun f => f.session = i with
  | none => ([], w)
  | some f =>
    let (messages, s, registry) :=
      (w.sessions i).complete f.statement f.outcome w.shared.registry
    (messages,
      { sessions := Function.update w.sessions i s
        shared := ⟨registry, w.shared.engine⟩
        flights := w.flights.eraseP fun f => f.session = i })

/-- Makes a move. -/
def step (engine : Engine σ) (w : Traffic ι σ) : Move ι → Traffic ι σ
  | .call i sql => w.call engine i sql
  | .complete i => (w.complete i).2

/-- What comes of moves. -/
def after (engine : Engine σ) (w : Traffic ι σ) (moves : List (Move ι)) : Traffic ι σ :=
  moves.foldl (step engine) w

variable {engine : Engine σ} {reading : NameReading} {tables : σ → Set Text} {w : Traffic ι σ}
  {i : ι} {k : Text} {sql : Text} {t : Translated} {moves : List (Move ι)} {move : Move ι}

theorem after_concat : w.after engine (moves ++ [move]) = (w.after engine moves).step engine move :=
  List.foldl_concat _ _ _ _

theorem call_cases (engine : Engine σ) (w : Traffic ι σ) (i : ι) (sql : Text) :
    w.call engine i sql = w ∨
      ∃ t, (w.sessions i).asked (.message (.query sql)) = some t ∧
        ∀ f ∈ w.flights, f.session ≠ i := by
  cases hasked : (w.sessions i).asked (.message (.query sql)) with
  | none =>
    left
    rw [call, hasked]
  | some t =>
    by_cases hidle : ∀ f ∈ w.flights, f.session ≠ i
    · exact .inr ⟨t, rfl, hidle⟩
    · left
      rw [call, hasked]
      exact if_neg hidle

theorem call_asked (hasked : (w.sessions i).asked (.message (.query sql)) = some t)
    (hidle : ∀ f ∈ w.flights, f.session ≠ i) : w.call engine i sql =
      { w with
        shared := ⟨w.shared.registry, (engine t.call w.shared.engine).2⟩
        flights := w.flights ++ [⟨i, t.statement, (engine t.call w.shared.engine).1⟩] } := by
  rw [call, hasked]
  exact if_pos hidle

theorem find?_flight {before rest : List (Flight ι)} {f : Flight ι}
    (hflights : w.flights = before ++ f :: rest) (hf : f.session = i)
    (hbefore : ∀ g ∈ before, g.session ≠ i) :
    w.flights.find? (fun g => g.session = i) = some f := by
  rw [hflights, List.find?_eq_some_iff_append]
  exact ⟨by simpa using hf, before, rest, rfl, fun g hg => by simpa using hbefore g hg⟩

/-- A session completes its statement where it stands among those in flight. -/
theorem complete_eq {before rest : List (Flight ι)} {f : Flight ι}
    (hflights : w.flights = before ++ f :: rest) (hf : f.session = i)
    (hbefore : ∀ g ∈ before, g.session ≠ i) : w.complete i =
      (((w.sessions i).complete f.statement f.outcome w.shared.registry).1,
        { sessions := Function.update w.sessions i
            ((w.sessions i).complete f.statement f.outcome w.shared.registry).2.1
          shared := ⟨((w.sessions i).complete f.statement f.outcome w.shared.registry).2.2,
            w.shared.engine⟩
          flights := before ++ rest }) := by
  have herase : w.flights.eraseP (fun g => g.session = i) = before ++ rest := by
    rw [hflights, List.eraseP_append_right _ fun g hg => by simpa using hbefore g hg,
      List.eraseP_cons_of_pos (by simpa using hf)]
  unfold complete
  rw [find?_flight hflights hf hbefore, herase]

/-- A session that has a statement in flight has one that is the first. -/
theorem complete_cases (w : Traffic ι σ) (i : ι) : w.complete i = ([], w) ∨
    ∃ before f rest, w.flights = before ++ f :: rest ∧ f.session = i ∧
      ∀ g ∈ before, g.session ≠ i := by
  cases hfind : w.flights.find? (fun f => f.session = i) with
  | none =>
    left
    rw [complete, hfind]
  | some f =>
    right
    obtain ⟨hf, before, rest, hflights, hbefore⟩ := List.find?_eq_some_iff_append.1 hfind
    exact ⟨before, f, rest, hflights, by simpa using hf, fun g hg => by simpa using hbefore g hg⟩

/-- **The two steps are the query**, if no other step comes between them. -/
theorem complete_call (hasked : (w.sessions i).asked (.message (.query sql)) = some t)
    (hidle : ∀ f ∈ w.flights, f.session ≠ i) :
    let crossed := (w.call engine i sql).complete i
    let whole := w.toService.step engine i (.message (.query sql))
    .replies crossed.1 = whole.1 ∧ crossed.2.toService = whole.2 ∧
      crossed.2.flights = w.flights := by
  have hflights : (w.call engine i sql).flights =
      w.flights ++ [⟨i, t.statement, (engine t.call w.shared.engine).1⟩] := by
    rw [call_asked hasked hidle]
  have hcomplete := complete_eq hflights rfl hidle
  rw [call_asked hasked hidle] at hcomplete ⊢
  rw [hcomplete]
  unfold Service.step
  rw [Session.handle_asked hasked]
  exact ⟨rfl, rfl, List.append_nil w.flights⟩

/-! ## What is due to be known -/

/-- What would be known of the table of a key if all sessions completed in the order of the calls. -/
def due (k : Text) (w : Traffic ι σ) : Option TableInfo :=
  w.flights.foldl (Flight.landing k) (w.shared.registry.find? k)

omit [DecidableEq ι] in
theorem due_landed (hlanded : w.flights = []) : w.due k = w.shared.registry.find? k := by
  rw [due, hlanded]
  rfl

omit [DecidableEq ι] in
theorem due_concat {state : σ} {f : Flight ι} :
    due k { w with shared := ⟨w.shared.registry, state⟩, flights := w.flights ++ [f] } =
      f.landing k (w.due k) :=
  List.foldl_concat _ _ _ _

/-- Of the statements in flight about the table none was called before the one that the session
completes, if that is about the table. -/
def InTurn (k : Text) (w : Traffic ι σ) (i : ι) : Prop :=
  ∀ f ∈ w.flights.find? fun f => f.session = i, f.Concerns k →
    ∀ g ∈ w.flights.takeWhile fun g => g.session ≠ i, ¬g.Concerns k

instance (k : Text) (w : Traffic ι σ) (i : ι) : Decidable (w.InTurn k i) :=
  inferInstanceAs (Decidable (∀ f ∈ w.flights.find? fun f => f.session = i, f.Concerns k →
    ∀ g ∈ w.flights.takeWhile fun g => g.session ≠ i, ¬g.Concerns k))

/-- **Completing a statement in turn changes nothing of what is due.** -/
theorem due_complete (h : w.InTurn k i) : (w.complete i).2.due k = w.due k := by
  rcases complete_cases w i with hnone | ⟨before, f, rest, hflights, hf, hbefore⟩
  · rw [hnone]
  · -- what the session completes is the same before as behind those that were called earlier
    have hswap : before.foldl (Flight.landing k) (f.landing k (w.shared.registry.find? k)) =
        f.landing k (before.foldl (Flight.landing k) (w.shared.registry.find? k)) := by
      by_cases hconcerns : f.Concerns k
      · have hothers : ∀ g ∈ before, ¬g.Concerns k := by
          intro g hg
          refine h f (find?_flight hflights hf hbefore) hconcerns g ?_
          rw [hflights, List.takeWhile_append_of_pos fun g hg => by simpa using hbefore g hg]
          exact List.mem_append_left _ hg
        rw [Flight.foldl_landing hothers, Flight.foldl_landing hothers]
      · rw [Flight.landing_of_not_concerns hconcerns, Flight.landing_of_not_concerns hconcerns]
    rw [complete_eq hflights hf hbefore]
    unfold due
    dsimp only
    rw [Session.find?_complete, hflights, List.foldl_append, List.foldl_append, List.foldl_cons]
    exact congrArg (rest.foldl (Flight.landing k)) hswap

/-! ## Runs -/

/-- For the table of the key, every statement is completed in turn. -/
def Orderly (engine : Engine σ) (k : Text) : List (Move ι) → Traffic ι σ → Prop
  | [], _ => True
  | .call i sql :: later, w => Orderly engine k later (w.step engine (.call i sql))
  | .complete i :: later, w =>
    w.InTurn k i ∧ Orderly engine k later (w.step engine (.complete i))

instance decidableOrderly (engine : Engine σ) (k : Text) :
    ∀ (moves : List (Move ι)) (w : Traffic ι σ), Decidable (w.Orderly engine k moves)
  | [], _ => inferInstanceAs (Decidable True)
  | .call i sql :: later, w => decidableOrderly engine k later (w.step engine (.call i sql))
  | .complete i :: later, w =>
    have := decidableOrderly engine k later (w.step engine (.complete i))
    inferInstanceAs
      (Decidable (w.InTurn k i ∧ (w.step engine (.complete i)).Orderly engine k later))

theorem orderly_concat : w.Orderly engine k (moves ++ [move]) ↔
    w.Orderly engine k moves ∧
      ∀ i, move = .complete i → (w.after engine moves).InTurn k i := by
  induction moves generalizing w with
  | nil =>
    cases move with
    | call i sql => exact iff_of_true trivial ⟨trivial, nofun⟩
    | complete i =>
      constructor
      · rintro ⟨hturn, -⟩
        refine ⟨trivial, ?_⟩
        rintro j hj
        cases hj
        exact hturn
      · rintro ⟨-, hturn⟩
        exact ⟨hturn i rfl, trivial⟩
  | cons first moves ih =>
    cases first with
    | call i sql => exact ih
    | complete i =>
      show w.InTurn k i ∧ _ ↔ (w.InTurn k i ∧ _) ∧ _
      rw [and_assoc]
      exact and_congr_right fun _ => ih

/-- The keys of the tables that there are after moves. -/
def tablesAfter (engine : Engine σ) (tables : σ → Set Text) (w : Traffic ι σ)
    (moves : List (Move ι)) : Set Text :=
  tables (w.after engine moves).shared.engine

theorem complete_engine (w : Traffic ι σ) (i : ι) :
    (w.complete i).2.shared.engine = w.shared.engine := by
  unfold complete
  split <;> rfl

/-- What is due to be known of a table describes it, as long as its statements are completed in
turn. -/
theorem describes_due (hkeeps : engine.KeepsTables reading tables) (w : Traffic ι σ) (k : Text)
    (hlanded : w.flights = [])
    (hstart : k ∈ tables w.shared.engine ↔ (w.shared.registry.find? k).isSome = true)
    (moves : List (Move ι)) (hagrees : ∀ move ∈ moves, ∀ sql ∈ move.query?, reading.Agrees sql)
    (horderly : w.Orderly engine k moves) :
    Describes (w.tablesAfter engine tables) Move.Defines k (w.shared.registry.find? k) moves
      ((w.after engine moves).due k) := by
  induction moves using List.reverseRecOn with
  | nil =>
    show Describes _ _ _ _ _ (w.due k)
    rw [due_landed hlanded]
    exact .initial hstart
  | append_singleton moves move ih =>
    obtain ⟨hbefore, hturn⟩ := orderly_concat.1 horderly
    obtain ⟨hagreesBefore, hlast⟩ := List.forall_mem_append.1 hagrees
    have hdescribes := ih hagreesBefore hbefore
    have htables : w.tablesAfter engine tables (moves ++ [move]) =
        tables ((w.after engine moves).step engine move).shared.engine := by
      rw [tablesAfter, after_concat]
    rw [after_concat]
    cases move with
    | complete i =>
      show Describes _ _ _ _ _ (((w.after engine moves).complete i).2.due k)
      rw [due_complete (hturn i rfl)]
      refine hdescribes.extend ?_
      rw [htables, step, complete_engine]
      rfl
    | call i sql =>
      rw [step] at htables ⊢
      rcases call_cases engine (w.after engine moves) i sql with hsame | ⟨t, hasked, hidle⟩
      · rw [hsame] at htables ⊢
        exact hdescribes.extend (by rw [htables]; rfl)
      · obtain ⟨text, hquery, htranslate⟩ := Session.translate_of_asked hasked
        cases hquery
        have hsame : reading.Agrees sql := hlast _ (List.mem_singleton_self _) sql rfl
        rw [call_asked hasked hidle] at htables ⊢
        rw [due_concat]
        refine hdescribes.answer hkeeps htranslate hsame ?_ rfl htables
        intro c hc
        exact ⟨i, sql, t, rfl, htranslate, hc⟩

/-- **The registry follows orderly traffic.** Where the registry knows the table of a key at the
start just if the engine has it, and nothing is in flight, and the statements about the table are
recorded in the order of the calls, the registry knows the table just if the engine has it whenever
nothing is in flight again; and it knows it by the definition that made it, or as it did at the
start if the table has stood since. This holds of every engine that keeps tables and reads the names
of those that are dropped as they are read here. -/
theorem registry_follows_orderly (hkeeps : engine.KeepsTables reading tables) (w : Traffic ι σ)
    (k : Text) (hlanded : w.flights = [])
    (hstart : k ∈ tables w.shared.engine ↔ (w.shared.registry.find? k).isSome = true)
    (moves : List (Move ι)) (hagrees : ∀ move ∈ moves, ∀ sql ∈ move.query?, reading.Agrees sql)
    (horderly : w.Orderly engine k moves) (hlandedAfter : (w.after engine moves).flights = []) :
    (((w.after engine moves).shared.registry.find? k).isSome = true ↔
      k ∈ w.tablesAfter engine tables moves) ∧
    ∀ info, (w.after engine moves).shared.registry.find? k = some info →
      (∃ c, info.Records c ∧ MadeBy (w.tablesAfter engine tables) Move.Defines k moves c) ∨
      (w.shared.registry.find? k = some info ∧
        ∀ before, before <+: moves → k ∈ w.tablesAfter engine tables before) := by
  have hdescribes := describes_due hkeeps w k hlanded hstart moves hagrees horderly
  rw [due_landed hlandedAfter] at hdescribes
  refine ⟨hdescribes.isSome_iff, ?_⟩
  intro info hinfo
  rw [hinfo] at hdescribes
  cases hdescribes with
  | @made c hmade => exact .inl ⟨c, c.records_info, hmade⟩
  | kept initial stood => exact .inr ⟨initial, stood⟩

/-- Two open sessions on an engine without tables, and nothing in flight. -/
def twoIdle : Traffic Bool (Finset Text) where
  toService := .twoOpen
  flights := []

/-- The sessions make one table each, and complete in the other order; then the table of the first
is dropped by the second. -/
def crossedApart : List (Move Bool) :=
  [.call false "CREATE TABLE t (a INT)", .call true "CREATE TABLE u (b TEXT)", .complete true,
    .complete false, .call true "DROP TABLE t", .call false "INSERT INTO u VALUES (1)",
    .complete false, .complete true]

theorem registry_follows_orderly_crossedApart :
    ((twoIdle.after (tableEngine .own) crossedApart).shared.registry.find? "u").isSome = true ∧
    ("u" : Text) ∈ twoIdle.tablesAfter (tableEngine .own) (fun tables => ↑tables) crossedApart ∧
    ((twoIdle.after (tableEngine .own) crossedApart).shared.registry.find? "t").isSome = false ∧
    ("t" : Text) ∉ twoIdle.tablesAfter (tableEngine .own) (fun tables => ↑tables) crossedApart := by
  obtain ⟨hlanded, hlive, hgone⟩ :
      (twoIdle.after (tableEngine .own) crossedApart).flights.isEmpty = true ∧
      ((twoIdle.after (tableEngine .own) crossedApart).shared.registry.find? "u").isSome = true ∧
      ((twoIdle.after (tableEngine .own) crossedApart).shared.registry.find? "t").isSome =
        false := by
    decide +kernel
  have hagrees : ∀ move ∈ crossedApart, ∀ sql ∈ move.query?, NameReading.own.Agrees sql :=
    fun _ _ sql _ => NameReading.agrees_own sql
  have hu := registry_follows_orderly (keepsTables_tableEngine .own) twoIdle "u" rfl
    (by decide) crossedApart hagrees (by decide +kernel) (List.isEmpty_iff.1 hlanded)
  have ht := registry_follows_orderly (keepsTables_tableEngine .own) twoIdle "t" rfl
    (by decide) crossedApart hagrees (by decide +kernel) (List.isEmpty_iff.1 hlanded)
  refine ⟨hlive, hu.1.1 hlive, hgone, ?_⟩
  rw [← ht.1, hgone]
  exact Bool.false_ne_true

/-! ## Traffic out of order -/

/-- A table is dropped before the session that made it completes. -/
def revived : List (Move Bool) :=
  [.call false "CREATE TABLE t (a INT)", .call true "DROP TABLE t", .complete true,
    .complete false]

/-- A table is made again before the session that dropped it completes. -/
def forgotten : List (Move Bool) :=
  [.call false "CREATE TABLE t (a INT)", .complete false, .call false "DROP TABLE t",
    .call true "CREATE TABLE t (b BIGINT)", .complete true, .complete false]

/-- A table is dropped and made again before the session that made it first completes. -/
def mistaken : List (Move Bool) :=
  [.call false "CREATE TABLE t (a INT)", .call true "DROP TABLE t", .complete true,
    .call true "CREATE TABLE t (b BIGINT)", .complete true, .complete false]

/-- The table as the first of its definitions makes it. -/
def firstTable : TableInfo where
  name := "t"
  columns :=
    [ { name := "a", type := .integer, nullable := true, defaultText := none,
        primaryKey := false } ]

/-- What the second definition of the table is translated to. -/
def secondDefinition : Translated where
  sent := "CREATE TABLE t (b BIGINT)"
  text := "CREATE TABLE t ( b INTEGER NULL );"
  statement := .createTable
    { table := "t"
      ifNotExists := false
      columns :=
        [ { name := "b", type := .bigInt, primaryKey := false, autoIncrement := false,
            nullability := none, unique := false, defaultText := none, constraints := [] } ]
      constraints := [] }

/-- The engine has the table by its second definition. -/
theorem madeBy_mistaken : ∃ c, secondDefinition.statement = .createTable c ∧
    MadeBy (twoIdle.tablesAfter (tableEngine .own) fun tables => ↑tables) Move.Defines "t"
      mistaken c := by
  have htranslate : translate secondDefinition.sent = .ok secondDefinition := by
    decide +kernel
  have hlive : ("t" : Text) ∉ (twoIdle.after (tableEngine .own) (mistaken.take 3)).shared.engine ∧
      ∀ later ∈ (mistaken.drop 4).inits, ("t" : Text) ∈ (twoIdle.after (tableEngine .own)
        (mistaken.take 3 ++ .call true secondDefinition.sent :: later)).shared.engine := by
    decide +kernel
  refine ⟨_, rfl, mistaken.take 3, .call true secondDefinition.sent, mistaken.drop 4, rfl,
    ⟨true, _, _, rfl, htranslate, rfl⟩, by decide +kernel, hlive.1, ?_⟩
  intro later hlater
  exact hlive.2 later ((List.mem_inits _ _).2 hlater)

/-- **The registry does not follow traffic that is out of order.** It keeps a table that was
dropped, or has none for a table that is there, or has the table by another definition than the one
that made it, for good: nothing is in flight any more. -/
theorem registry_not_followed :
    ((twoIdle.after (tableEngine .own) revived).flights = [] ∧
      ("t" : Text) ∉ twoIdle.tablesAfter (tableEngine .own) (fun tables => ↑tables) revived ∧
      (twoIdle.after (tableEngine .own) revived).shared.registry.find? "t" = some firstTable) ∧
    ((twoIdle.after (tableEngine .own) forgotten).flights = [] ∧
      ("t" : Text) ∈ twoIdle.tablesAfter (tableEngine .own) (fun tables => ↑tables) forgotten ∧
      (twoIdle.after (tableEngine .own) forgotten).shared.registry.find? "t" = none) ∧
    ((twoIdle.after (tableEngine .own) mistaken).flights = [] ∧
      (twoIdle.after (tableEngine .own) mistaken).shared.registry.find? "t" = some firstTable ∧
      ¬∃ c, firstTable.Records c ∧ MadeBy
        (twoIdle.tablesAfter (tableEngine .own) fun tables => ↑tables) Move.Defines "t"
        mistaken c) := by
  have hrevived : (twoIdle.after (tableEngine .own) revived).flights.isEmpty = true ∧
      ("t" : Text) ∉ (twoIdle.after (tableEngine .own) revived).shared.engine ∧
      (twoIdle.after (tableEngine .own) revived).shared.registry.find? "t" = some firstTable := by
    decide +kernel
  have hforgotten : (twoIdle.after (tableEngine .own) forgotten).flights.isEmpty = true ∧
      ("t" : Text) ∈ (twoIdle.after (tableEngine .own) forgotten).shared.engine ∧
      (twoIdle.after (tableEngine .own) forgotten).shared.registry.find? "t" = none := by
    decide +kernel
  have hmistaken : (twoIdle.after (tableEngine .own) mistaken).flights.isEmpty = true ∧
      (twoIdle.after (tableEngine .own) mistaken).shared.registry.find? "t" = some firstTable := by
    decide +kernel
  refine ⟨⟨List.isEmpty_iff.1 hrevived.1, hrevived.2⟩,
    ⟨List.isEmpty_iff.1 hforgotten.1, hforgotten.2⟩,
    List.isEmpty_iff.1 hmistaken.1, hmistaken.2, ?_⟩
  rintro ⟨c, hrecords, hmade⟩
  obtain ⟨second, hsecond, hlatest⟩ := madeBy_mistaken
  obtain rfl := hmade.unique hlatest Move.Defines.unique
  cases hsecond
  cases hrecords.columns with
  | cons hcolumn hlater => exact absurd hcolumn.name (by decide)

end Traffic

end PgGateway
