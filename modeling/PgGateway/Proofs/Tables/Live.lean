import Mathlib.Data.List.Forall2
import PgGateway.Proofs.Sessions.Service
import PgGateway.Proofs.Tables.Change

/-!
# The registry follows the tables of the engine

However many sessions share an engine, as long as their requests are handled one after the other and
the engine reads the names of the tables they drop as they are read here, the registry knows just
the tables that the engine has, and knows each by the definition that made it
(`Service.registry_follows_tables`). The definition is told from the history of the table: there was
none of its name before, and there has been one ever since.

A name that the engine takes for one and the gateway does not is dropped unnoticed, and the table
stays known (`Service.quoted_drop_unnoticed`).
-/

namespace PgGateway

open Sql

variable {ι σ α : Type}

/-! ## What an entry holds -/

/-- What is known about a column is what its definition declares. -/
structure ColumnInfo.Records (info : ColumnInfo) (c : Column) : Prop where
  name : info.name = c.name
  type : info.type = c.type
  nullable : info.nullable = c.nullable
  defaultText : info.defaultText = c.defaultText
  primaryKey : info.primaryKey = c.primaryKey

/-- What is known about a table is its name and its columns as they were declared, in their
order. -/
structure TableInfo.Records (info : TableInfo) (c : CreateTable) : Prop where
  name : info.name = c.table
  columns : List.Forall₂ ColumnInfo.Records info.columns c.columns

theorem CreateTable.records_info (c : CreateTable) : c.info.Records c where
  name := rfl
  columns := List.forall₂_map_left_iff.2 (List.forall₂_same.2 fun _ _ => ⟨rfl, rfl, rfl, rfl, rfl⟩)

/-! ## Where an entry comes from -/

section History

-- the keys of the tables that there are after some steps, and the steps that define a table
variable {live : List α → Set Text} {makes : α → CreateTable → Prop} {k : Text}
  {start entry : Option TableInfo} {steps : List α} {a : α}

/-- The definition made the table that there is after these steps: it is of that key, there was none
of the key before its step, and there was one from then on. -/
def MadeBy (live : List α → Set Text) (makes : α → CreateTable → Prop) (k : Text) (steps : List α)
    (c : CreateTable) : Prop :=
  ∃ before a after, steps = before ++ a :: after ∧ makes a c ∧ Registry.key c.table = k ∧
    k ∉ live before ∧ ∀ later, later <+: after → k ∈ live (before ++ a :: later)

/-- What the entry of a key has to be: none where there is no table, and else the definition that
made the table, or the entry that it had at the start and has stood since. -/
inductive Describes (live : List α → Set Text) (makes : α → CreateTable → Prop) (k : Text)
    (start : Option TableInfo) (steps : List α) : Option TableInfo → Prop
  | absent (gone : k ∉ live steps) : Describes live makes k start steps none
  | made {c : CreateTable} (origin : MadeBy live makes k steps c) :
    Describes live makes k start steps (some c.info)
  | kept {info : TableInfo} (initial : start = some info)
    (stood : ∀ before, before <+: steps → k ∈ live before) :
    Describes live makes k start steps (some info)

theorem MadeBy.stands {c : CreateTable} (h : MadeBy live makes k steps c) : k ∈ live steps := by
  obtain ⟨before, a, after, rfl, -, -, -, hlive⟩ := h
  exact hlive after (List.prefix_refl after)

/-- A table that stays is still the one that was made. -/
theorem MadeBy.extend {c : CreateTable} (h : MadeBy live makes k steps c)
    (hlive : k ∈ live (steps ++ [a])) : MadeBy live makes k (steps ++ [a]) c := by
  obtain ⟨before, b, after, rfl, hmakes, hkey, hnew, hafter⟩ := h
  refine ⟨before, b, after ++ [a], by simp, hmakes, hkey, hnew, ?_⟩
  intro later hlater
  rcases List.prefix_concat_iff.1 hlater with rfl | hlater
  · simpa using hlive
  · exact hafter later hlater

/-- The step that made a table is no earlier than any at which there was none of its key. -/
theorem prefix_of_lasting {before before' after after' : List α} {a' : α}
    (hsteps : before ++ a :: after = before' ++ a' :: after')
    (hlasting : ∀ later, later <+: after → k ∈ live (before ++ a :: later))
    (hnew : k ∉ live before') : before' <+: before := by
  rcases List.append_eq_append_iff.1 hsteps with ⟨gap, hbefore, hafter⟩ | ⟨gap, hbefore, -⟩
  · cases gap with
    | nil => simp [hbefore]
    | cons b gap =>
      obtain ⟨rfl, rfl⟩ := List.cons.inj hafter
      exact absurd (hlasting gap (List.prefix_append gap _)) (hbefore ▸ hnew)
  · exact ⟨gap, hbefore.symm⟩

/-- **One definition made the table** if a step defines no more than one. -/
theorem MadeBy.unique {c d : CreateTable} (hc : MadeBy live makes k steps c)
    (hd : MadeBy live makes k steps d) (hmakes : ∀ {a c d}, makes a c → makes a d → c = d) :
    c = d := by
  obtain ⟨before, a, after, rfl, hac, -, hnew, hlasting⟩ := hc
  obtain ⟨before', a', after', hsteps, hac', -, hnew', hlasting'⟩ := hd
  have hbefore : before' <+: before := prefix_of_lasting hsteps hlasting hnew'
  have hbefore' : before <+: before' := prefix_of_lasting hsteps.symm hlasting' hnew
  obtain rfl := hbefore.eq_of_length (le_antisymm hbefore.length_le hbefore'.length_le)
  obtain rfl := (List.cons.inj (List.append_cancel_left hsteps)).1
  exact hmakes hac hac'

theorem Describes.isSome_iff (h : Describes live makes k start steps entry) :
    entry.isSome = true ↔ k ∈ live steps := by
  cases h with
  | absent gone => simpa using gone
  | made hmade => simpa using hmade.stands
  | kept initial stood => simpa using stood steps (List.prefix_refl steps)

theorem Describes.initial (h : k ∈ live [] ↔ start.isSome = true) :
    Describes live makes k start [] start := by
  cases start with
  | none => exact .absent (by simp [h])
  | some info =>
    refine .kept rfl ?_
    intro before hbefore
    obtain rfl := List.prefix_nil.1 hbefore
    exact h.2 rfl

/-- A step that neither makes nor drops the table leaves it described. -/
theorem Describes.extend (h : Describes live makes k start steps entry)
    (hsame : k ∈ live (steps ++ [a]) ↔ k ∈ live steps) :
    Describes live makes k start (steps ++ [a]) entry := by
  cases h with
  | absent gone => exact .absent (hsame.not.2 gone)
  | made hmade => exact .made (hmade.extend (hsame.2 hmade.stands))
  | kept initial stood =>
    refine .kept initial ?_
    intro before hbefore
    rcases List.prefix_concat_iff.1 hbefore with rfl | hbefore
    · exact hsame.2 (stood steps (List.prefix_refl steps))
    · exact stood before hbefore

/-- **Recording a statement keeps the table described** if the engine did what the statement
says. -/
theorem Describes.record (h : Describes live makes k start steps entry) {statement : Statement}
    (hmakes : ∀ c, statement = .createTable c → makes a c)
    (heffect : TableEffect k (k ∈ live steps) (k ∈ live (steps ++ [a])) statement) :
    Describes live makes k start (steps ++ [a]) (Registry.entryAfter k entry statement) := by
  cases heffect with
  | @made c named guarded hlive =>
    unfold Registry.entryAfter
    dsimp only
    by_cases hknown : k ∈ live steps
    · -- the table was there, so that the definition left it alone
      rw [if_neg (fun hmade => hmade.2 ⟨guarded hknown, h.isSome_iff.2 hknown⟩)]
      exact h.extend (iff_of_true hlive hknown)
    · rw [if_pos ⟨named, fun hkept => hknown (h.isSome_iff.1 hkept.2)⟩]
      refine .made ⟨steps, a, [], by simp, hmakes c rfl, named, hknown, ?_⟩
      intro later hlater
      obtain rfl := List.prefix_nil.1 hlater
      exact hlive
  | dropped named gone =>
    unfold Registry.entryAfter
    dsimp only
    rw [if_pos named]
    exact .absent gone
  | kept same unchanged =>
    rw [unchanged]
    exact h.extend same

/-- A statement that the engine answers keeps the table described, whatever the answer. -/
theorem Describes.answer (h : Describes live makes k start steps entry) {engine : Engine σ}
    {reading : NameReading} {tables : σ → Set Text} (hkeeps : engine.KeepsTables reading tables)
    {sql : Text} {t : Translated} (htranslate : translate sql = .ok t)
    (hagrees : reading.Agrees sql) {state : σ}
    (hmakes : ∀ c, t.statement = .createTable c → makes a c) (hbefore : live steps = tables state)
    (hafter : live (steps ++ [a]) = tables (engine t.call state).2) :
    Describes live makes k start (steps ++ [a])
      (Registry.entryOn k entry t.statement (engine t.call state).1) := by
  cases houtcome : (engine t.call state).1 with
  | error e =>
    refine h.extend ?_
    rw [hafter, hbefore, hkeeps.failed houtcome]
  | ok result =>
    refine h.record hmakes ?_
    rw [hbefore, hafter]
    exact hkeeps.effect htranslate hagrees houtcome k

end History

/-! ## Requests one after the other -/

/-- The request is a query for the definition. -/
def Request.Defines (request : Request) (c : CreateTable) : Prop :=
  ∃ sql t, request = .message (.query sql) ∧ translate sql = .ok t ∧ t.statement = .createTable c

/-- The text of a query. -/
def Request.query? : Request → Option Text
  | .message (.query sql) => some sql
  | _ => none

theorem Plan.translate_of_statement? {sql : Text} {t : Translated}
    (h : (Plan.ofText sql).statement? = some t) : translate sql = .ok t := by
  unfold Plan.ofText at h
  split at h
  · cases h
  · split at h
    · cases h
    · next htranslate =>
      cases h
      exact htranslate

theorem Session.translate_of_asked {s : Session} {request : Request} {t : Translated}
    (h : s.asked request = some t) :
    ∃ sql, request = .message (.query sql) ∧ translate sql = .ok t := by
  unfold asked at h
  split at h
  · next sql =>
    split at h
    · exact ⟨sql, rfl, Plan.translate_of_statement? h⟩
    · cases h
  · cases h

namespace Service

variable [DecidableEq ι] {engine : Engine σ} {reading : NameReading} {tables : σ → Set Text}

/-- The keys of the tables that there are after requests. -/
def tablesAfter (engine : Engine σ) (tables : σ → Set Text) (v : Service ι σ)
    (requests : List (ι × Request)) : Set Text :=
  tables (v.after engine requests).shared.engine

/-- What the registry knows of a key describes its table after every run. -/
theorem describes_after (hkeeps : engine.KeepsTables reading tables) (v : Service ι σ) (k : Text)
    (hstart : k ∈ tables v.shared.engine ↔ (v.shared.registry.find? k).isSome = true)
    (requests : List (ι × Request))
    (hagrees : ∀ step ∈ requests, ∀ sql ∈ step.2.query?, reading.Agrees sql) :
    Describes (v.tablesAfter engine tables) (fun step c => step.2.Defines c) k
      (v.shared.registry.find? k) requests
      ((v.after engine requests).shared.registry.find? k) := by
  induction requests using List.reverseRecOn with
  | nil => exact .initial hstart
  | append_singleton requests last ih =>
    obtain ⟨i, request⟩ := last
    obtain ⟨hbefore, hlast⟩ := List.forall_mem_append.1 hagrees
    have hdescribes := ih hbefore
    have hshared : (v.after engine (requests ++ [(i, request)])).shared =
        (((v.after engine requests).sessions i).handle engine request
          (v.after engine requests).shared).2.2 := by
      rw [after_concat]
      rfl
    have htables : v.tablesAfter engine tables (requests ++ [(i, request)]) =
        tables (((v.after engine requests).sessions i).handle engine request
          (v.after engine requests).shared).2.2.engine := by
      rw [tablesAfter, hshared]
    rw [hshared]
    cases hasked : ((v.after engine requests).sessions i).asked request with
    | none =>
      obtain ⟨response, next, hhandle⟩ := Session.handle_quiet hasked
      rw [hhandle] at htables ⊢
      exact hdescribes.extend (by rw [htables]; rfl)
    | some t =>
      obtain ⟨sql, rfl, htranslate⟩ := Session.translate_of_asked hasked
      have hsame : reading.Agrees sql := hlast _ (List.mem_singleton_self _) sql rfl
      rw [Session.handle_asked hasked] at htables ⊢
      dsimp only at htables ⊢
      rw [Session.find?_complete]
      refine hdescribes.answer hkeeps htranslate hsame ?_ rfl htables
      intro c hc
      exact ⟨sql, t, rfl, htranslate, hc⟩

/-- **The registry follows the tables of the engine.** Where an engine that keeps tables starts
without any, and the registry too, and the engine reads the names of the tables that are dropped as
they are read here, the registry knows after every run the tables that the engine has and no others.
Of each it has the name and the columns that the definition declares that made it: their types,
whether they hold NULL, their defaults and the key. -/
theorem registry_follows_tables (hkeeps : engine.KeepsTables reading tables) (v : Service ι σ)
    (hregistry : v.shared.registry = .empty) (htables : tables v.shared.engine = ∅)
    (requests : List (ι × Request))
    (hagrees : ∀ step ∈ requests, ∀ sql ∈ step.2.query?, reading.Agrees sql) (k : Text) :
    (((v.after engine requests).shared.registry.find? k).isSome = true ↔
      k ∈ v.tablesAfter engine tables requests) ∧
    ∀ info, (v.after engine requests).shared.registry.find? k = some info →
      ∃ c, info.Records c ∧
        MadeBy (v.tablesAfter engine tables) (fun step c => step.2.Defines c) k requests c := by
  have hnone : v.shared.registry.find? k = none := by
    rw [hregistry]
    rfl
  have hdescribes := describes_after hkeeps v k (by simp [htables, hnone]) requests hagrees
  refine ⟨hdescribes.isSome_iff, ?_⟩
  intro info hinfo
  rw [hinfo] at hdescribes
  cases hdescribes with
  | @made c hmade => exact ⟨c, c.records_info, hmade⟩
  | kept initial stood =>
    rw [hnone] at initial
    cases initial

/-- Two open sessions on an engine without tables. -/
def twoOpen : Service Bool (Finset Text) where
  sessions _ := Session.readySession
  shared := ⟨.empty, ∅⟩

/-- A table is made, made again in vain, dropped, made anew, and left alone. -/
def remade : List (Bool × Request) :=
  [(false, .message (.query "CREATE TABLE T (a INT)")),
    (true, .message (.query "CREATE TABLE t (b TEXT)")),
    (true, .message (.query "DROP TABLE main.\"t\"")),
    (true, .message (.query
      "CREATE TABLE IF NOT EXISTS t (a BIGINT PRIMARY KEY, b REAL NOT NULL, c TEXT DEFAULT 'x')")),
    (false, .message (.query "CREATE TABLE IF NOT EXISTS T (a REAL)"))]

/-- The table as it was made anew. -/
def remadeTable : TableInfo where
  name := "t"
  columns :=
    [ { name := "a", type := .bigInt, nullable := false, defaultText := none, primaryKey := true },
      { name := "b", type := .real, nullable := false, defaultText := none, primaryKey := false },
      { name := "c", type := .text, nullable := true, defaultText := some "'x'",
        primaryKey := false } ]

/-- The engine takes names in single quotes as well, of which there are none. -/
theorem registry_follows_tables_remade :
    (twoOpen.after (tableEngine .anyQuotes) remade).shared.registry.find? "t" = some remadeTable ∧
    ("t" : Text) ∈ twoOpen.tablesAfter (tableEngine .anyQuotes) (fun tables => ↑tables) remade ∧
    ∃ c, remadeTable.Records c ∧
      MadeBy (twoOpen.tablesAfter (tableEngine .anyQuotes) fun tables => ↑tables)
        (fun step c => step.2.Defines c) "t" remade c := by
  have hfound : (twoOpen.after (tableEngine .anyQuotes) remade).shared.registry.find? "t" =
      some remadeTable := by
    decide +kernel
  obtain ⟨hsome, horigin⟩ := registry_follows_tables (keepsTables_tableEngine .anyQuotes) twoOpen rfl
    (by simp [twoOpen]) remade (by decide +kernel) "t"
  exact ⟨hfound, hsome.1 (by rw [hfound]; rfl), horigin remadeTable hfound⟩

/-! ## Tables that are dropped unnoticed -/

/-- A table is made, and dropped by its name in single quotes. -/
def droppedInQuotes : List (Bool × Request) :=
  [(false, .message (.query "CREATE TABLE t (a INT)")),
    (false, .message (.query "DROP TABLE 't'"))]

/-- It is then made anew, with another column. -/
def remadeUnknown : List (Bool × Request) :=
  droppedInQuotes ++
    [(true, Request.message (.query "CREATE TABLE IF NOT EXISTS t (b TEXT)"))]

/-- The table as it was made first. -/
def staleTable : TableInfo where
  name := "t"
  columns :=
    [ { name := "a", type := .integer, nullable := true, defaultText := none,
        primaryKey := false } ]

/-- **A table that is dropped by a name in single quotes stays known.** An engine that takes such a
text for a name drops the table, and the entry is not removed; when a table of that name is made
anew, it is known by the columns of the one before. -/
theorem quoted_drop_unnoticed :
    (tableEngine .anyQuotes).KeepsTables .anyQuotes (fun tables => (tables : Set Text)) ∧
    (("t" : Text) ∉
        twoOpen.tablesAfter (tableEngine .anyQuotes) (fun tables => ↑tables) droppedInQuotes ∧
      (twoOpen.after (tableEngine .anyQuotes) droppedInQuotes).shared.registry.find? "t" =
        some staleTable) ∧
    (("t" : Text) ∈
        twoOpen.tablesAfter (tableEngine .anyQuotes) (fun tables => ↑tables) remadeUnknown ∧
      (twoOpen.after (tableEngine .anyQuotes) remadeUnknown).shared.registry.find? "t" =
        some staleTable) := by
  have hdropped : ("t" : Text) ∉
        (twoOpen.after (tableEngine .anyQuotes) droppedInQuotes).shared.engine ∧
      (twoOpen.after (tableEngine .anyQuotes) droppedInQuotes).shared.registry.find? "t" =
        some staleTable := by
    decide +kernel
  have hremade : ("t" : Text) ∈ (twoOpen.after (tableEngine .anyQuotes) remadeUnknown).shared.engine ∧
      (twoOpen.after (tableEngine .anyQuotes) remadeUnknown).shared.registry.find? "t" =
        some staleTable := by
    decide +kernel
  exact ⟨keepsTables_tableEngine .anyQuotes, hdropped, hremade⟩

end Service

end PgGateway
