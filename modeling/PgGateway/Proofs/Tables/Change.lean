import Mathlib.Data.Finset.Basic
import PgGateway.Proofs.Session.Failure
import PgGateway.Proofs.Sql.OneStatement
import PgGateway.Proofs.Text.LetterCase

/-!
# What the engine does to tables

The engine knows a statement by its text only, and keeps its tables as the text asks it to
(`Engine.KeepsTables`). The registry knows a statement by what the client's text was recognised as.
That both speak of one table has to be read back from the text for the engine
(`TableChange.asks_of_translate`).

How the engine reads names is a parameter (`NameReading`). A name that is a word or stands in double
quotes is read alike by all; nothing is known of other spellings. Definitions are written anew, so
their names are such names. A `DROP TABLE` is passed on as it is, and what it drops is known only if
the engine reads its name as it is read here (`NameReading.Agrees`).
-/

namespace PgGateway

open Sql

variable {σ : Type}

/-! ## How names are read -/

/-- How an engine reads the name of a table off the tokens that begin with it. Names that are words
or stand in double quotes it reads as they are read here, and any schema it leaves out. -/
structure NameReading where
  read : List Token → Option Text
  plain : ∀ (n : TableName) (rest : List Token), (∀ u ∈ rest.head?, u.isSymbol '.' = false) →
    read (n.tokens ++ rest) = some n.name.1.name

/-- The tokens behind `DROP TABLE` and its guard, if a statement begins so. -/
def Sql.dropped? : List Token → Option (List Token)
  | verb :: object :: rest =>
    if verb.isKeyword "DROP" && object.isKeyword "TABLE" then some (readGuard rest).2 else none
  | _ => none

namespace NameReading

/-- The name of a table that the text drops, if it drops one, is read as it is read here. -/
def Agrees (reading : NameReading) (sql : Text) : Prop :=
  ∀ ts, readTokens (normalize sql) = .ok ts → ∀ us ∈ dropped? ts, reading.read us = tableNamed us

instance (reading : NameReading) (sql : Text) : Decidable (reading.Agrees sql) :=
  match h : readTokens (normalize sql) with
  | .ok ts => decidable_of_iff (∀ us ∈ dropped? ts, reading.read us = tableNamed us)
      ⟨fun hts us hus => by rw [h] at hus; cases hus; exact hts, fun hagrees => hagrees ts h⟩
  | .error _ => .isTrue fun us hus => by rw [h] at hus; cases hus

/-- **A plain name is read alike by every engine.** -/
theorem agrees_of_plain (reading : NameReading) {sql : Text}
    (h : ∀ ts, readTokens (normalize sql) = .ok ts → ∀ us ∈ dropped? ts,
      ∃ (n : TableName) (rest : List Token), us = n.tokens ++ rest ∧
        ∀ u ∈ rest.head?, u.isSymbol '.' = false) :
    reading.Agrees sql := by
  intro ts hts us hus
  obtain ⟨n, rest, rfl, hrest⟩ := h ts hts us hus
  rw [reading.plain n rest hrest, tableNamed, readTableName_tokens n hrest]
  rfl

/-- Names are read as they are here. -/
def own : NameReading where
  read := tableNamed
  plain n rest hrest := by
    rw [tableNamed, readTableName_tokens n hrest]
    rfl

theorem agrees_own (sql : Text) : own.Agrees sql := fun _ _ _ _ => rfl

/-- The name that a token stands for where a text in single quotes is taken for a name too. -/
def anyName? (t : Token) : Option Text :=
  if t.isName then some t.name
  else if t.kind = .string then some (Text.halve '\'' t.text.tail.dropLast)
  else none

/-- The table named at the start of a run of tokens, perhaps in single quotes. -/
def anyNamed : List Token → Option Text
  | [] => none
  | [t] | [t, _] => anyName? t
  | t :: dot :: u :: _ => if dot.isSymbol '.' then anyName? u else anyName? t

/-- A text in single quotes is read as a name too. -/
def anyQuotes : NameReading where
  read := anyNamed
  plain n rest hrest := by
    have hname : anyName? n.name.1 = some n.name.1.name := if_pos n.name.2
    obtain ⟨schema, name⟩ := n
    cases schema with
    | some qualifier =>
      obtain ⟨schema, dot⟩ := qualifier
      exact (if_pos dot.2).trans hname
    | none =>
      cases rest with
      | nil => exact hname
      | cons dot rest =>
        cases rest with
        | nil => exact hname
        | cons u rest => exact (if_neg (by simp [hrest dot rfl])).trans hname

end NameReading

/-! ## Changes of the tables -/

/-- A change of the tables that a text asks for. -/
inductive TableChange
  /-- The table is made; if the change is guarded, only if there is none of the name. -/
  | create (guarded : Bool) (table : Text)
  /-- The table is dropped; if the change is guarded, only if there is one of the name. -/
  | drop (guarded : Bool) (table : Text)
deriving DecidableEq, Repr

namespace TableChange

/-- Reads `CREATE TABLE` or `DROP TABLE` and the name behind it. -/
def ofTokens (reading : NameReading) : List Token → Option TableChange
  | verb :: object :: rest =>
    let named := readGuard rest
    if object.isKeyword "TABLE" then
      if verb.isKeyword "CREATE" then
        (reading.read named.2).map (create (named.1 == .ifNotExists))
      else if verb.isKeyword "DROP" then (reading.read named.2).map (drop (named.1 == .ifExists))
      else none
    else none
  | _ => none

/-- The change that a text asks for, if it asks for one. -/
def ofText (reading : NameReading) (sql : Text) : Option TableChange :=
  match readTokens sql with
  | .ok ts => ofTokens reading ts
  | .error _ => none

/-- The change is an error where it is not allowed: to make a table that is there, or to drop one
that is not, unless it is guarded. -/
def Allowed (tables : Set Text) : TableChange → Prop
  | create guarded table => Registry.key table ∈ tables → guarded = true
  | drop guarded table => Registry.key table ∉ tables → guarded = true

/-- The tables after a change. -/
def apply (tables : Set Text) : TableChange → Set Text
  | create _ table => insert (Registry.key table) tables
  | drop _ table => tables \ {Registry.key table}

end TableChange

/-- The engine keeps a set of tables, each under the key that the registry has for it. It makes the
changes that it carries out, of which none is an error, and no other statement that it is given
changes its tables. -/
structure Engine.KeepsTables (engine : Engine σ) (reading : NameReading) (tables : σ → Set Text) :
    Prop where
  carried : ∀ {call state result change}, (engine call state).1 = .ok result →
    TableChange.ofText reading call.sql = some change →
      change.Allowed (tables state) ∧ tables (engine call state).2 = change.apply (tables state)
  failed : ∀ {call state e}, (engine call state).1 = .error e →
    tables (engine call state).2 = tables state
  other : ∀ {sql t state}, translate sql = .ok t → TableChange.ofText reading t.text = none →
    tables (engine t.call state).2 = tables state

/-! ## An engine that only keeps tables -/

/-- The result of a statement that returns nothing. -/
def ResultSet.none : ResultSet := ⟨[], [], [], 0⟩

/-- An engine that fails only where a change is an error. -/
def tableEngine (reading : NameReading) : Engine (Finset Text) := fun call tables =>
  match TableChange.ofText reading call.sql with
  | none => (.ok .none, tables)
  | some (.create guarded table) =>
    if Registry.key table ∈ tables then
      if guarded then (.ok .none, tables)
      else (.error (.engine (.described ("table " ++ table ++ " already exists"))), tables)
    else (.ok .none, insert (Registry.key table) tables)
  | some (.drop guarded table) =>
    if Registry.key table ∈ tables then (.ok .none, tables.erase (Registry.key table))
    else if guarded then (.ok .none, tables)
    else (.error (.engine (.described ("no such table: " ++ table))), tables)

theorem keepsTables_tableEngine (reading : NameReading) :
    (tableEngine reading).KeepsTables reading fun tables => (tables : Set Text) where
  carried := by
    intro call tables result change hok hchange
    unfold tableEngine at hok ⊢
    rw [hchange] at hok ⊢
    cases change with
    | create guarded table =>
      by_cases hmem : Registry.key table ∈ tables
      · cases guarded with
        | false => simp [hmem] at hok
        | true => simp [TableChange.Allowed, TableChange.apply, hmem]
      · simp [TableChange.Allowed, TableChange.apply, hmem]
    | drop guarded table =>
      by_cases hmem : Registry.key table ∈ tables
      · simp [TableChange.Allowed, TableChange.apply, hmem]
      · cases guarded with
        | false => simp [hmem] at hok
        | true => simp [TableChange.Allowed, TableChange.apply, hmem]
  failed := by
    intro call tables e herror
    unfold tableEngine at herror ⊢
    split at herror
    · cases herror
    · split at herror
      · split at herror
        · cases herror
        · simp [*]
      · cases herror
    · split at herror
      · cases herror
      · split at herror
        · cases herror
        · simp [*]
  other := by
    intro sql t tables htranslate hnone
    have hcall : TableChange.ofText reading t.call.sql = none := hnone
    simp [tableEngine, hcall]

/-! ## Keywords -/

namespace Sql

variable {t : Token} {ts rest : List Token} {s : Statement}

theorem isKeyword_eq_false {v w : Text} (h : t.isKeyword v = true) (hne : ¬Text.SameWord v w) :
    t.isKeyword w = false := by
  simp only [Token.isKeyword, Bool.and_eq_true, beq_iff_eq] at h
  rw [Token.isKeyword, h.2, Bool.and_eq_false_iff]
  right
  simpa [Text.SameWord] using hne

/-- A token that spells `TABLE` in capitals is the keyword: it is in no quotes. -/
theorem isKeyword_table (h : t.Sound) :
    t.isKeyword "TABLE" = true ↔ Text.upper t.text = "TABLE" := by
  have hupper : Text.upper t.text = "TABLE" ↔ Text.SameWord t.text "TABLE" := by
    rw [Text.sameWord_iff_upper]
    rfl
  rw [hupper, Token.isKeyword, Bool.and_eq_true, beq_iff_eq, beq_iff_eq]
  refine and_iff_right_of_imp ?_
  intro hsame
  obtain ⟨c, cs, htext, -, hwhole⟩ := h.whole
  rw [htext] at hsame
  obtain ⟨hc, hcs⟩ : c.toLower = 't' ∧ Text.lower cs = "able" := List.cons.inj hsame
  -- a quote or a digit is no letter, and a symbol has no more characters
  generalize t.kind = kind at hwhole
  cases hwhole with
  | word => rfl
  | quoted hquote =>
    rcases hquote with rfl | rfl <;> exact absurd hc (by decide)
  | number hquote hdigit =>
    have hbounds : 48 ≤ c.toNat ∧ c.toNat ≤ 57 := by
      simpa [Char.isDigit, UInt32.le_iff_toNat_le] using hdigit
    have hletter := congrArg Char.toNat hc
    rw [toNat_toLower, if_neg (by omega)] at hletter
    have ht : ('t').toNat = 116 := rfl
    omega
  | symbol => cases hcs

end Sql

/-! ## Statements as changes -/

/-- The change is what the statement asks for. -/
def Statement.Asks (change : Option TableChange) : Statement → Prop
  | createTable c => change = some (.create c.ifNotExists c.table)
  | drop _ (some table) => ∃ guarded, change = some (.drop guarded table)
  | _ => change = none

namespace TableChange

variable {reading : NameReading} {t : Token} {ts rest : List Token} {s : Statement}

theorem ofTokens_eq_none {w : Text} (h : t.isKeyword w = true) (hcreate : ¬Text.SameWord w "CREATE")
    (hdrop : ¬Text.SameWord w "DROP") : ofTokens reading (t :: rest) = none := by
  cases rest with
  | nil => rfl
  | cons object rest =>
    rw [ofTokens, isKeyword_eq_false h hcreate, isKeyword_eq_false h hdrop]
    simp

theorem asks_readDrop (h : t.isKeyword "DROP" = true) (hsound : ∀ u ∈ rest, u.Sound)
    (hagrees : ∀ us ∈ dropped? (t :: rest), reading.read us = tableNamed us) :
    (Statement.readDrop rest).Asks (ofTokens reading (t :: rest)) := by
  cases rest with
  | nil => rfl
  | cons object rest =>
    have htable := isKeyword_table (hsound object (by simp))
    have hcreate : t.isKeyword "CREATE" = false := isKeyword_eq_false h (by decide)
    rw [ofTokens, hcreate, h]
    unfold Statement.readDrop
    by_cases hobject : Text.upper object.text = "TABLE"
    · have hread : reading.read (readGuard rest).2 = tableNamed (readGuard rest).2 := by
        apply hagrees
        rw [dropped?, h, htable.2 hobject]
        rfl
      simp only [hobject, htable.2 hobject, if_true, hread]
      cases tableNamed (readGuard rest).2 with
      | none => rfl
      | some table => exact ⟨_, rfl⟩
    · have hother : object.isKeyword "TABLE" = false := by
        rw [Bool.eq_false_iff]
        exact fun hkeyword => hobject (htable.1 hkeyword)
      simp only [hobject, hother, if_false]
      rfl

/-- What is passed on asks for what it was recognised as. -/
theorem asks_of_ofTokens (hsound : ∀ u ∈ ts, u.Sound)
    (hagrees : ∀ us ∈ dropped? ts, reading.read us = tableNamed us)
    (h : Statement.ofTokens ts = .ok s) (hpassed : ∀ c, s ≠ .createTable c) :
    s.Asks (ofTokens reading ts) := by
  cases ts with
  | nil => cases h
  | cons t rest =>
    rw [Statement.ofTokens] at h
    split at h
    · obtain ⟨c, -, rfl⟩ := map_eq_ok.1 (mapError_eq_ok.1 h)
      exact absurd rfl (hpassed c)
    · split at h
      · next hselect =>
        cases h
        rcases Bool.or_eq_true _ _ ▸ hselect with hselect | hwith
        · exact ofTokens_eq_none hselect (by decide) (by decide)
        · exact ofTokens_eq_none hwith (by decide) (by decide)
      · split at h
        · next hinsert =>
          obtain ⟨insertion, -, rfl⟩ := map_eq_ok.1 (mapError_eq_ok.1 h)
          exact ofTokens_eq_none hinsert (by decide) (by decide)
        · split at h
          · next hupdate =>
            cases h
            exact ofTokens_eq_none hupdate (by decide) (by decide)
          · split at h
            · next hdelete =>
              cases h
              exact ofTokens_eq_none hdelete (by decide) (by decide)
            · split at h
              · next hdrop =>
                cases h
                exact asks_readDrop hdrop (fun u hu => hsound u (List.mem_cons_of_mem t hu))
                  hagrees
              · cases h

/-- A written definition asks for its table, whatever else the engine takes for a name. -/
theorem ofTokens_write (c : CreateTable) (after : List Token) :
    ofTokens reading (c.tokens ++ after) = some (.create c.ifNotExists c.table) := by
  have hguard : readGuard (c.guardTokens ++ nameToken c.table :: (c.block.tokens ++ after)) =
      (if c.ifNotExists then .ifNotExists else .unguarded,
        nameToken c.table :: (c.block.tokens ++ after)) := by
    apply c.readGuard_guardTokens
    intro u hu
    cases hu
    nofun
  have hname : reading.read (nameToken c.table :: (c.block.tokens ++ after)) = some c.table := by
    have hplain : reading.read (nameToken c.table :: (c.block.tokens ++ after)) =
        some (nameToken c.table).name := by
      apply reading.plain ⟨none, ⟨nameToken c.table, isName_nameToken c.table⟩⟩
      intro u hu
      cases hu
      rfl
    rw [hplain, name_nameToken]
  have htokens : c.tokens ++ after = ⟨[], .word, "CREATE"⟩ :: .bare "TABLE" ::
      (c.guardTokens ++ nameToken c.table :: (c.block.tokens ++ after)) := by
    simp [CreateTable.tokens, CreateTable.nameTokens]
  have hcreate : Token.isKeyword ⟨[], .word, "CREATE"⟩ "CREATE" = true := rfl
  have htable : (Token.bare "TABLE").isKeyword "TABLE" = true := rfl
  rw [htokens, ofTokens, hguard, hcreate, htable]
  dsimp only
  rw [hname]
  cases c.ifNotExists <;> rfl

/-- **The text for the engine asks for what the statement was recognised as**, if the engine reads
the name of a table that is dropped as it is read here. -/
theorem asks_of_translate {sql : Text} {t : Translated} (h : translate sql = .ok t)
    (hagrees : reading.Agrees sql) : t.statement.Asks (ofText reading t.text) := by
  obtain ⟨ts, s, hread, hs, rfl⟩ := translate_eq_ok.1 h
  have htokens := (readStatement_eq_ok.1 hread).1
  have hpassed : (∀ c, s ≠ .createTable c) → s.Asks (ofText reading (normalize sql)) := by
    intro hpassed
    rw [ofText, htokens]
    exact asks_of_ofTokens (clean_of_readStatement hread).1.spelled.sound (hagrees ts htokens) hs
      hpassed
  cases s with
  | createTable c =>
    show ofText reading c.write = _
    rw [ofText, readTokens_write (lifted_of_translate h rfl)]
    exact ofTokens_write c _
  | select table => exact hpassed nofun
  | insert insertion => exact hpassed nofun
  | update table => exact hpassed nofun
  | delete table => exact hpassed nofun
  | drop object table => exact hpassed nofun

end TableChange

/-! ## One table -/

/-- What a statement that was carried out did to the table of a key, which was there before or not,
and is there afterwards or not. -/
inductive TableEffect (k : Text) (before after : Prop) : Statement → Prop
  /-- The table was made, or was there and kept. -/
  | made {c : CreateTable} (named : Registry.key c.table = k)
    (guarded : before → c.ifNotExists = true) (live : after) : TableEffect k before after
      (.createTable c)
  | dropped {object : Option Text} {table : Text} (named : Registry.key table = k)
    (gone : ¬after) : TableEffect k before after (.drop object (some table))
  /-- The statement is about something else. -/
  | kept {statement : Statement} (same : after ↔ before)
    (unchanged : ∀ entry, Registry.entryAfter k entry statement = entry) :
    TableEffect k before after statement

/-- **The engine does to every table what the statement says.** -/
theorem Engine.KeepsTables.effect {engine : Engine σ} {reading : NameReading}
    {tables : σ → Set Text} (h : engine.KeepsTables reading tables) {sql : Text} {t : Translated}
    (ht : translate sql = .ok t) (hagrees : reading.Agrees sql) {state : σ} {result : ResultSet}
    (hok : (engine t.call state).1 = .ok result) (k : Text) :
    TableEffect k (k ∈ tables state) (k ∈ tables (engine t.call state).2) t.statement := by
  have hasks := TableChange.asks_of_translate ht hagrees
  have hother : TableChange.ofText reading t.text = none →
      (∀ entry, Registry.entryAfter k entry t.statement = entry) →
      TableEffect k (k ∈ tables state) (k ∈ tables (engine t.call state).2) t.statement := by
    intro hnone hentry
    have hsame : tables (engine t.call state).2 = tables state := h.other ht hnone
    exact .kept (by rw [hsame]) hentry
  cases hs : t.statement with
  | createTable c =>
    rw [hs] at hasks
    obtain ⟨hallowed, htables⟩ := h.carried hok hasks
    rw [htables]
    by_cases hk : Registry.key c.table = k
    · refine .made hk (fun hlive => hallowed (hk ▸ hlive)) ?_
      rw [← hk]
      exact Set.mem_insert _ _
    · refine .kept (by simp [TableChange.apply, Ne.symm hk]) ?_
      intro entry
      exact if_neg fun hmade => hk hmade.1
  | drop object table =>
    rw [hs] at hasks
    cases table with
    | none => exact hs ▸ hother hasks (by rw [hs]; exact fun _ => rfl)
    | some table =>
      obtain ⟨guarded, hchange⟩ := hasks
      obtain ⟨-, htables⟩ := h.carried hok hchange
      rw [htables]
      by_cases hk : Registry.key table = k
      · refine .dropped hk ?_
        rw [← hk]
        exact fun hmem => hmem.2 rfl
      · refine .kept (by simp [TableChange.apply, Ne.symm hk]) ?_
        intro entry
        exact if_neg hk
  | select | insert | update | delete =>
    rw [hs] at hasks
    exact hs ▸ hother hasks (by rw [hs]; exact fun _ => rfl)

end PgGateway
