import PgGateway.Proofs.Sql.Clauses

/-!
# Columns read back

A column is written as its name, its storage type, whether it holds NULL, its keys, its default and
its clauses. Read back it is the same column, of the type that its storage type stands for, with
its nullability said and its default as it was written (`Column.rewritten`).
-/

namespace PgGateway

open Sql

/-- The declared type with the name of a storage type. -/
def StorageType.declared : StorageType → ColumnType
  | integer => .integer
  | real => .real
  | text => .text

@[simp] theorem StorageType.storage_declared (s : StorageType) : s.declared.storage = s := by
  cases s <;> rfl

@[simp] theorem ColumnType.ofWords_storage (s : StorageType) :
    ColumnType.ofWords [s.name] = s.declared := by
  cases s <;> decide

namespace Sql

variable {x : Text} {t : Token} {ts us : List Token} {items items' : List ColumnItem}

/-- The clause is a complete run of tokens: its parentheses match, and no comma stands outside
them. -/
def IsWhole (clause : Text) : Prop := ∃ ts, readTokens clause = .ok ts ∧ Enclosed ts

instance (clause : Text) : Decidable (IsWhole clause) :=
  match h : readTokens clause with
  | .error e => .isFalse fun ⟨ts, hts, _⟩ => by rw [h] at hts; cases hts
  | .ok ts => decidable_of_iff (Enclosed ts)
      ⟨fun henclosed => ⟨ts, h, henclosed⟩, fun ⟨us, hus, henclosed⟩ => by
        rw [h] at hus; cases hus; exact henclosed⟩

theorem IsWhole.enclosed (h : IsWhole x) (hx : Excerpt x us) : Enclosed us := by
  obtain ⟨ts, hread, henclosed⟩ := h
  rw [hx.read] at hread
  cases hread
  exact henclosed

/-! ## Words that say one thing -/

/-- The tokens say just these things of a column, whatever is behind them. -/
def Says (ts : List Token) (items : List ColumnItem) : Prop :=
  ∀ rest, readItems (ts ++ rest) = (readItems rest).map (items ++ ·)

theorem says_nil : Says [] [] := by
  intro rest
  cases h : readItems rest <;> simp [h, Except.map]

theorem Says.append (hts : Says ts items) (hus : Says us items') :
    Says (ts ++ us) (items ++ items') := by
  intro rest
  rw [List.append_assoc, hts, hus]
  cases readItems rest <;> simp [Except.map]

theorem says_type (s : StorageType) : Says [.bare s.name] [.typeWord s.name] := by
  intro rest
  apply readItems_word rfl
  cases s <;> rfl

theorem says_null : Says [.bare "NULL"] [.null] := fun _ => readItems_word rfl rfl

theorem says_notNull : Says [.bare "NOT", .bare "NULL"] [.notNull] :=
  fun _ => readItems_word rfl rfl

theorem says_primaryKey : Says [.bare "PRIMARY", .bare "KEY"] [.primaryKey] :=
  fun _ => readItems_word rfl rfl

theorem says_unique : Says [.bare "UNIQUE"] [.unique] := fun _ => readItems_word rfl rfl

theorem readItem_default {clause rest rest' : List Token}
    (h : readClause rest = .ok (clause, rest')) (hne : clause ≠ []) :
    readItem (.bare "DEFAULT") rest = .ok (.default (Token.verbatim clause), rest') := by
  have hkeyword : ColumnKeyword.ofToken? (.bare "DEFAULT") = some .default := by decide
  simp only [readItem, hkeyword, h]
  rw [if_neg (by simpa using hne)]

/-! ## A written column -/

/-- The tokens of a default as it is written. -/
def defaultTokens : Option Text → List Token
  | some expression => .bare "DEFAULT" :: spacedTokens (writeDefault expression)
  | none => []

end Sql

namespace Column

variable {c : Column} {inlineKey : Bool}

/-- The tokens of a column as it is written, all but its default and its clauses. -/
def headTokens (inlineKey : Bool) (c : Column) : List Token :=
  [.bare c.type.storage.name] ++
    (if c.nullable then [.bare "NULL"] else [.bare "NOT", .bare "NULL"]) ++
    (if c.primaryKey && inlineKey then [.bare "PRIMARY", .bare "KEY"] else []) ++
    (if c.unique then [.bare "UNIQUE"] else [])

/-- The tokens of a column as it is written. -/
def tokens (inlineKey : Bool) (c : Column) : List Token :=
  nameToken c.name ::
    (c.headTokens inlineKey ++ (defaultTokens c.defaultText ++ c.constraints.flatMap spacedTokens))

/-- The column as it is read back: its key is said in it if `inlineKey` holds. -/
def readBack (inlineKey : Bool) (c : Column) : Column where
  name := c.name
  type := c.type.storage.declared
  primaryKey := c.primaryKey && inlineKey
  autoIncrement := false
  nullability := some c.nullable
  unique := c.unique
  defaultText := c.defaultText.map writeDefault
  constraints := c.constraints

/-- What is known of a column that was read. -/
structure Lifted (c : Column) : Prop where
  default : ∀ e, c.defaultText = some e → ∃ us, Excerpt e us
  clauses : Clauses c.constraints

/-- What makes a column readable when it is written. -/
structure Readable (c : Column) : Prop where
  default : ∀ e, c.defaultText = some e → ∃ us, Excerpt e us ∧ Enclosed us
  clauses : Clauses c.constraints
  whole : ∀ x ∈ c.constraints, IsWhole x

theorem Readable.lifted (h : c.Readable) : c.Lifted := by
  refine ⟨?_, h.clauses⟩
  intro e he
  obtain ⟨us, hus, -⟩ := h.default e he
  exact ⟨us, hus⟩

theorem Readable.written (h : c.Readable) {e : Text} (he : c.defaultText = some e) :
    ∃ vs, Excerpt (writeDefault e) vs ∧ Enclosed vs ∧ isLiteral vs = true ∧
      writeDefault (writeDefault e) = writeDefault e := by
  obtain ⟨us, hus, henclosed⟩ := h.default e he
  exact writeDefault_literal hus henclosed

/-- The items of the head of a written column. -/
def headItems (inlineKey : Bool) (c : Column) : List ColumnItem :=
  [.typeWord c.type.storage.name] ++ [if c.nullable then .null else .notNull] ++
    (if c.primaryKey && inlineKey then [.primaryKey] else []) ++
    (if c.unique then [.unique] else [])

theorem says_head (inlineKey : Bool) (c : Column) :
    Says (c.headTokens inlineKey) (c.headItems inlineKey) := by
  unfold headTokens headItems
  apply Says.append
  · apply Says.append
    · apply Says.append
      · exact says_type c.type.storage
      · split
        · exact says_null
        · exact says_notNull
    · split
      · exact says_primaryKey
      · exact says_nil
  · split
    · exact says_unique
    · exact says_nil

theorem readItems_tail (h : c.Readable) :
    readItems (defaultTokens c.defaultText ++ c.constraints.flatMap spacedTokens) =
      .ok ((c.defaultText.map writeDefault).toList.map .default ++
        c.constraints.map .forwarded) := by
  obtain ⟨hread, hbegins⟩ := readItems_clauses h.clauses
  cases hdefault : c.defaultText with
  | none => simpa [defaultTokens] using hread
  | some e =>
    obtain ⟨vs, hvs, -, hliteral, -⟩ := h.written hdefault
    have hitem := readItem_default (readClause_literal [' '] hliteral hbegins)
      (setGap_ne_nil hvs.nonempty)
    rw [verbatim_setGap, hvs.verbatim] at hitem
    rw [defaultTokens, hvs.spacedTokens, List.cons_append, readItems_word rfl hitem, hread]
    rfl

/-- The items of a written column. -/
def items (inlineKey : Bool) (c : Column) : List ColumnItem :=
  c.headItems inlineKey ++ ((c.defaultText.map writeDefault).toList.map .default ++
    c.constraints.map .forwarded)

theorem ofItems_items (inlineKey : Bool) (c : Column) :
    ofItems c.name (c.items inlineKey) = c.readBack inlineKey := by
  have hwords : (c.items inlineKey).filterMap (·.typeWord?) = [c.type.storage.name] := by
    unfold items headItems
    cases c.nullable <;> cases c.primaryKey && inlineKey <;> cases c.unique <;>
      simp [ColumnItem.typeWord?]
  have hdefaults : (c.items inlineKey).filterMap (·.default?) =
      (c.defaultText.map writeDefault).toList := by
    unfold items headItems
    cases c.nullable <;> cases c.primaryKey && inlineKey <;> cases c.unique <;>
      simp [ColumnItem.default?]
  have hclauses : (c.items inlineKey).filterMap (·.forwarded?) = c.constraints := by
    unfold items headItems
    cases c.nullable <;> cases c.primaryKey && inlineKey <;> cases c.unique <;>
      simp [ColumnItem.forwarded?]
  have hflags : (c.items inlineKey).contains .primaryKey = (c.primaryKey && inlineKey) ∧
      (c.items inlineKey).contains .identity = false ∧
      (c.items inlineKey).contains .notNull = !c.nullable ∧
      (c.items inlineKey).contains .null = c.nullable ∧
      (c.items inlineKey).contains .unique = c.unique := by
    unfold items headItems
    cases c.nullable <;> cases c.primaryKey && inlineKey <;> cases c.unique <;> simp
  obtain ⟨hkey, hidentity, hnotNull, hnull, hunique⟩ := hflags
  -- storage types are no serial ones, so that the column does not number itself any more
  have hserial : ColumnType.mentions [c.type.storage.name] ColumnType.serialWords = false := by
    cases c.type.storage <;> decide
  simp only [ofItems, hwords, hdefaults, hclauses, hkey, hidentity, hnotNull, hnull, hunique,
    hserial]
  unfold readBack
  cases c.nullable <;> cases c.defaultText <;> simp

/-- **A written column is read back.** -/
theorem ofTokens_tokens (h : c.Readable) :
    ofTokens (c.tokens inlineKey) = .ok (c.readBack inlineKey) := by
  rw [tokens, ofTokens, if_pos (isName_nameToken c.name), says_head, readItems_tail h,
    name_nameToken]
  exact congrArg Except.ok (ofItems_items inlineKey c)

/-! ## The text of a written column -/

theorem render_tokens (h : c.Lifted) :
    Token.render (c.tokens inlineKey) = ' ' :: c.write inlineKey := by
  have hclauses : Token.render (c.constraints.flatMap spacedTokens) =
      c.constraints.flatMap (' ' :: ·) := render_excerpts h.clauses.excerpt
  have hdefault : Token.render (defaultTokens c.defaultText) =
      (match c.defaultText with
        | some expression => " DEFAULT " ++ writeDefault expression
        | none => []) := by
    cases hdefault : c.defaultText with
    | none => rfl
    | some e =>
      obtain ⟨us, hus⟩ := h.default e hdefault
      obtain ⟨vs, hvs⟩ := hus.writeDefault
      rw [defaultTokens, Token.render_cons, hvs.render_spacedTokens]
      simp [Token.bare]
  have hhead : Token.render (c.headTokens inlineKey) =
      " " ++ c.type.storage.name ++ Text.only (!c.nullable) " NOT" ++ " NULL" ++
        Text.only (c.primaryKey && inlineKey) " PRIMARY KEY" ++ Text.only c.unique " UNIQUE" := by
    unfold headTokens
    cases c.nullable <;> cases c.primaryKey && inlineKey <;> cases c.unique <;>
      simp [Token.bare, Text.only]
  rw [tokens, Token.render_cons, Token.render_append, Token.render_append, hclauses, hdefault,
    hhead, gap_nameToken, text_nameToken, write]
  cases c.defaultText <;> simp

theorem chunk_head : Chunk (c.headTokens inlineKey) := by
  unfold headTokens
  refine ((Chunk.append (.bare ?_) ?_).append ?_).append ?_
  · cases c.type.storage <;> decide
  · split
    · exact .bare (by decide)
    · exact (Chunk.bare (by decide)).append (.bare (by decide))
  · split
    · exact (Chunk.bare (by decide)).append (.bare (by decide))
    · exact .nil
  · split
    · exact .bare (by decide)
    · exact .nil

/-- The tokens of a column can be written one after the other, complete or not. -/
theorem spaced_tokens (h : c.Lifted) : Spaced (c.tokens inlineKey) := by
  have hdefault : Spaced (defaultTokens c.defaultText) := by
    cases hdefault : c.defaultText with
    | none => exact .nil
    | some e =>
      obtain ⟨us, hus⟩ := h.default e hdefault
      obtain ⟨vs, hvs⟩ := hus.writeDefault
      exact (Chunk.bare (w := "DEFAULT") (by decide)).toSpaced.append hvs.spaced
  have hclauses : Spaced (c.constraints.flatMap spacedTokens) := by
    apply Spaced.flatMap
    intro x hx
    obtain ⟨us, hus⟩ := h.clauses.excerpt x hx
    exact hus.spaced
  exact (Chunk.name c.name).toSpaced.append (chunk_head.toSpaced.append (hdefault.append hclauses))

/-- The parentheses and the commas of a column are its own, if its clauses are complete. -/
theorem enclosed_tokens (h : c.Readable) : Enclosed (c.tokens inlineKey) := by
  have hdefault : Enclosed (defaultTokens c.defaultText) := by
    cases hdefault : c.defaultText with
    | none => exact .nil
    | some e =>
      obtain ⟨vs, hvs, hwhole, -⟩ := h.written hdefault
      exact (Chunk.bare (w := "DEFAULT") (by decide)).enclosed.append (hvs.enclosed hwhole)
  have hclauses : Enclosed (c.constraints.flatMap spacedTokens) := by
    apply Enclosed.flatMap
    intro x hx
    obtain ⟨us, hus⟩ := h.clauses.excerpt x hx
    exact hus.enclosed ((h.whole x hx).enclosed hus)
  exact (Chunk.name c.name).enclosed.append (chunk_head.enclosed.append (hdefault.append hclauses))

/-- The column as it is read back from the definition of its table. -/
def rewritten (c : Column) : Column := { c.readBack false with primaryKey := c.primaryKey }

/-- A column that is read back is written as it was. -/
theorem write_rewritten (h : c.Readable) : c.rewritten.write inlineKey = c.write inlineKey := by
  have hstorage : c.rewritten.type.storage = c.type.storage := by
    simp [rewritten, readBack]
  have hdefault : c.rewritten.defaultText = c.defaultText.map writeDefault := rfl
  unfold write
  rw [hstorage, hdefault]
  cases hwritten : c.defaultText with
  | none => rfl
  | some e =>
    obtain ⟨vs, -, -, -, hagain⟩ := h.written hwritten
    rw [Option.map_some]
    simp only [hagain]
    rfl

end Column

end PgGateway
