import PgGateway.Proofs.Engine.Phrases

/-!
# Broken constraints

A broken constraint is told by a number of its own, or only by the words that its message begins
with. By its number every kind has its class (`stateOfCode_eq_some_iff`). By its words the first
kind is always told, the second unless the words of the first are behind its own, and the last two
never: for them nothing counts but what is behind the words (`sqlState_constraint`).
-/

namespace PgGateway

open EngineFailure Text

variable {code : Int} {p : Text × SqlState} {tail : Text}

/-- The kinds of constraint that have a class. -/
inductive Constraint
  | unique
  | notNull
  | foreignKey
  | check
deriving DecidableEq, Repr

namespace Constraint

variable {k : Constraint}

/-- The words that the engine's message of a broken constraint begins with. -/
def phrase : Constraint → Text
  | unique => "UNIQUE constraint failed"
  | notNull => "NOT NULL constraint failed"
  | foreignKey => "FOREIGN KEY constraint failed"
  | check => "CHECK constraint failed"

/-- The class of a broken constraint. -/
def state : Constraint → SqlState
  | unique => .uniqueViolation
  | notNull => .notNullViolation
  | foreignKey => .foreignKeyViolation
  | check => .checkViolation

/-- The engine's numbers for a broken constraint. -/
def codes : Constraint → List Int
  | unique => [2067, 1555]
  | notNull => [1299]
  | foreignKey => [787]
  | check => [275]

/-- The class that a broken constraint is told by when its message goes on like this. -/
def toldAs (tail : Text) : Constraint → SqlState
  | unique => .uniqueViolation
  | notNull =>
    if Contains "UNIQUE constraint failed" tail then .uniqueViolation else .notNullViolation
  | foreignKey | check => stateOfMessage tail

theorem toldAs_notNull (tail : Text) : notNull.toldAs tail =
    if Contains "UNIQUE constraint failed" tail then .uniqueViolation else .notNullViolation := rfl

end Constraint

open Constraint

variable {k : Constraint}

/-- **By their numbers all kinds are told apart.** -/
theorem stateOfCode_eq_some_iff : stateOfCode code = some k.state ↔ code ∈ k.codes := by
  unfold stateOfCode
  split
  · cases k <;> decide
  · cases k <;> decide
  · cases k <;> decide
  · cases k <;> decide
  · cases k <;> decide
  · next h₁ h₂ h₃ h₄ h₅ =>
    refine iff_of_false nofun fun hcode => ?_
    cases k <;> simp_all [codes]

/-! ## By their words -/

/-- No other phrase overlaps with the end of the words. -/
theorem not_meets_phrase (k : Constraint) : ∀ p ∈ statePhrases, p.1 ≠ k.phrase →
    ¬Meets k.phrase p.1 := by
  cases k <;> decide

/-- Another phrase is in such a message only if it is behind the words. -/
theorem contains_phrase_append (hp : p ∈ statePhrases) :
    Contains p.1 (k.phrase ++ tail) ↔ p.1 = k.phrase ∨ Contains p.1 tail := by
  by_cases hself : p.1 = k.phrase
  · rw [hself]
    exact iff_of_true (List.prefix_append k.phrase tail).isInfix (.inl rfl)
  · rw [contains_append_iff (not_meets_phrase k p hp hself), or_iff_right hself]

/-- Words that are no phrase are passed over. -/
theorem stateOfMessage_behind (hother : ∀ p ∈ statePhrases, p.1 ≠ k.phrase) (tail : Text) :
    stateOfMessage (k.phrase ++ tail) = stateOfMessage tail := by
  rw [stateOfMessage_eq, stateOfMessage_eq]
  refine stateOfFirst_congr fun p hp => ?_
  rw [decide_eq_decide.2 (contains_phrase_append hp), Bool.decide_or,
    decide_eq_false (hother p hp), Bool.false_or]

theorem stateOfMessage_phrase (k : Constraint) (tail : Text) :
    stateOfMessage (k.phrase ++ tail) = k.toldAs tail := by
  cases k with
  | unique =>
    have hself : Contains "UNIQUE constraint failed" (unique.phrase ++ tail) :=
      (List.prefix_append unique.phrase tail).isInfix
    rw [stateOfMessage_eq, statePhrases, stateOfFirst_cons]
    exact if_pos (decide_eq_true hself)
  | notNull =>
    have hself : Contains "NOT NULL constraint failed" (notNull.phrase ++ tail) :=
      (List.prefix_append notNull.phrase tail).isInfix
    have hfirst : Contains "UNIQUE constraint failed" (notNull.phrase ++ tail) ↔
        Contains "UNIQUE constraint failed" tail :=
      contains_append_iff (by decide)
    rw [stateOfMessage_eq, statePhrases, stateOfFirst_cons, stateOfFirst_cons, toldAs_notNull]
    by_cases htail : Contains "UNIQUE constraint failed" tail
    · exact (if_pos (decide_eq_true (hfirst.2 htail))).trans (if_pos htail).symm
    · have hnot : ¬decide (Contains "UNIQUE constraint failed" (notNull.phrase ++ tail)) = true :=
        fun h => htail (hfirst.1 (of_decide_eq_true h))
      exact (if_neg hnot).trans ((if_pos (decide_eq_true hself)).trans (if_neg htail).symm)
  | foreignKey => exact stateOfMessage_behind (by decide) tail
  | check => exact stateOfMessage_behind (by decide) tail

/-- No message stands for the class of a foreign key or of a check. -/
theorem stateOfMessage_ne (tail : Text) :
    stateOfMessage tail ≠ .foreignKeyViolation ∧ stateOfMessage tail ≠ .checkViolation := by
  have hmem := stateOfFirst_mem statePhrases fun p => Contains p tail
  constructor <;>
  · intro h
    rw [stateOfMessage_eq] at h
    rw [h] at hmem
    exact absurd hmem (by decide)

theorem toldAs_eq_state_iff : k.toldAs tail = k.state ↔
    k = .unique ∨ k = .notNull ∧ ¬Contains "UNIQUE constraint failed" tail := by
  cases k with
  | unique => exact iff_of_true rfl (.inl rfl)
  | notNull =>
    rw [toldAs_notNull]
    split
    · next htail => exact iff_of_false nofun fun h => h.elim nofun fun h => h.2 htail
    · next htail => exact iff_of_true rfl (.inr ⟨rfl, htail⟩)
  | foreignKey => exact iff_of_false (stateOfMessage_ne tail).1 (by rintro (h | ⟨h, -⟩) <;> cases h)
  | check => exact iff_of_false (stateOfMessage_ne tail).2 (by rintro (h | ⟨h, -⟩) <;> cases h)

/-- **Which broken constraints are told by their words.** With a number of its kind a broken
constraint has the class of its kind, whatever its message. With a number that stands for none, or
with no number, the message decides. A unique constraint has its class then too; one against nulls
has it unless the message goes on with the words for a unique constraint; a foreign key and a check
never have it. -/
theorem sqlState_constraint (k : Constraint) (tail : Text) :
    (∀ code ∈ k.codes,
      (EngineError.engine (.coded code (k.phrase ++ tail))).sqlState = k.state) ∧
    (∀ code, stateOfCode code = none →
      (EngineError.engine (.coded code (k.phrase ++ tail))).sqlState = k.toldAs tail) ∧
    (EngineError.engine (.described (k.phrase ++ tail))).sqlState = k.toldAs tail ∧
    (k.toldAs tail = k.state ↔
      k = .unique ∨ k = .notNull ∧ ¬Contains "UNIQUE constraint failed" tail) := by
  refine ⟨fun code hcode => ?_, fun code hcode => ?_, stateOfMessage_phrase k tail,
    toldAs_eq_state_iff⟩
  · show (stateOfCode code).getD _ = k.state
    rw [stateOfCode_eq_some_iff.2 hcode, Option.getD_some]
  · show (stateOfCode code).getD (stateOfMessage (k.phrase ++ tail)) = k.toldAs tail
    rw [hcode, Option.getD_none, stateOfMessage_phrase]

/-- The general number for broken constraints stands for no kind. -/
theorem sqlState_constraint_general : stateOfCode 19 = none ∧
    (EngineError.engine (.coded 19 (notNull.phrase ++ ": t.a"))).sqlState = notNull.state := by
  obtain ⟨-, hgeneral, -, htold⟩ := sqlState_constraint .notNull ": t.a"
  exact ⟨rfl, (hgeneral 19 rfl).trans (htold.2 (.inr ⟨rfl, by decide⟩))⟩

/-- A broken foreign key has its class by its number, and by its words alone it has none. -/
theorem foreignKey_not_told :
    (EngineError.engine (.coded 787 "FOREIGN KEY constraint failed")).sqlState =
      .foreignKeyViolation ∧
    (EngineError.engine (.coded 19 "FOREIGN KEY constraint failed")).sqlState =
      .internalError := by
  decide +kernel

end PgGateway
