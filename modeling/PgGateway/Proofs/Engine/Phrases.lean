import Mathlib.Data.List.Infix
import PgGateway.Engine.Error
import PgGateway.Proofs.Text.Numbers

/-!
# Phrases in messages

A failure without a number of its own is told by the first of some phrases that its message
contains. When the engine could not read a statement, the message is made of the engine's own words,
the text of the statement and an offset, and no phrase can stand across two of these
(`contains_unreadable`). So the class is that of the first phrase in the words or in the statement,
and it is the class of the words alone only if the statement contains no phrase that comes before
theirs (`sqlState_unreadable`).
-/

namespace PgGateway

variable {a b message p sep sql x y : Text} {offset : Int}

/-! ## Where a phrase can stand -/

namespace Text

/-- An end of the first text begins the second or begins with it, so the two can overlap. -/
def Meets (a b : Text) : Prop := ∃ s, s <:+ a ∧ s ≠ [] ∧ (s <+: b ∨ b <+: s)

instance (a b : Text) : Decidable (Meets a b) :=
  decidable_of_iff (∃ s ∈ a.tails, s ≠ [] ∧ (s <+: b ∨ b <+: s)) <| by
    simp only [List.mem_tails, Meets]

/-- A text that begins within the front of another overlaps with that front. -/
theorem contains_append_iff (h : ¬Meets a p) : Contains p (a ++ b) ↔ Contains p b := by
  constructor
  · intro hcontains
    induction a with
    | nil => exact hcontains
    | cons c a ih =>
      rcases List.infix_cons_iff.1 hcontains with hstart | hlater
      · refine absurd ⟨c :: a, List.suffix_rfl, List.cons_ne_nil c a, ?_⟩ h
        exact List.prefix_or_prefix_of_prefix (List.prefix_append (c :: a) b) hstart
      · refine ih (fun hmeets => h ?_) hlater
        obtain ⟨s, hs, hoverlap⟩ := hmeets
        exact ⟨s, hs.trans (List.suffix_cons c a), hoverlap⟩
  · exact fun hcontains => List.IsInfix.trans hcontains (List.suffix_append a b).isInfix

/-- A text that begins in front of another and does not end there overlaps with it. -/
theorem contains_append_sep_iff (h : ¬Meets p sep) :
    Contains p (x ++ (sep ++ y)) ↔ Contains p x ∨ Contains p (sep ++ y) := by
  constructor
  · intro hcontains
    induction x with
    | nil => exact .inr hcontains
    | cons c x ih =>
      rcases List.infix_cons_iff.1 hcontains with hstart | hlater
      · left
        have hfront : c :: x <+: c :: (x ++ (sep ++ y)) := List.prefix_append (c :: x) (sep ++ y)
        rcases List.prefix_or_prefix_of_prefix hstart hfront with hwithin | ⟨s, rfl⟩
        · exact hwithin.isInfix
        · by_cases hs : s = []
          · rw [hs, List.append_nil]
            exact List.infix_refl _
          · have hbehind : s <+: sep ++ y := (List.prefix_append_right_inj (c :: x)).1 hstart
            refine absurd ⟨s, List.suffix_append (c :: x) s, hs, ?_⟩ h
            exact List.prefix_or_prefix_of_prefix hbehind (List.prefix_append sep y)
      · rcases ih hlater with hwithin | hbehind
        · exact .inl (List.infix_cons hwithin)
        · exact .inr hbehind
  · rintro (hwithin | hbehind)
    · exact List.IsInfix.trans hwithin (List.prefix_append x (sep ++ y)).isInfix
    · exact List.IsInfix.trans hbehind (List.suffix_append x (sep ++ y)).isInfix

/-- **What a separator stands between is searched on its own** for a text that cannot overlap with
the separator. -/
theorem contains_between_iff (h : ¬Meets p sep) (h' : ¬Meets sep p) :
    Contains p (x ++ (sep ++ y)) ↔ Contains p x ∨ Contains p y := by
  rw [contains_append_sep_iff h, contains_append_iff h']

theorem space_not_mem_ofInt (i : Int) : ' ' ∉ Numeral.ofInt i := by
  have hdigits : ∀ n, ' ' ∉ Numeral.ofNat n := fun n hmem =>
    absurd ((Numeral.isDigits_ofNat n).2 ' ' hmem) (by decide)
  unfold Numeral.ofInt
  split
  · exact fun hmem => (List.mem_cons.1 hmem).elim (by decide) (hdigits _)
  · exact hdigits _

end Text

open Text

namespace EngineFailure

/-! ## Phrases -/

/-- A phrase has a space, and it overlaps with nothing that joins the parts of a message. -/
structure StandsAlone (p : Text) : Prop where
  space : ' ' ∈ p
  inside : ¬Meets p " in " ∧ ¬Meets " in " p
  atOffset : ¬Meets p " at offset " ∧ ¬Meets " at offset " p

theorem standsAlone_phrase : ∀ p ∈ statePhrases, StandsAlone p.1 := by
  have hall : ∀ p ∈ statePhrases, ' ' ∈ p.1 ∧ (¬Meets p.1 " in " ∧ ¬Meets " in " p.1) ∧
      ¬Meets p.1 " at offset " ∧ ¬Meets " at offset " p.1 := by decide
  intro p hp
  obtain ⟨hspace, hinside, hoffset⟩ := hall p hp
  exact ⟨hspace, hinside, hoffset⟩

/-- **A phrase is in the engine's words or in the statement.** -/
theorem contains_unreadable (h : StandsAlone p) :
    Contains p (unreadable message sql offset).message ↔ Contains p message ∨ Contains p sql := by
  have hnumeral : ¬Contains p (Numeral.ofInt offset) := fun hcontains =>
    space_not_mem_ofInt offset (hcontains.subset h.space)
  have hparts : (unreadable message sql offset).message =
      message ++ (" in " ++ (sql ++ (" at offset " ++ Numeral.ofInt offset))) := by
    simp only [EngineFailure.message, List.append_assoc]
  rw [hparts, contains_between_iff h.inside.1 h.inside.2,
    contains_between_iff h.atOffset.1 h.atOffset.2, or_iff_left hnumeral]

/-- The class of the first phrase with a property. -/
def stateOfFirst (phrases : List (Text × SqlState)) (has : Text → Bool) : SqlState :=
  match phrases.find? fun p => has p.1 with
  | some (_, state) => state
  | none => .internalError

section stateOfFirst

variable {phrases : List (Text × SqlState)} {has has' : Text → Bool} {state : SqlState}

theorem stateOfMessage_eq (message : Text) :
    stateOfMessage message = stateOfFirst statePhrases fun p => Contains p message := rfl

theorem stateOfFirst_cons (p : Text × SqlState) :
    stateOfFirst (p :: phrases) has = if has p.1 then p.2 else stateOfFirst phrases has := by
  unfold stateOfFirst
  rw [List.find?_cons]
  cases has p.1 <;> rfl

theorem stateOfFirst_congr (h : ∀ p ∈ phrases, has p.1 = has' p.1) :
    stateOfFirst phrases has = stateOfFirst phrases has' := by
  induction phrases with
  | nil => rfl
  | cons p phrases ih =>
    rw [List.forall_mem_cons] at h
    rw [stateOfFirst_cons, stateOfFirst_cons, h.1, ih h.2]

/-- The class is that of a phrase, or none of them. -/
theorem stateOfFirst_mem (phrases : List (Text × SqlState)) (has : Text → Bool) :
    stateOfFirst phrases has ∈ SqlState.internalError :: phrases.map Prod.snd := by
  induction phrases with
  | nil => exact List.mem_cons_self
  | cons p phrases ih =>
    rw [stateOfFirst_cons]
    split
    · simp
    · rcases List.mem_cons.1 ih with hnone | hsome
      · simp [hnone]
      · simp [hsome]

/-- Where every phrase has a class of its own, more that is found changes the class exactly if it is
found in front of what was. -/
theorem stateOfFirst_or (hdistinct : (SqlState.internalError :: phrases.map Prod.snd).Nodup) :
    stateOfFirst phrases (fun p => has p || has' p) = stateOfFirst phrases has ↔
      ∀ p ∈ phrases.takeWhile fun p => !has p.1, has' p.1 = false := by
  induction phrases with
  | nil => exact iff_of_true rfl nofun
  | cons p phrases ih =>
    have hperm : (p.2 :: SqlState.internalError :: phrases.map Prod.snd).Nodup :=
      (List.Perm.swap _ _ _).nodup_iff.1 hdistinct
    obtain ⟨hother, hrest⟩ := List.nodup_cons.1 hperm
    rw [stateOfFirst_cons, stateOfFirst_cons]
    cases hp : has p.1 with
    | true => simp [hp]
    | false =>
      cases hp' : has' p.1 with
      | true =>
        -- the phrase is in the way, and what is behind it has another class
        refine iff_of_false ?_ fun h => ?_
        · intro heq
          exact hother ((show p.2 = _ from heq) ▸ stateOfFirst_mem phrases has)
        · have hnone := h p (by simp [hp])
          rw [hp'] at hnone
          cases hnone
      | false => simpa [hp, hp'] using ih hrest

end stateOfFirst

/-- The phrases that come before the first that the message contains. -/
def outranking (message : Text) : List (Text × SqlState) :=
  statePhrases.takeWhile fun p => !decide (Contains p.1 message)

end EngineFailure

open EngineFailure

/-- **The text of the statement counts as much as the engine's words.** A statement that could not
be read fails under the class of the first phrase that is in the engine's words or in the statement,
wherever reading stopped. This is the class that the words have alone exactly if the statement
contains no phrase that comes before theirs. So two statements give the same class to the same words
if they contain the same phrases. -/
theorem sqlState_unreadable (message sql : Text) (offset : Int) :
    (EngineError.engine (.unreadable message sql offset)).sqlState =
      stateOfFirst statePhrases (fun p => Contains p message || Contains p sql) ∧
    ((EngineError.engine (.unreadable message sql offset)).sqlState = stateOfMessage message ↔
      ∀ p ∈ outranking message, ¬Contains p.1 sql) ∧
    ∀ sql' offset', (∀ p ∈ statePhrases, Contains p.1 sql ↔ Contains p.1 sql') →
      (EngineError.engine (.unreadable message sql offset)).sqlState =
        (EngineError.engine (.unreadable message sql' offset')).sqlState := by
  have hstate : ∀ sql offset, (EngineError.engine (.unreadable message sql offset)).sqlState =
      stateOfFirst statePhrases fun p => Contains p message || Contains p sql := by
    intro sql offset
    show stateOfFirst statePhrases (fun p => Contains p (unreadable message sql offset).message) = _
    refine stateOfFirst_congr fun p hp => ?_
    rw [decide_eq_decide.2 (contains_unreadable (standsAlone_phrase p hp)), Bool.decide_or]
  refine ⟨hstate sql offset, ?_, ?_⟩
  · rw [hstate, stateOfMessage_eq, stateOfFirst_or (by decide)]
    simp only [outranking, decide_eq_false_iff_not]
  · intro sql' offset' hsame
    rw [hstate, hstate]
    refine stateOfFirst_congr fun p hp => ?_
    rw [decide_eq_decide.2 (hsame p hp)]

/-- The engine misses a column in both statements; the table that one of them reads has a name that
says something else. -/
theorem sqlState_unreadable_quotedTable :
    (EngineError.engine (.unreadable "no such column: a" "SELECT a FROM t" 7)).sqlState =
      .undefinedColumn ∧
    (EngineError.engine
      (.unreadable "no such column: a" "SELECT a FROM \"no such table\"" 7)).sqlState =
      .undefinedTable := by
  decide +kernel

end PgGateway
