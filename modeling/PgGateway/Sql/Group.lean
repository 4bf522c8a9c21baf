import PgGateway.Sql.Token

/-!
# Parentheses and commas

Runs of tokens are taken apart along their parentheses: the group that an opening parenthesis
begins, the parts between commas, and the tokens after a keyword. Only commas and keywords outside
parentheses count.
-/

namespace PgGateway.Sql

/-- The number of open parentheses after a token, if `depth` are open before it. A closing
parenthesis that closes nothing changes nothing. -/
def Token.depthAfter (t : Token) (depth : Nat) : Nat :=
  if t.isSymbol '(' then depth + 1 else if t.isSymbol ')' then depth - 1 else depth

/-- A parenthesised run of tokens. -/
structure Group where
  opening : Token
  inside : List Token
  closing : Token
deriving DecidableEq, Repr

/-- All tokens of a group. -/
def Group.tokens (g : Group) : List Token := g.opening :: g.inside ++ [g.closing]

/-- Reads up to the parenthesis that closes the outermost of `depth + 1` open ones: the tokens
before it, itself, and the rest. -/
def closeGroup : Nat → List Token → Option (List Token × Token × List Token)
  | _, [] => none
  | depth, t :: ts =>
    if t.isSymbol ')' ∧ depth = 0 then some ([], t, ts)
    else (closeGroup (t.depthAfter depth) ts).map fun r => (t :: r.1, r.2)

/-- Reads the group that the first token opens, and the rest. -/
def readGroup : List Token → Option (Group × List Token)
  | [] => none
  | t :: ts =>
    if t.isSymbol '(' then (closeGroup 0 ts).map fun r => (⟨t, r.1, r.2.1⟩, r.2.2) else none

/-- Closing a group takes tokens off the front and loses none. -/
theorem closeGroup_eq {depth : Nat} {ts : List Token} {r : List Token × Token × List Token}
    (h : closeGroup depth ts = some r) : ts = r.1 ++ r.2.1 :: r.2.2 := by
  induction ts generalizing depth r with
  | nil => simp [closeGroup] at h
  | cons t ts ih =>
    simp only [closeGroup] at h
    split at h
    · cases h; rfl
    · obtain ⟨s, hs, rfl⟩ := Option.map_eq_some_iff.1 h
      rw [ih (r := s) hs]
      rfl

/-- A group and the rest are the tokens that were read. -/
theorem readGroup_eq {ts rest : List Token} {g : Group} (h : readGroup ts = some (g, rest)) :
    ts = g.tokens ++ rest := by
  cases ts with
  | nil => simp [readGroup] at h
  | cons t ts =>
    simp only [readGroup] at h
    split at h
    · obtain ⟨s, hs, he⟩ := Option.map_eq_some_iff.1 h
      cases he
      rw [closeGroup_eq (r := s) hs]
      simp [Group.tokens]
    · simp at h

/-- Reading a group leaves fewer tokens. -/
theorem readGroup_length_lt {ts : List Token} {r : Group × List Token}
    (h : readGroup ts = some r) : r.2.length < ts.length := by
  obtain ⟨g, rest⟩ := r
  rw [readGroup_eq h]
  simp only [Group.tokens, List.length_append, List.length_cons]
  omega

/-- The parts between the commas that lie in no parentheses, with `depth` open at the start. There
is always at least one part. -/
def splitCommas : Nat → List Token → List (List Token)
  | _, [] => [[]]
  | depth, t :: ts =>
    if t.isSymbol ',' ∧ depth = 0 then [] :: splitCommas depth ts
    else (splitCommas (t.depthAfter depth) ts).modifyHead (t :: ·)

/-- The parts of a run of tokens between its commas. -/
def parts (ts : List Token) : List (List Token) := splitCommas 0 ts

/-- What follows the first keyword that lies in no parentheses, with `depth` open at the start. -/
def afterKeywordFrom (keyword : Text) : Nat → List Token → Option (List Token)
  | _, [] => none
  | depth, t :: ts =>
    if t.isKeyword keyword ∧ depth = 0 then some ts
    else afterKeywordFrom keyword (t.depthAfter depth) ts

/-- What follows the first keyword of a run of tokens that lies in no parentheses. -/
def afterKeyword (keyword : Text) (ts : List Token) : Option (List Token) :=
  afterKeywordFrom keyword 0 ts

end PgGateway.Sql
