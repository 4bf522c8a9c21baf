import Mathlib.Data.List.Forall2
import PgGateway.Proofs.Sql.CaseFolding
import PgGateway.Sql.Statement

/-!
# Matched tokens

The tokens of two texts are matched by a relation under which matched tokens are alike up to the
letter case of bare words (`Token.Matching`). Whatever takes matched runs of tokens apart comes to
the same result on both: groups, parts and clauses are matched again, and one is there if and only
if the other is.
-/

namespace PgGateway.Sql

open List (Forall₂)

/-! ## Outcomes that agree -/

section

variable {ε ε' δ δ' α α' β β' : Type}

/-- Both outcomes are results, related by `A`, or both are failures, related by `E`. -/
inductive Agree (E : ε → ε' → Prop) (A : α → α' → Prop) : Except ε α → Except ε' α' → Prop
  | ok {a : α} {a' : α'} (h : A a a') : Agree E A (.ok a) (.ok a')
  | error {e : ε} {e' : ε'} (h : E e e') : Agree E A (.error e) (.error e')

namespace Agree

variable {E : ε → ε' → Prop} {D : δ → δ' → Prop} {A : α → α' → Prop} {B : β → β' → Prop}
  {x : Except ε α} {x' : Except ε' α'}

theorem imp {F : ε → ε' → Prop} {C : α → α' → Prop} (h : Agree E A x x')
    (hE : ∀ {e e'}, E e e' → F e e') (hA : ∀ {a a'}, A a a' → C a a') : Agree F C x x' := by
  cases h with
  | ok h => exact .ok (hA h)
  | error h => exact .error (hE h)

/-- The results are those of the two outcomes. -/
theorem results (h : Agree E A x x') :
    Agree E (fun a a' => A a a' ∧ x = .ok a ∧ x' = .ok a') x x' := by
  cases h with
  | ok h => exact .ok ⟨h, rfl, rfl⟩
  | error h => exact .error h

theorem map {f : α → β} {f' : α' → β'} (h : Agree E A x x')
    (hf : ∀ {a a'}, A a a' → B (f a) (f' a')) : Agree E B (x.map f) (x'.map f') := by
  cases h with
  | ok h => exact .ok (hf h)
  | error h => exact .error h

theorem mapError {f : ε → δ} {f' : ε' → δ'} (h : Agree E A x x')
    (hf : ∀ {e e'}, E e e' → D (f e) (f' e')) : Agree D A (x.mapError f) (x'.mapError f') := by
  cases h with
  | ok h => exact .ok h
  | error h => exact .error (hf h)

theorem bind {f : α → Except ε β} {f' : α' → Except ε' β'} (h : Agree E A x x')
    (hf : ∀ {a a'}, A a a' → Agree E B (f a) (f' a')) : Agree E B (x >>= f) (x' >>= f') := by
  cases h with
  | ok h => exact hf h
  | error h => exact .error h

theorem mapM {f : α → Except ε β} {f' : α' → Except ε' β'} {as : List α} {as' : List α'}
    (h : Forall₂ A as as') (hf : ∀ {a a'}, A a a' → Agree E B (f a) (f' a')) :
    Agree E (Forall₂ B) (as.mapM f) (as'.mapM f') := by
  induction h with
  | nil => exact .ok .nil
  | cons hhead _ ih =>
    rw [List.mapM_cons, List.mapM_cons]
    exact (hf hhead).bind fun hb => ih.bind fun hbs => .ok (.cons hb hbs)

theorem foldlM {f : β → α → Except ε β} {f' : β' → α' → Except ε' β'} {as : List α}
    {as' : List α'} {b : β} {b' : β'} (h : Forall₂ A as as')
    (hf : ∀ {b b' a a'}, B b b' → A a a' → Agree E B (f b a) (f' b' a')) (hb : B b b') :
    Agree E B (as.foldlM f b) (as'.foldlM f' b') := by
  induction h generalizing b b' with
  | nil => exact .ok hb
  | cons hhead _ ih =>
    rw [List.foldlM_cons, List.foldlM_cons]
    exact (hf hb hhead).bind ih

end Agree

theorem rel_map {A : α → α' → Prop} {B : β → β' → Prop} {f : α → β} {f' : α' → β'} {x : Option α}
    {x' : Option α'} (h : Option.Rel A x x') (hf : ∀ {a a'}, A a a' → B (f a) (f' a')) :
    Option.Rel B (x.map f) (x'.map f') := by
  cases h with
  | some h => exact .some (hf h)
  | none => exact .none

theorem rel_bind {A : α → α' → Prop} {B : β → β' → Prop} {f : α → Option β} {f' : α' → Option β'}
    {x : Option α} {x' : Option α'} (h : Option.Rel A x x')
    (hf : ∀ {a a'}, A a a' → Option.Rel B (f a) (f' a')) :
    Option.Rel B (x.bind f) (x'.bind f') := by
  cases h with
  | some h => exact hf h
  | none => exact .none

theorem forall₂_tail {A : α → α' → Prop} {as : List α} {as' : List α'} (h : Forall₂ A as as') :
    Forall₂ A as.tail as'.tail := by
  cases h with
  | nil => exact .nil
  | cons _ h => exact h

theorem forall₂_append {A : α → α' → Prop} {as bs : List α} {as' bs' : List α'}
    (ha : Forall₂ A as as') (hb : Forall₂ A bs bs') : Forall₂ A (as ++ bs) (as' ++ bs') :=
  List.rel_append ha hb

theorem forall₂_modifyHead {A : α → α' → Prop} {f : α → α} {f' : α' → α'} {as : List α}
    {as' : List α'} (h : Forall₂ A as as') (hf : ∀ {a a'}, A a a' → A (f a) (f' a')) :
    Forall₂ A (as.modifyHead f) (as'.modifyHead f') := by
  cases h with
  | nil => exact .nil
  | cons hhead hlater => exact .cons (hf hhead) hlater

theorem isEmpty_eq {A : α → α' → Prop} {as : List α} {as' : List α'} (h : Forall₂ A as as') :
    as.isEmpty = as'.isEmpty := by
  cases h <;> rfl

end

/-! ## Tokens -/

namespace Token.Alike

variable {t u : Token}

theorem isKeyword (h : t.Alike u) (k : Text) : t.isKeyword k = u.isKeyword k := by
  have htext : Text.lower t.text = Text.lower u.text := h.text
  rw [Token.isKeyword, Token.isKeyword, h.kind, htext]

theorem isSymbol (h : t.Alike u) (c : Char) : t.isSymbol c = u.isSymbol c := by
  rw [Token.isSymbol, Token.isSymbol, ← h.kind]
  by_cases hword : t.kind = .word
  · rw [hword]
    rfl
  · rw [h.exact hword]

theorem isName (h : t.Alike u) : t.isName = u.isName := by
  rw [Token.isName, Token.isName, h.kind]

theorem depthAfter (h : t.Alike u) (depth : Nat) : t.depthAfter depth = u.depthAfter depth := by
  rw [Token.depthAfter, Token.depthAfter, h.isSymbol, h.isSymbol]

theorem upper (h : t.Alike u) : Text.upper t.text = Text.upper u.text :=
  Text.sameWord_iff_upper.1 h.text

theorem name (h : t.Alike u) : Text.SameWord t.name u.name := by
  unfold Token.name
  rw [← h.kind]
  split
  · next hquoted =>
    rw [h.exact (by rw [hquoted]; nofun)]
    rfl
  · exact h.text

/-- The names in quotes are the same. -/
theorem name_eq (h : t.Alike u) (hkind : t.kind ≠ .word) : t.name = u.name := by
  rw [Token.name, Token.name, ← h.kind, h.exact hkind]

end Token.Alike

/-- A relation that matches the tokens of two texts: matched tokens are alike. -/
def Token.Matching (R : Token → Token → Prop) : Prop := ∀ ⦃t u⦄, R t u → t.Alike u

/-- The names are those of matched tokens. -/
def NameAlike (R : Token → Token → Prop) (n m : Text) : Prop :=
  ∃ t u, R t u ∧ t.isName = true ∧ n = t.name ∧ m = u.name

/-- The texts are those of matched runs of tokens. -/
def ClauseAlike (R : Token → Token → Prop) (x y : Text) : Prop :=
  ∃ ts us, Forall₂ R ts us ∧ x = Token.verbatim ts ∧ y = Token.verbatim us

variable {R : Token → Token → Prop} {ts us : List Token} {t u : Token} {n m k : Text}

theorem NameAlike.sameWord (hR : Token.Matching R) (h : NameAlike R n m) : Text.SameWord n m := by
  obtain ⟨t, u, htu, -, rfl, rfl⟩ := h
  exact (hR htu).name

theorem startsWith_eq (hR : Token.Matching R) (h : Forall₂ R ts us) :
    Token.startsWith k ts = Token.startsWith k us := by
  cases h with
  | nil => rfl
  | cons htu _ => exact (hR htu).isKeyword k

theorem opensWith_eq (hR : Token.Matching R) (h : Forall₂ R ts us) (c : Char) :
    Token.opensWith c ts = Token.opensWith c us := by
  cases h with
  | nil => rfl
  | cons htu _ => exact (hR htu).isSymbol c

theorem any_isKeyword_eq (hR : Token.Matching R) (h : Forall₂ R ts us) :
    ts.any (·.isKeyword k) = us.any (·.isKeyword k) := by
  induction h with
  | nil => rfl
  | cons htu _ ih => rw [List.any_cons, List.any_cons, ih, (hR htu).isKeyword]

theorem any_isSymbol_eq (hR : Token.Matching R) (h : Forall₂ R ts us) (c : Char) :
    ts.any (·.isSymbol c) = us.any (·.isSymbol c) := by
  induction h with
  | nil => rfl
  | cons htu _ ih => rw [List.any_cons, List.any_cons, ih, (hR htu).isSymbol]

/-! ## Groups and parts -/

/-- The groups are matched. -/
structure Group.Alike (R : Token → Token → Prop) (g g' : Group) : Prop where
  opening : R g.opening g'.opening
  inside : Forall₂ R g.inside g'.inside
  closing : R g.closing g'.closing

theorem Group.Alike.tokens {g g' : Group} (h : g.Alike R g') : Forall₂ R g.tokens g'.tokens :=
  forall₂_append (.cons h.opening h.inside) (.cons h.closing .nil)

theorem closeGroup_alike (hR : Token.Matching R) (h : Forall₂ R ts us) (depth : Nat) :
    Option.Rel (fun r s => Forall₂ R r.1 s.1 ∧ R r.2.1 s.2.1 ∧ Forall₂ R r.2.2 s.2.2)
      (closeGroup depth ts) (closeGroup depth us) := by
  induction h generalizing depth with
  | nil => exact .none
  | @cons t u ts us htu hrest ih =>
    rw [closeGroup, closeGroup, (hR htu).isSymbol, (hR htu).depthAfter]
    split
    · exact .some ⟨.nil, htu, hrest⟩
    · exact rel_map (ih _) fun h => ⟨.cons htu h.1, h.2⟩

theorem readGroup_alike (hR : Token.Matching R) (h : Forall₂ R ts us) :
    Option.Rel (fun r s => r.1.Alike R s.1 ∧ Forall₂ R r.2 s.2) (readGroup ts) (readGroup us) := by
  cases h with
  | nil => exact .none
  | cons htu hrest =>
    rw [readGroup, readGroup, (hR htu).isSymbol]
    split
    · exact rel_map (closeGroup_alike hR hrest 0) fun h =>
        ⟨⟨htu, h.1, h.2.1⟩, h.2.2⟩
    · exact .none

theorem splitCommas_alike (hR : Token.Matching R) (h : Forall₂ R ts us) (depth : Nat) :
    Forall₂ (Forall₂ R) (splitCommas depth ts) (splitCommas depth us) := by
  induction h generalizing depth with
  | nil => exact .cons .nil .nil
  | @cons t u ts us htu _ ih =>
    rw [splitCommas, splitCommas, (hR htu).isSymbol, (hR htu).depthAfter]
    split
    · exact .cons .nil (ih depth)
    · exact forall₂_modifyHead (ih (u.depthAfter depth)) (.cons htu)

theorem parts_alike (hR : Token.Matching R) (h : Forall₂ R ts us) :
    Forall₂ (Forall₂ R) (parts ts) (parts us) :=
  splitCommas_alike hR h 0

theorem afterKeyword_alike (hR : Token.Matching R) (h : Forall₂ R ts us) :
    Option.Rel (Forall₂ R) (afterKeyword k ts) (afterKeyword k us) := by
  have hfrom : ∀ depth, Option.Rel (Forall₂ R) (afterKeywordFrom k depth ts)
      (afterKeywordFrom k depth us) := by
    induction h with
    | nil => exact fun _ => .none
    | @cons t u ts us htu hrest ih =>
      intro depth
      rw [afterKeywordFrom, afterKeywordFrom, (hR htu).isKeyword, (hR htu).depthAfter]
      split
      · exact .some hrest
      · exact ih _
  exact hfrom 0

/-! ## Names of tables -/

theorem readGuard_alike (hR : Token.Matching R) (h : Forall₂ R ts us) :
    (readGuard ts).1 = (readGuard us).1 ∧ Forall₂ R (readGuard ts).2 (readGuard us).2 := by
  have htail := forall₂_tail h
  have hdrop := List.forall₂_drop 2 h
  unfold readGuard
  rw [startsWith_eq hR h, startsWith_eq hR htail, startsWith_eq hR htail, startsWith_eq hR hdrop]
  split
  · split
    · exact ⟨rfl, hdrop⟩
    · split
      · exact ⟨rfl, List.forall₂_drop 3 h⟩
      · exact ⟨rfl, h⟩
  · exact ⟨rfl, h⟩

theorem skipKeyword_alike (hR : Token.Matching R) (h : Forall₂ R ts us) :
    Forall₂ R (skipKeyword k ts) (skipKeyword k us) := by
  unfold skipKeyword
  rw [startsWith_eq hR h]
  split
  · exact forall₂_tail h
  · exact h

theorem readTableName_alike (hR : Token.Matching R) (h : Forall₂ R ts us) :
    Option.Rel (fun r s => NameAlike R r.1 s.1 ∧ Forall₂ R r.2 s.2)
      (readTableName ts) (readTableName us) := by
  cases h with
  | nil => exact .none
  | @cons t u ts us htu hrest =>
    unfold readTableName
    dsimp only
    rw [← (hR htu).isName]
    split
    · next hname =>
      have hfirst : NameAlike R t.name u.name := ⟨t, u, htu, hname, rfl, rfl⟩
      -- a dot and a second name make the first one a schema
      cases hrest with
      | nil => exact .some ⟨hfirst, .nil⟩
      | cons hdot hlater =>
        cases hlater with
        | nil => exact .some ⟨hfirst, .cons hdot .nil⟩
        | cons hsecond hafter =>
          dsimp only
          rw [← (hR hdot).isSymbol, ← (hR hsecond).isName]
          split
          · next hboth =>
            have hsecondName := (Bool.and_eq_true _ _ ▸ hboth).2
            exact .some ⟨⟨_, _, hsecond, hsecondName, rfl, rfl⟩, hafter⟩
          · exact .some ⟨hfirst, .cons hdot (.cons hsecond hafter)⟩
    · exact .none

theorem tableNamed_alike (hR : Token.Matching R) (h : Forall₂ R ts us) :
    Option.Rel (NameAlike R) (tableNamed ts) (tableNamed us) :=
  rel_map (readTableName_alike hR h) And.left

end PgGateway.Sql
