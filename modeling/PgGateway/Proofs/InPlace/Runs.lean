import PgGateway.Proofs.InPlace.Tokens
import PgGateway.Proofs.Sql.Clauses

/-!
# Runs of tokens in place

A run of tokens in place lies in its text as the tokens that it stands for (`InPlace.Lies`), and so
does every slice of it. Looking up tokens, lifting text out of the statement, and taking a run apart
along its parentheses and commas then comes to the same as on the tokens: where an index is looked
up the run goes on, and the slices between two parentheses or two commas are the tokens between
them.
-/

namespace PgGateway.Sql

/-- The token in place is this one, but for the space in front of it. -/
structure Placed.Is (p : Placed) (t : Token) : Prop where
  kind : p.kind = t.kind
  text : p.text = t.text

namespace Placed.Is

variable {p : Placed} {t : Token}

theorem isSymbol (h : p.Is t) (c : Char) : p.token.isSymbol c = t.isSymbol c := by
  rw [Placed.token, Token.isSymbol, Token.isSymbol, h.kind, h.text]

theorem isKeyword (h : p.Is t) (keyword : Text) : p.token.isKeyword keyword = t.isKeyword keyword := by
  rw [Placed.token, Token.isKeyword, Token.isKeyword, h.kind, h.text]

theorem isName (h : p.Is t) : p.token.isName = t.isName := by
  rw [Placed.token, Token.isName, Token.isName, h.kind]

theorem ofToken? (h : p.Is t) : ColumnKeyword.ofToken? p.token = ColumnKeyword.ofToken? t := by
  simp only [ColumnKeyword.ofToken?, h.isKeyword]

end Placed.Is

namespace InPlace

variable {ε : Type} {sql : Text} {ps : List Placed} {ts rest : List Token} {t : Token} {p : Placed}
  {g : Group} {i depth pos : Nat}

/-! ## Slices of runs -/

@[simp]
theorem length_place (pos : Nat) (ts : List Token) : (place pos ts).length = ts.length := by
  induction ts generalizing pos with
  | nil => rfl
  | cons t ts ih => simp [place, ih]

theorem place_append (pos : Nat) (ts us : List Token) : place pos (ts ++ us) =
    place pos ts ++ place (pos + Text.byteLength (Token.render ts)) us := by
  induction ts generalizing pos with
  | nil => rfl
  | cons t ts ih =>
    simp only [List.cons_append, place, ih, Token.render_cons, Text.byteLength_append, Nat.add_assoc]

/-- The last token of a run ends where the text of the run ends. -/
theorem getLast?_place (pos : Nat) (t : Token) (ts : List Token) :
    ∃ p, (place pos (t :: ts)).getLast? = some p ∧
      p.stop = pos + Text.byteLength (Token.render (t :: ts)) := by
  induction ts generalizing pos t with
  | nil =>
    refine ⟨_, rfl, ?_⟩
    show pos + _ + _ = _
    simp [Nat.add_assoc]
  | cons u ts ih =>
    obtain ⟨p, hp, hstop⟩ := ih (pos + Text.byteLength t.gap + Text.byteLength t.text) u
    refine ⟨p, ?_, ?_⟩
    · rw [← hp, place, place, List.getLast?_cons_cons]
    · rw [hstop, Token.render_cons (t := t)]
      simp only [Text.byteLength_append, Nat.add_assoc]

/-- The tokens in place are these, wherever they stand. -/
abbrev Stand (ps : List Placed) (ts : List Token) : Prop := List.Forall₂ Placed.Is ps ts

namespace Stand

theorem tokens (ps : List Placed) : Stand ps (ps.map Placed.token) :=
  List.forall₂_map_right_iff.2 (List.forall₂_same.2 fun _ _ => ⟨rfl, rfl⟩)

/-- A token that is looked up is the one of that index. -/
theorem lookup (h : Stand ps ts) (hi : ts.drop i = t :: rest) : ∃ p, ps[i]? = some p ∧ p.Is t := by
  have hdrop := List.forall₂_drop i h
  rw [hi] at hdrop
  obtain ⟨p, later, his, -, hps⟩ := List.forall₂_cons_right_iff.1 hdrop
  exact ⟨p, by rw [← List.head?_drop, hps]; rfl, his⟩

theorem index (h : Stand ps ts) (hi : ts.drop i = t :: rest) :
    ∃ p, (InPlace.index ps i : InPlace ε Placed) = pure p ∧ p.Is t := by
  obtain ⟨p, hp, his⟩ := h.lookup hi
  exact ⟨p, index_eq hp, his⟩

end Stand

namespace Lies

theorem length_eq (h : Lies sql ps ts) : ps.length = ts.length := by
  obtain ⟨front, back, -, rfl⟩ := h.placed
  exact length_place _ _

theorem isEmpty_eq (h : Lies sql ps ts) : ps.isEmpty = ts.isEmpty := by
  rw [Bool.eq_iff_iff, List.isEmpty_iff_length_eq_zero, List.isEmpty_iff_length_eq_zero,
    h.length_eq]

theorem append {us : List Token} (h : Lies sql ps (ts ++ us)) :
    ∃ qs rs, ps = qs ++ rs ∧ Lies sql qs ts ∧ Lies sql rs us := by
  obtain ⟨front, back, hsql, rfl⟩ := h.placed
  rw [Token.render_append, List.append_assoc] at hsql
  refine ⟨_, _, place_append _ ts us, ⟨⟨front, _, hsql, rfl⟩, fun t ht => ?_⟩,
    ⟨⟨front ++ Token.render ts, back, ?_, ?_⟩, fun t ht => ?_⟩⟩
  · exact h.quoted t (List.mem_append_left us ht)
  · rw [hsql, List.append_assoc]
  · rw [Text.byteLength_append]
  · exact h.quoted t (List.mem_append_right ts ht)

theorem eq_nil (h : Lies sql ps []) : ps = [] := List.length_eq_zero_iff.1 h.length_eq

/-- **Slices lie where they are taken.** -/
theorem slice {run : List Token} (h : Lies sql ps ts) (hi : i ≤ ts.length)
    (hrun : ts.drop i = run ++ rest) :
    ∃ qs, (InPlace.slice ps i (i + run.length) : InPlace ε (List Placed)) = pure qs ∧
      Lies sql qs run := by
  have hsplit : ts = ts.take i ++ (run ++ rest) := by rw [← hrun, List.take_append_drop]
  rw [hsplit] at h
  obtain ⟨front, later, rfl, hfront, hlater⟩ := h.append
  obtain ⟨qs, back, rfl, hqs, -⟩ := hlater.append
  have hlength : front.length = i := by rw [hfront.length_eq, List.length_take_of_le hi]
  refine ⟨qs, ?_, hqs⟩
  rw [← hlength, ← hqs.length_eq]
  exact slice_append front qs back

/-- The slice up to the end of a run. -/
theorem slice_length (h : Lies sql ps ts) (hi : i ≤ ts.length) (hrest : ts.drop i = rest) :
    ∃ qs, (InPlace.slice ps i ps.length : InPlace ε (List Placed)) = pure qs ∧ Lies sql qs rest := by
  have hend : ps.length = i + rest.length := by
    rw [← hrest, List.length_drop, h.length_eq]
    omega
  rw [hend]
  exact h.slice hi (by rw [hrest, List.append_nil])

theorem stand (h : Lies sql ps ts) : Stand ps ts := by
  obtain ⟨front, back, -, rfl⟩ := h.placed
  generalize Text.byteLength front = pos
  clear h
  induction ts generalizing pos with
  | nil => exact .nil
  | cons t ts ih => exact .cons ⟨rfl, rfl⟩ (ih _)

theorem lookup (h : Lies sql ps ts) (hi : ts.drop i = t :: rest) : ∃ p, ps[i]? = some p ∧ p.Is t :=
  h.stand.lookup hi

theorem index (h : Lies sql ps ts) (hi : ts.drop i = t :: rest) :
    ∃ p, (InPlace.index ps i : InPlace ε Placed) = pure p ∧ p.Is t := h.stand.index hi

theorem lookup_none (h : Lies sql ps ts) (hi : ts.drop i = []) : ps[i]? = none := by
  rw [List.getElem?_eq_none_iff, h.length_eq]
  exact List.drop_eq_nil_iff.1 hi

/-- What is asked of a token that may be there is asked of the next token that is left. -/
theorem any_lookup {f : Placed → Bool} {g : Token → Bool} (h : Lies sql ps ts)
    (hfg : ∀ {p t}, p.Is t → f p = g t) (i : Nat) : ps[i]?.any f = (ts.drop i).head?.any g := by
  cases hi : ts.drop i with
  | nil =>
    rw [h.lookup_none hi]
    rfl
  | cons t rest =>
    obtain ⟨p, hp, his⟩ := h.lookup hi
    rw [hp]
    exact hfg his

theorem isKeywordAt (h : Lies sql ps ts) (i : Nat) (keyword : Text) :
    InPlace.isKeywordAt ps i keyword = Token.startsWith keyword (ts.drop i) := by
  rw [InPlace.isKeywordAt, h.any_lookup fun his => his.isKeyword keyword]
  cases ts.drop i <;> rfl

theorem isSymbolAt (h : Lies sql ps ts) (i : Nat) (c : Char) :
    InPlace.isSymbolAt ps i c = Token.opensWith c (ts.drop i) := by
  rw [InPlace.isSymbolAt, h.any_lookup fun his => his.isSymbol c]
  cases ts.drop i <;> rfl

/-- What is asked of some token is asked of the tokens that they stand for. -/
theorem any_eq {f : Placed → Bool} {g : Token → Bool} (h : Lies sql ps ts)
    (hfg : ∀ {p t}, p.Is t → f p = g t) : ps.any f = ts.any g := by
  have hall := h.stand
  clear h
  induction hall with
  | nil => rfl
  | cons his _ ih => rw [List.any_cons, List.any_cons, hfg his, ih]

/-- **A run of tokens covers text** from the first byte of its first token to the last byte of its
last one. -/
theorem span (h : Lies sql ps ts) :
    (InPlace.span sql ps : InPlace ε Text) = pure (Token.verbatim ts) := by
  obtain ⟨front, back, hsql, rfl⟩ := h.placed
  cases ts with
  | nil => rfl
  | cons t ts =>
    obtain ⟨last, hlast, hstop⟩ := getLast?_place (Text.byteLength front) t ts
    have hwhole : sql = (front ++ t.gap) ++ (Token.verbatim (t :: ts) ++ back) := by
      rw [hsql, Token.verbatim_cons, Token.render_cons]
      simp only [List.append_assoc]
    have hcut : Text.slice? (Text.byteLength front + Text.byteLength t.gap) last.stop sql =
        some (Token.verbatim (t :: ts)) := by
      rw [hstop, Token.render_cons, ← Token.verbatim_cons, Text.byteLength_append, ← Nat.add_assoc,
        ← Text.byteLength_append, hwhole, Text.slice?_append]
    rw [InPlace.span, hlast]
    exact orAbort_eq hcut

/-- **Quotes are one byte each.** -/
theorem name (h : Lies sql ps ts) (ht : t ∈ ts) (his : p.Is t) :
    (InPlace.name p : InPlace ε Text) = pure t.name := by
  rw [InPlace.name, Token.name, his.kind, his.text]
  split
  · next hquoted =>
    obtain ⟨body, hbody⟩ := h.quoted t ht hquoted
    have hlength : Text.byteLength t.text = 1 + Text.byteLength body + 1 := by
      rw [hbody, Text.byteLength, Text.byteLength_append, ← Nat.add_assoc]
      rfl
    have hcut : Text.slice? 1 (1 + Text.byteLength body) t.text = some body := by
      rw [hbody]
      exact Text.slice?_append ['"'] body ['"']
    have hname : t.text.tail.dropLast = body := by
      rw [hbody, List.tail_cons, List.dropLast_concat]
    rw [minus_eq (by omega), pure_bind, hlength, Nat.add_sub_cancel, orAbort_eq hcut, pure_bind, hname]
  · rfl

end Lies

/-! ## Groups -/

theorem length_tokens (g : Group) : g.tokens.length = g.inside.length + 2 := by
  simp [Group.tokens]

theorem groupEnd_nil (h : Stand ps ts) (hi : ts.drop i = []) :
    groupEnd ps i depth = throw .unbalanced :=
  whileBelow_behind (h.length_eq ▸ List.drop_eq_nil_iff.1 hi)

theorem groupEnd_cons (h : Stand ps ts) (hi : ts.drop i = t :: rest) :
    groupEnd ps i (depth + 1) =
      if t.isSymbol ')' ∧ depth = 0 then pure (i + 1)
      else groupEnd ps (i + 1) (t.depthAfter depth + 1) := by
  obtain ⟨p, hp, his⟩ := h.index hi
  rw [groupEnd, whileBelow_below (h.length_eq ▸ lt_of_drop hi), hp, pure_bind, his.isSymbol,
    his.isSymbol, Token.depthAfter, Nat.add_sub_cancel]
  by_cases hopen : t.isSymbol '(' = true
  · have hclose : t.isSymbol ')' = false := isSymbol_ne hopen (by decide)
    rw [if_pos hopen, if_pos hopen, hclose, if_neg (by simp), onward_eq (Nat.lt_add_one i),
      ← groupEnd]
  rw [if_neg hopen, if_neg hopen]
  by_cases hclose : t.isSymbol ')' = true
  · rw [if_pos hclose, if_pos hclose]
    by_cases hdepth : depth = 0
    · rw [if_pos hdepth, if_pos ⟨hclose, hdepth⟩]
    · rw [if_neg hdepth, if_neg fun h => hdepth h.2, Nat.sub_add_cancel (Nat.pos_of_ne_zero hdepth),
        onward_eq (Nat.lt_add_one i), ← groupEnd]
  · rw [if_neg hclose, if_neg hclose, if_neg fun h => hclose h.1, onward_eq (Nat.lt_add_one i),
      ← groupEnd]

theorem groupEnd_eq (h : Stand ps ts) (hi : ts.drop i = rest) : groupEnd ps i (depth + 1) =
    match closeGroup depth rest with
    | none => throw .unbalanced
    | some r => pure (i + (r.1.length + 1)) := by
  induction rest generalizing i depth with
  | nil => exact groupEnd_nil h hi
  | cons t rest ih =>
    rw [groupEnd_cons h hi, closeGroup]
    split
    · rfl
    · rw [ih (drop_succ hi)]
      cases closeGroup (t.depthAfter depth) rest with
      | none => rfl
      | some r =>
        show pure (i + 1 + (r.1.length + 1)) = pure (i + (r.1.length + 1 + 1))
        rw [Nat.add_right_comm i 1]
        rfl

/-- The parenthesis at the start of a group is passed over. -/
theorem skipGroup_cons (h : Stand ps ts) (hi : ts.drop i = t :: rest)
    (hopen : t.isSymbol '(' = true) : skipGroup ps i = groupEnd ps (i + 1) 1 := by
  obtain ⟨p, hp, his⟩ := h.index hi
  rw [skipGroup, groupEnd, whileBelow_below (h.length_eq ▸ lt_of_drop hi), hp, pure_bind,
    his.isSymbol, if_pos hopen, onward_eq (Nat.lt_add_one i), ← groupEnd]

/-- **Groups are skipped as they are read.** -/
theorem skipGroup_eq (h : Stand ps ts) (hopen : Token.opensWith '(' (ts.drop i) = true) :
    skipGroup ps i =
      match readGroup (ts.drop i) with
      | none => throw .unbalanced
      | some r => pure (i + r.1.tokens.length) := by
  cases hi : ts.drop i with
  | nil =>
    rw [hi] at hopen
    cases hopen
  | cons t rest =>
    rw [hi] at hopen
    have hsymbol : t.isSymbol '(' = true := hopen
    rw [skipGroup_cons h hi hsymbol, groupEnd_eq h (drop_succ hi), readGroup, if_pos hsymbol]
    cases closeGroup 0 rest with
    | none => rfl
    | some r =>
      show pure _ = pure _
      congr 1
      simp [Group.tokens]
      omega

theorem group_eq_throw (h : Lies sql ps ts) (hopen : Token.opensWith '(' (ts.drop i) = true)
    (hread : readGroup (ts.drop i) = none) : group ps i = throw .unbalanced := by
  rw [group, skipGroup_eq h.stand hopen, hread]
  rfl

/-- **What is inside a group lies in the text**, and behind the group is the rest. -/
theorem group_eq (h : Lies sql ps ts) (hopen : Token.opensWith '(' (ts.drop i) = true)
    (hread : readGroup (ts.drop i) = some (g, rest)) :
    ∃ qs, group ps i = pure (qs, i + g.tokens.length) ∧ Lies sql qs g.inside ∧
      ts.drop (i + g.tokens.length) = rest ∧ i < ts.length := by
  have htokens := readGroup_eq hread
  have hlength := length_tokens g
  have hall : ts.drop i = g.opening :: (g.inside ++ (g.closing :: rest)) := by
    rw [htokens, Group.tokens]
    simp
  have hlt := lt_of_drop hall
  obtain ⟨qs, hslice, hqs⟩ := h.slice hlt (drop_succ hall)
  have hend : i + 1 + g.inside.length = i + g.tokens.length - 1 := by omega
  refine ⟨qs, ?_, hqs, drop_add g.tokens htokens, hlt⟩
  rw [group, skipGroup_eq h.stand hopen, hread]
  dsimp only
  rw [pure_bind, minus_eq (by omega), pure_bind, ← hend, hslice, pure_bind]

/-! ## Parts -/

theorem runsFrom_cons {first : Nat} (h : Lies sql ps ts) (hi : ts.drop i = t :: rest) :
    (runsFrom ps i depth first : InPlace ε (List (List Placed))) =
      if t.isSymbol ',' ∧ depth = 0 then do
        let run ← slice ps first i
        return run :: (← runsFrom ps (i + 1) depth (i + 1))
      else runsFrom ps (i + 1) (t.depthAfter depth) first := by
  obtain ⟨p, hp, his⟩ := h.index (ε := ε) hi
  rw [runsFrom, whileBelow_below (h.length_eq ▸ lt_of_drop hi), hp, pure_bind, his.isSymbol,
    his.isSymbol, his.isSymbol, Token.depthAfter]
  simp only [onward_eq (Nat.lt_add_one i)]
  by_cases hopen : t.isSymbol '(' = true
  · have hcomma : t.isSymbol ',' = false := isSymbol_ne hopen (by decide)
    rw [if_pos hopen, if_pos hopen, hcomma, if_neg (by simp)]
    rfl
  rw [if_neg hopen, if_neg hopen]
  by_cases hclose : t.isSymbol ')' = true
  · have hcomma : t.isSymbol ',' = false := isSymbol_ne hclose (by decide)
    rw [if_pos hclose, if_pos hclose, hcomma, if_neg (by simp)]
    rfl
  · rw [if_neg hclose, if_neg hclose]
    rfl

theorem modifyHead_nil_append (tss : List (List Token)) : tss.modifyHead ([] ++ ·) = tss := by
  cases tss <;> rfl

/-- **Runs between commas lie in the text.** -/
theorem runsFrom_eq {first : Nat} (depth : Nat) (run : List Token) (h : Lies sql ps ts)
    (hfirst : first ≤ ts.length) (hi : ts.drop first = run ++ rest) : ∃ pss,
      (runsFrom ps (first + run.length) depth first : InPlace ε (List (List Placed))) = pure pss ∧
        List.Forall₂ (Lies sql) pss ((splitCommas depth rest).modifyHead (run ++ ·)) := by
  induction rest generalizing first run depth with
  | nil =>
    obtain ⟨qs, hslice, hqs⟩ := h.slice_length (ε := ε) hfirst hi
    have hend : ps.length ≤ first + run.length := by
      rw [h.length_eq]
      exact List.drop_eq_nil_iff.1 (drop_add run hi)
    refine ⟨[qs], ?_, .cons (by simpa using hqs) .nil⟩
    rw [runsFrom, whileBelow_behind hend, hslice]
    rfl
  | cons t rest ih =>
    have hnext : ts.drop (first + run.length) = t :: rest := drop_add run hi
    rw [runsFrom_cons h hnext, splitCommas]
    split
    · obtain ⟨qs, hslice, hqs⟩ := h.slice (ε := ε) hfirst hi
      obtain ⟨pss, hlater, hpss⟩ := ih depth [] (lt_of_drop hnext) (drop_succ hnext)
      have hlater : runsFrom ps (first + run.length + 1) depth (first + run.length + 1) =
        (pure pss : InPlace ε (List (List Placed))) := hlater
      refine ⟨qs :: pss, ?_, .cons (by simpa using hqs) ?_⟩
      · rw [hslice, pure_bind, hlater]
        rfl
      · rwa [modifyHead_nil_append] at hpss
    · obtain ⟨pss, hlater, hpss⟩ := ih (t.depthAfter depth) (run ++ [t]) hfirst
        (by rw [hi, List.append_assoc]; rfl)
      refine ⟨pss, ?_, ?_⟩
      · rw [← hlater, List.length_append]
        rfl
      · rw [List.modifyHead_modifyHead]
        simpa [Function.comp_def] using hpss

/-- **Parts are told apart as they are read.** -/
theorem runs_eq (h : Lies sql ps ts) : ∃ pss,
    (runs ps : InPlace ε (List (List Placed))) = pure pss ∧
      List.Forall₂ (Lies sql) pss (parts ts) := by
  obtain ⟨pss, hruns, hpss⟩ := runsFrom_eq (ε := ε) 0 [] h (Nat.zero_le _) rfl
  rw [modifyHead_nil_append] at hpss
  exact ⟨pss, hruns, hpss⟩

/-! ## Keywords -/

theorem isKeyword_of_isSymbol {c : Char} (h : t.isSymbol c = true) (keyword : Text) :
    t.isKeyword keyword = false := by
  simp [Token.isKeyword, not_word_of_symbol h]

theorem findFrom_cons {keyword : Text} (h : Lies sql ps ts) (hi : ts.drop i = t :: rest) :
    (findFrom ps keyword i depth : InPlace ε (Option Nat)) =
      if t.isKeyword keyword ∧ depth = 0 then pure (some i)
      else findFrom ps keyword (i + 1) (t.depthAfter depth) := by
  obtain ⟨p, hp, his⟩ := h.index (ε := ε) hi
  rw [findFrom, whileBelow_below (h.length_eq ▸ lt_of_drop hi), hp, pure_bind, his.isSymbol,
    his.isSymbol, his.isKeyword, Token.depthAfter]
  simp only [onward_eq (Nat.lt_add_one i)]
  by_cases hopen : t.isSymbol '(' = true
  · rw [if_pos hopen, if_pos hopen, isKeyword_of_isSymbol hopen, if_neg (by simp)]
    rfl
  rw [if_neg hopen, if_neg hopen]
  by_cases hclose : t.isSymbol ')' = true
  · rw [if_pos hclose, if_pos hclose, isKeyword_of_isSymbol hclose, if_neg (by simp)]
    rfl
  · rw [if_neg hclose, if_neg hclose]
    rfl

/-- **Keywords are found where they are read.** -/
theorem findFrom_eq (keyword : Text) (depth : Nat) (h : Lies sql ps ts) (hi : ts.drop i = rest) :
    ∃ found, (findFrom ps keyword i depth : InPlace ε (Option Nat)) = pure found ∧
      Option.Rel (fun j after => j < ts.length ∧ ts.drop (j + 1) = after) found
        (afterKeywordFrom keyword depth rest) := by
  induction rest generalizing i depth with
  | nil => exact ⟨none, whileBelow_behind (h.length_eq ▸ List.drop_eq_nil_iff.1 hi), .none⟩
  | cons t rest ih =>
    rw [findFrom_cons h hi, afterKeywordFrom]
    split
    · exact ⟨some i, rfl, .some ⟨lt_of_drop hi, drop_succ hi⟩⟩
    · exact ih _ (drop_succ hi)

end InPlace

end PgGateway.Sql
