import Mathlib.Order.Bounds.Basic
import PgGateway.Proofs.Sql.Balanced

/-!
# Parentheses that match

Whether the parentheses of a run of tokens match can be told by counting them (`Paired`), without
following how deep they are nested. Groups and parts are found by following it, and the two agree: a
group that is read is the shortest run from its parenthesis on whose parentheses match, and there is
none just if no group is read (`closesAt_iff`, `readGroup_eq_none_iff`). Parts with commas between
them make up the run again (`exists_series`), and if the parentheses of the run match, so do those of
every part, and no comma of it stands outside them (`Paired.part`).
-/

namespace PgGateway.Sql

variable {depth i j : Nat} {t : Token} {ts us rest front : List Token} {g : Group}

/-! ## Counting -/

/-- How many parentheses the tokens open. -/
def openings (ts : List Token) : Nat := ts.countP (·.isSymbol '(')

/-- How many parentheses the tokens close. -/
def closings (ts : List Token) : Nat := ts.countP (·.isSymbol ')')

/-- The parentheses of the tokens match: as many are closed as are opened, and up to no token more
than were opened. -/
structure Paired (ts : List Token) : Prop where
  even : closings ts = openings ts
  inOrder : ∀ front, front <+: ts → closings front ≤ openings front

@[simp] theorem openings_nil : openings [] = 0 := rfl

@[simp] theorem closings_nil : closings [] = 0 := rfl

theorem openings_append (ts us : List Token) : openings (ts ++ us) = openings ts + openings us :=
  List.countP_append

theorem closings_append (ts us : List Token) : closings (ts ++ us) = closings ts + closings us :=
  List.countP_append

theorem openings_cons (t : Token) (ts : List Token) :
    openings (t :: ts) = openings [t] + openings ts := openings_append [t] ts

theorem closings_cons (t : Token) (ts : List Token) :
    closings (t :: ts) = closings [t] + closings ts := closings_append [t] ts

/-- What a token does to the parentheses that are open is told by whether it is one. -/
theorem depthAfter_closings (h : ¬(t.isSymbol ')' ∧ depth = 0)) :
    t.depthAfter depth + closings [t] = depth + openings [t] := by
  unfold Token.depthAfter
  split
  · next hopen => simp [openings, closings, hopen, isSymbol_ne hopen (d := ')') (by decide)]
  · next hopen =>
    split
    · next hclose =>
      have hdepth : depth ≠ 0 := fun hzero => h ⟨hclose, hzero⟩
      simp [openings, closings, hopen, hclose]
      omega
    · next hclose => simp [openings, closings, hopen, hclose]

/-- **A run is balanced as its parentheses are counted.** -/
theorem balanced_iff : Balanced depth ts ↔ closings ts = depth + openings ts ∧
    ∀ front, front <+: ts → closings front ≤ depth + openings front := by
  induction ts generalizing depth with
  | nil =>
    refine ⟨?_, fun h => by simpa [Balanced] using h.1.symm⟩
    rintro rfl
    exact ⟨rfl, fun front hfront => by simp [List.prefix_nil.1 hfront]⟩
  | cons t ts ih =>
    rw [Balanced, ih, closings_cons, openings_cons]
    constructor
    · rintro ⟨hclose, hall, hfront⟩
      have hcount := depthAfter_closings hclose
      refine ⟨by omega, ?_⟩
      intro front hbegins
      rcases List.prefix_cons_iff.1 hbegins with rfl | ⟨front, rfl, hbehind⟩
      · simp
      · have hlater := hfront front hbehind
        rw [closings_cons, openings_cons]
        omega
    · rintro ⟨hall, hfront⟩
      have hclose : ¬(t.isSymbol ')' = true ∧ depth = 0) := by
        rintro ⟨hsymbol, rfl⟩
        have hfirst := hfront [t] (List.prefix_append [t] ts)
        simp [openings, closings, hsymbol, isSymbol_ne hsymbol (d := '(') (by decide)] at hfirst
      have hcount := depthAfter_closings hclose
      refine ⟨hclose, by omega, ?_⟩
      intro front hbegins
      have hlater := hfront (t :: front) (List.cons_prefix_cons.2 ⟨rfl, hbegins⟩)
      rw [closings_cons, openings_cons] at hlater
      omega

theorem paired_iff : Paired ts ↔ Balanced 0 ts := by
  rw [balanced_iff]
  simp only [Nat.zero_add]
  exact ⟨fun h => ⟨h.even, h.inOrder⟩, fun h => ⟨h.1, h.2⟩⟩

instance (ts : List Token) : Decidable (Paired ts) := decidable_of_iff _ paired_iff.symm

/-- In front of a balanced run at the end of a balanced run stands a balanced run. -/
theorem Balanced.of_append (h : Balanced 0 (us ++ ts)) (hts : Balanced 0 ts) : Balanced 0 us := by
  obtain ⟨hall, hfront⟩ := balanced_iff.1 h
  obtain ⟨hlater, -⟩ := balanced_iff.1 hts
  rw [closings_append, openings_append] at hall
  exact balanced_iff.2
    ⟨by omega, fun front hbegins => hfront front (hbegins.trans (List.prefix_append us ts))⟩

/-! ## The shortest run that matches -/

/-- The tokens from the first index up to the second are the shortest run from there on, but for the
empty one, whose parentheses match. -/
def ClosesAt (ts : List Token) (i j : Nat) : Prop :=
  IsLeast {j | i < j ∧ j ≤ ts.length ∧ Paired ((ts.take j).drop i)} j

/-- The parentheses of no run from the index on match, but for those of the empty one. -/
def NeverCloses (ts : List Token) (i : Nat) : Prop :=
  ∀ j, i < j → j ≤ ts.length → ¬Paired ((ts.take j).drop i)

/-- No shorter run from the front of a group on matches. -/
theorem Group.Sound.not_paired (h : g.Sound) (hbegins : front <+: g.tokens) (hne : front ≠ [])
    (hshorter : front.length < g.tokens.length) : ¬Paired front := by
  intro hpaired
  obtain ⟨t, front, rfl⟩ := List.exists_cons_of_ne_nil hne
  obtain ⟨rfl, hinside⟩ : t = g.opening ∧ front <+: g.inside ++ [g.closing] :=
    List.cons_prefix_cons.1 hbegins
  have hfront : front <+: g.inside := by
    rcases List.prefix_concat_iff.1 hinside with rfl | hfront
    · exact absurd hshorter (Nat.lt_irrefl _)
    · exact hfront
  have hwithin := (balanced_iff.1 h.balanced).2 front hfront
  have heven := hpaired.even
  have hopening : openings [g.opening] = 1 ∧ closings [g.opening] = 0 := by
    simp [openings, closings, h.opening, isSymbol_ne h.opening (d := ')') (by decide)]
  rw [closings_cons, openings_cons] at heven
  omega

theorem closesAt_of_readGroup (h : readGroup (ts.drop i) = some (g, rest)) :
    ClosesAt ts i (i + g.tokens.length) := by
  have hsplit := readGroup_eq h
  have hsound := readGroup_sound h
  have hrun : ∀ j, (ts.take j).drop i = (g.tokens ++ rest).take (j - i) := by
    intro j
    rw [List.drop_take, hsplit]
  have hlength := congrArg List.length hsplit
  rw [List.length_drop, List.length_append] at hlength
  have hpos : 0 < g.tokens.length := by simp [Group.tokens]
  refine ⟨⟨by omega, by omega, ?_⟩, ?_⟩
  · rw [hrun, Nat.add_sub_cancel_left, List.take_left]
    exact paired_iff.2 hsound.enclosed.balanced
  · rintro j ⟨hij, -, hpaired⟩
    by_contra hshorter
    have hle : j - i < g.tokens.length := by omega
    rw [hrun, List.take_append_of_le_length hle.le] at hpaired
    refine hsound.not_paired (List.take_prefix _ _) ?_ ?_ hpaired
    · rw [← List.length_pos_iff, List.length_take]
      omega
    · rw [List.length_take]
      omega

/-- Where some run from a parenthesis on matches, a group is read. -/
theorem exists_readGroup (hopen : Token.opensWith '(' (ts.drop i) = true) (hij : i < j)
    (hpaired : Paired ((ts.take j).drop i)) : ∃ g rest, readGroup (ts.drop i) = some (g, rest) := by
  obtain ⟨n, hn⟩ : ∃ n, j - i = n + 1 := ⟨j - i - 1, by omega⟩
  have hbalanced := paired_iff.1 hpaired
  rw [List.drop_take, hn] at hbalanced
  cases hdrop : ts.drop i with
  | nil =>
    rw [hdrop] at hopen
    cases hopen
  | cons t later =>
    rw [hdrop] at hopen hbalanced
    obtain ⟨g, rest, hsound, hsplit, -⟩ := Balanced.exists_group hbalanced hopen
    refine ⟨g, rest ++ later.drop n, ?_⟩
    have hall : t :: later = g.tokens ++ (rest ++ later.drop n) := by
      rw [← List.append_assoc, ← hsplit, List.cons_append, List.take_append_drop]
    rw [hall]
    exact hsound.readGroup _

/-- **A group that is read is the shortest run that matches.** -/
theorem closesAt_iff (hopen : Token.opensWith '(' (ts.drop i) = true) : ClosesAt ts i j ↔
    ∃ g rest, readGroup (ts.drop i) = some (g, rest) ∧ j = i + g.tokens.length := by
  constructor
  · intro h
    obtain ⟨g, rest, hread⟩ := exists_readGroup hopen h.1.1 h.1.2.2
    exact ⟨g, rest, hread, h.unique (closesAt_of_readGroup hread)⟩
  · rintro ⟨g, rest, hread, rfl⟩
    exact closesAt_of_readGroup hread

/-- **No group is read just if no run matches.** -/
theorem readGroup_eq_none_iff (hopen : Token.opensWith '(' (ts.drop i) = true) :
    readGroup (ts.drop i) = none ↔ NeverCloses ts i := by
  constructor
  · intro hnone j hij _ hpaired
    obtain ⟨g, rest, hread⟩ := exists_readGroup hopen hij hpaired
    rw [hread] at hnone
    cases hnone
  · intro hall
    by_contra hsome
    obtain ⟨⟨g, rest⟩, hread⟩ := Option.ne_none_iff_exists'.1 hsome
    obtain ⟨⟨hij, hle, hpaired⟩, -⟩ := closesAt_of_readGroup hread
    exact hall _ hij hle hpaired

/-! ## Parts -/

theorem exists_later {p : List Token} {ps : List (List Token)} (h : splitCommas depth ts = p :: ps) :
    ∃ later : List (Comma × List Token), later.map Prod.snd = ps ∧
      p ++ later.flatMap (fun entry => entry.1.1 :: entry.2) = ts := by
  induction ts generalizing depth p ps with
  | nil =>
    cases h
    exact ⟨[], rfl, rfl⟩
  | cons t ts ih =>
    rw [splitCommas] at h
    split at h
    · next hcomma =>
      cases h
      obtain ⟨q, qs, hsplit⟩ := List.exists_cons_of_ne_nil (splitCommas_ne_nil depth ts)
      obtain ⟨later, hlater, htokens⟩ := ih hsplit
      exact ⟨(⟨t, hcomma.1⟩, q) :: later, by rw [List.map_cons, hlater, hsplit],
        by simp [htokens]⟩
    · obtain ⟨q, qs, hsplit⟩ :=
        List.exists_cons_of_ne_nil (splitCommas_ne_nil (t.depthAfter depth) ts)
      rw [hsplit] at h
      cases h
      obtain ⟨later, hlater, htokens⟩ := ih hsplit
      exact ⟨later, hlater, by rw [List.cons_append, htokens]⟩

/-- **Parts with single commas between them are the run that they were parted from.** -/
theorem exists_series (ts : List Token) :
    ∃ s : Series (List Token), s.entries = parts ts ∧ s.tokens id = ts := by
  obtain ⟨p, ps, hsplit⟩ := List.exists_cons_of_ne_nil (splitCommas_ne_nil 0 ts)
  obtain ⟨later, hlater, htokens⟩ := exists_later hsplit
  exact ⟨⟨p, later⟩, by rw [Series.entries, hlater, parts, hsplit], htokens⟩

/-- No comma of the tokens stands outside their parentheses. -/
def Undivided (ts : List Token) : Prop :=
  ∀ front comma back, ts = front ++ comma :: back → comma.isSymbol ',' = true →
    closings front < openings front

theorem lt_openings_of_comma {comma : Token} {back : List Token} (hbalanced : Balanced depth ts)
    (hsingle : splitCommas depth ts = [ts]) (hts : ts = front ++ comma :: back)
    (hcomma : comma.isSymbol ',' = true) : closings front < depth + openings front := by
  induction front generalizing depth ts with
  | nil =>
    subst hts
    have hdepth : depth ≠ 0 := fun hzero => (splitCommas_tail hsingle).1 ⟨hcomma, hzero⟩
    simpa [Nat.pos_iff_ne_zero] using hdepth
  | cons t front ih =>
    subst hts
    have hlater := ih hbalanced.2 (splitCommas_tail hsingle).2 rfl
    have hcount := depthAfter_closings hbalanced.1
    rw [closings_cons, openings_cons]
    omega

/-- **The parentheses of a part match**, and no comma of it stands outside them. -/
theorem Paired.part {p : List Token} (h : Paired ts) (hp : p ∈ parts ts) :
    Paired p ∧ Undivided p := by
  obtain ⟨hbalanced, hsingle⟩ := (paired_iff.1 h).parts_enclosed hp
  refine ⟨paired_iff.2 hbalanced, fun front comma back hsplit hcomma => ?_⟩
  simpa using lt_openings_of_comma hbalanced hsingle hsplit hcomma

end PgGateway.Sql
