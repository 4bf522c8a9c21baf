import Mathlib.Logic.Relation
import PgGateway.Proofs.Sql.CaseFolding
import PgGateway.Sql.Statement

/-!
# The layout of a statement

Blanks and closed comments separate the parts of a statement, in any number and mixture
(`Separator`). The scan of a text splits where a separator begins (`squeeze_append`), and knows
behind it only that there was one (`Separator.squeeze`). So statements that differ only in what
separates their parts have one normal form, and are recognised and passed on alike
(`layout_irrelevant`).
-/

namespace PgGateway.Sql

variable {a body cs rest sql sql' w w' : Text} {c : Char} {gap : Gap}

/-! ## Separators -/

/-- A text of blanks, of comments that end with their line, and of comments that end with a star and
a slash. -/
inductive Separator : Text → Prop
  | blank (c : Char) (hc : isBlank c = true) : Separator [c]
  | lineComment (body : Text) (hbody : '\n' ∉ body) : Separator ('-' :: '-' :: body ++ ['\n'])
  | blockComment (body : Text) (hbody : ¬Text.Contains "*/" body) :
      Separator ('/' :: '*' :: body ++ ['*', '/'])
  | append {w w' : Text} (hw : Separator w) (hw' : Separator w') : Separator (w ++ w')

/-- A comment that is not closed. -/
inductive OpenComment : Text → Prop
  | line (body : Text) (hbody : '\n' ∉ body) : OpenComment ('-' :: '-' :: body)
  | block (body : Text) (hbody : ¬Text.Contains "*/" body) : OpenComment ('/' :: '*' :: body)

theorem widen_widen (gap : Gap) : gap.widen.widen = gap.widen := by
  cases gap <;> rfl

theorem squeeze_lineComment (hbody : '\n' ∉ body) (rest : Text) :
    squeeze (.lineComment gap) (body ++ rest) = squeeze (.lineComment gap) rest := by
  induction body with
  | nil => rfl
  | cons c body ih =>
    obtain ⟨hc, hlater⟩ := List.ne_and_not_mem_of_not_mem_cons hbody
    rw [List.cons_append, squeeze, if_neg hc.symm, ih hlater]

theorem squeeze_blockComment (hbody : ¬Text.Contains "*/" body) (hrest : rest.head? ≠ some '/') :
    squeeze (.blockComment gap) (body ++ rest) = squeeze (.blockComment gap) rest := by
  induction body with
  | nil => rfl
  | cons c body ih =>
    have hlater : ¬Text.Contains "*/" body := fun h => hbody (List.infix_cons h)
    rw [List.cons_append, squeeze, ih hlater]
    -- a star at the end of the body is not read with what is behind the body
    rintro cs rfl hnext
    cases body with
    | nil => exact hrest (congrArg List.head? hnext)
    | cons d body =>
      cases hnext
      exact hbody ⟨[], body, rfl⟩

/-- **A separator leaves no more than a gap**, and however often it is followed by another. -/
theorem Separator.squeeze (h : Separator w) (gap : Gap) (rest : Text) :
    squeeze (.outside gap) (w ++ rest) = squeeze (.outside gap.widen) rest := by
  induction h generalizing gap rest with
  | blank c hc =>
    rw [List.singleton_append, squeeze_outside fun d _ => opensComment_of_blank hc, if_pos hc]
  | lineComment body hbody =>
    rw [List.append_assoc]
    exact squeeze_lineComment hbody ('\n' :: rest)
  | blockComment body hbody =>
    rw [List.append_assoc]
    exact squeeze_blockComment hbody nofun
  | append hw hw' ihw ihw' => rw [List.append_assoc, ihw, ihw', widen_widen]

/-- A comment that is not closed leaves nothing of the rest. -/
theorem OpenComment.squeeze (h : OpenComment w) (gap : Gap) : squeeze (.outside gap) w = [] := by
  cases h with
  | line body hbody =>
    have hline : squeeze (.lineComment gap.widen) (body ++ []) = [] := squeeze_lineComment hbody []
    rwa [List.append_nil] at hline
  | block body hbody =>
    have hblock : squeeze (.blockComment gap.widen) (body ++ []) = [] :=
      squeeze_blockComment hbody nofun
    rwa [List.append_nil] at hblock

/-- The text begins with a blank or opens a comment. -/
def BeginsSeparator (w : Text) : Prop :=
  ∃ c cs, w = c :: cs ∧ (isBlank c = true ∨ c = '-' ∨ c = '/')

theorem Separator.begins (h : Separator w) : BeginsSeparator w := by
  induction h with
  | blank c hc => exact ⟨c, [], rfl, .inl hc⟩
  | lineComment => exact ⟨_, _, rfl, .inr (.inl rfl)⟩
  | blockComment => exact ⟨_, _, rfl, .inr (.inr rfl)⟩
  | @append w w' hw hw' ihw ihw' =>
    obtain ⟨c, cs, rfl, hc⟩ := ihw
    exact ⟨c, cs ++ w', rfl, hc⟩

theorem OpenComment.begins (h : OpenComment w) : BeginsSeparator w := by
  cases h with
  | line => exact ⟨_, _, rfl, .inr (.inl rfl)⟩
  | block => exact ⟨_, _, rfl, .inr (.inr rfl)⟩

/-! ## The scan in front of a separator -/

/-- The zone behind a text. -/
def Zone.behind : Zone → Text → Zone
  | zone, [] => zone
  | .code, '-' :: '-' :: cs => behind .lineComment cs
  | .code, '/' :: '*' :: cs => behind .blockComment cs
  | .code, c :: cs => behind (.after c) cs
  | .quoted q, c :: cs => behind (if c = q then .code else .quoted q) cs
  | .lineComment, c :: cs => behind (if c = '\n' then .code else .lineComment) cs
  | .blockComment, '*' :: '/' :: cs => behind .code cs
  | .blockComment, _ :: cs => behind .blockComment cs

theorem behind_code (hcomment : ∀ d ∈ cs.head?, ¬opensComment c d) :
    Zone.behind .code (c :: cs) = (Zone.after c).behind cs := by
  rw [Zone.behind]
  · exact not_lineComment hcomment
  · exact not_blockComment hcomment

/-- No comment is opened across the place between the two texts. -/
def Splits (a rest : Text) : Prop := ∀ c ∈ a.getLast?, ∀ d ∈ rest.head?, ¬opensComment c d

theorem Splits.tail {rest : Text} (h : Splits (c :: a) rest) : Splits a rest :=
  fun d hd => h d (List.mem_getLast?_cons hd)

theorem Splits.head {rest : Text} (h : Splits (c :: cs) rest)
    (hcomment : ∀ d ∈ cs.head?, ¬opensComment c d) : ∀ d ∈ (cs ++ rest).head?, ¬opensComment c d := by
  cases cs with
  | nil => exact h c rfl
  | cons e cs => exact hcomment

/-- **The scan splits behind code.** What follows is scanned from outside quotes and comments on,
with a gap that does not depend on it, if no comment is opened across the split. -/
theorem squeeze_append (scan : Scan) (a : Text) (hbehind : scan.zone.behind a = .code) :
    ∃ gap, ∀ rest, Splits a rest →
      squeeze scan (a ++ rest) = squeeze scan a ++ squeeze (.outside gap) rest := by
  fun_induction squeeze scan a with
  | case1 scan =>
    cases scan with
    | outside gap => exact ⟨gap, fun _ _ => rfl⟩
    | quoted | lineComment | blockComment => cases hbehind
  | case2 gap cs ih | case3 gap cs ih =>
    obtain ⟨gap', hsplit⟩ := ih hbehind
    exact ⟨gap', fun rest hrest => hsplit rest hrest.tail.tail⟩
  | case4 gap c cs hline hblock hblank ih =>
    have hcomment := not_opensComment hline hblock
    rw [Scan.zone, behind_code hcomment, Zone.after_blank hblank] at hbehind
    obtain ⟨gap', hsplit⟩ := ih hbehind
    refine ⟨gap', fun rest hrest => ?_⟩
    rw [List.cons_append, squeeze_outside (hrest.head hcomment), if_pos hblank]
    exact hsplit rest hrest.tail
  | case5 gap c cs hline hblock hblank ih =>
    have hcomment := not_opensComment hline hblock
    rw [Scan.zone, behind_code hcomment, ← Scan.zone_after] at hbehind
    obtain ⟨gap', hsplit⟩ := ih hbehind
    refine ⟨gap', fun rest hrest => ?_⟩
    rw [List.cons_append, squeeze_outside (hrest.head hcomment), if_neg hblank,
      hsplit rest hrest.tail, List.append_assoc]
    rfl
  | case6 q c cs ih =>
    rw [Scan.zone, Zone.behind] at hbehind
    rw [Scan.zone_quoted] at ih
    obtain ⟨gap', hsplit⟩ := ih hbehind
    refine ⟨gap', fun rest hrest => ?_⟩
    rw [List.cons_append, squeeze, hsplit rest hrest.tail, List.cons_append]
  | case7 gap c cs ih =>
    rw [Scan.zone, Zone.behind] at hbehind
    rw [Scan.zone_lineComment] at ih
    obtain ⟨gap', hsplit⟩ := ih hbehind
    refine ⟨gap', fun rest hrest => ?_⟩
    rw [List.cons_append, squeeze, hsplit rest hrest.tail]
  | case8 gap cs ih =>
    obtain ⟨gap', hsplit⟩ := ih hbehind
    exact ⟨gap', fun rest hrest => hsplit rest hrest.tail.tail⟩
  | case9 gap c cs hclose ih =>
    have hzone : Zone.behind .blockComment (c :: cs) = Zone.behind .blockComment cs := by
      rw [Zone.behind]
      exact hclose
    obtain ⟨gap', hsplit⟩ := ih (hzone ▸ hbehind)
    refine ⟨gap', fun rest hrest => ?_⟩
    rw [List.cons_append, squeeze]
    · exact hsplit rest hrest.tail
    · rintro cs' rfl hnext
      cases cs with
      | nil => cases hbehind
      | cons d cs =>
        cases hnext
        exact hclose cs rfl rfl

/-! ## Another separator -/

/-- The text does not end in a dash that would open a comment with what follows it. -/
def Apart (a w : Text) : Prop := a.getLast? ≠ some '-' ∨ ∃ c ∈ w.head?, isBlank c = true

theorem BeginsSeparator.splits (hw : BeginsSeparator w) (hapart : Apart a w) (b : Text) :
    Splits a (w ++ b) := by
  obtain ⟨d, cs, rfl, hd⟩ := hw
  rintro c hc _ ⟨⟩ hopens
  rcases hopens with ⟨rfl, rfl⟩ | ⟨rfl, rfl⟩
  · rcases hapart with hdash | ⟨_, ⟨⟩, hblank⟩
    · exact hdash hc
    · exact absurd hblank (by decide)
  · exact absurd hd (by decide)

/-- Behind a separator the scan goes on in one way, whichever separator it is. -/
theorem squeeze_separated (ha : Zone.behind .code a = .code) : ∃ gap, ∀ w b, Separator w →
    Apart a w → squeeze (.outside .start) (a ++ w ++ b) =
      squeeze (.outside .start) a ++ squeeze (.outside gap) b := by
  obtain ⟨gap, hsplit⟩ := squeeze_append (.outside .start) a ha
  refine ⟨gap.widen, fun w b hw hapart => ?_⟩
  rw [List.append_assoc, hsplit _ (hw.begins.splits hapart b), hw.squeeze]

theorem normalize_between (ha : Zone.behind .code a = .code) (hw : Separator w)
    (hw' : Separator w') (hapart : Apart a w) (hapart' : Apart a w') (b : Text) :
    normalize (a ++ w ++ b) = normalize (a ++ w' ++ b) := by
  obtain ⟨gap, hsplit⟩ := squeeze_separated ha
  rw [normalize, normalize, hsplit w b hw hapart, hsplit w' b hw' hapart']

theorem normalize_front (hw : Separator w) (b : Text) : normalize (w ++ b) = normalize b := by
  rw [normalize, hw.squeeze]
  rfl

theorem normalize_back (ha : Zone.behind .code a = .code) (hw : Separator w)
    (hapart : Apart a w) : normalize (a ++ w) = normalize a := by
  obtain ⟨gap, hsplit⟩ := squeeze_separated ha
  have hback := hsplit w [] hw hapart
  rw [List.append_nil] at hback
  rw [normalize, normalize, hback, squeeze, List.append_nil]

theorem normalize_openComment (ha : Zone.behind .code a = .code) (hw : OpenComment w)
    (hapart : Apart a w) : normalize (a ++ w) = normalize a := by
  obtain ⟨gap, hsplit⟩ := squeeze_append (.outside .start) a ha
  have hsplits := hw.begins.splits hapart []
  rw [List.append_nil] at hsplits
  rw [normalize, normalize, hsplit w hsplits, hw.squeeze, List.append_nil]

/-- The texts differ in one separator outside quotes and comments: another stands in its place, or
none where it is at the front or at the back. A comment at the back may be open. -/
inductive Respaced : Text → Text → Prop
  | between {a w w' : Text} (ha : Zone.behind .code a = .code) (hw : Separator w)
      (hw' : Separator w') (hapart : Apart a w) (hapart' : Apart a w') (b : Text) :
      Respaced (a ++ w ++ b) (a ++ w' ++ b)
  | front {w : Text} (hw : Separator w) (b : Text) : Respaced (w ++ b) b
  | back {a w : Text} (ha : Zone.behind .code a = .code) (hw : Separator w)
      (hapart : Apart a w) : Respaced (a ++ w) a
  | openComment {a w : Text} (ha : Zone.behind .code a = .code) (hw : OpenComment w)
      (hapart : Apart a w) : Respaced (a ++ w) a

theorem Respaced.normalize_eq (h : Respaced sql sql') : normalize sql = normalize sql' := by
  cases h with
  | between ha hw hw' hapart hapart' b => exact normalize_between ha hw hw' hapart hapart' b
  | front hw => exact normalize_front hw sql'
  | back ha hw hapart => exact normalize_back ha hw hapart
  | openComment ha hw hapart => exact normalize_openComment ha hw hapart

/-- The texts differ in any number of separators. -/
def SameLayout : Text → Text → Prop := Relation.EqvGen Respaced

theorem SameLayout.normalize_eq (h : SameLayout sql sql') : normalize sql = normalize sql' := by
  induction h with
  | rel sql sql' h => exact h.normalize_eq
  | refl sql => rfl
  | symm sql sql' h ih => exact ih.symm
  | trans x y z hxy hyz ihxy ihyz => exact ihxy.trans ihyz

end PgGateway.Sql

namespace PgGateway

open Sql

/-- What a statement was recognised as, and what the engine is given for it. -/
def Translated.outcome (t : Translated) : Statement × Text := (t.statement, t.text)

namespace Sql

/-- A statement is known by its normal form only. -/
theorem translate_congr {sql sql' : Text} (h : normalize sql = normalize sql') :
    (translate sql).map Translated.outcome = (translate sql').map Translated.outcome := by
  have houtcome : ∀ sql, (translate sql).map Translated.outcome =
      (readStatement (normalize sql)).bind fun ts => (Statement.ofTokens ts).map fun statement =>
        (statement, statement.engineText (normalize sql)) := by
    intro sql
    rw [translate]
    cases readStatement (normalize sql) with
    | error e => rfl
    | ok ts =>
      show Except.map _ (Statement.ofTokens ts >>= _) = Except.map _ (Statement.ofTokens ts)
      cases Statement.ofTokens ts <;> rfl
  rw [houtcome, houtcome, h]

/-- **Separators are interchangeable.** Where a text outside quotes and comments is followed by a
separator, another one gives the same normal form, unless a dash in front of it would open a comment
with it. So however the parts of a statement are laid out and commented, it is refused for the same
reason or recognised as the same statement, and the engine is given the same text. -/
theorem layout_irrelevant :
    (∀ a w w' b : Text, Zone.behind .code a = .code → Separator w → Separator w' →
      (a.getLast? ≠ some '-' ∨
        (∃ c ∈ w.head?, isBlank c = true) ∧ ∃ c ∈ w'.head?, isBlank c = true) →
      normalize (a ++ w ++ b) = normalize (a ++ w' ++ b)) ∧
    ∀ sql sql', SameLayout sql sql' →
      (translate sql).map Translated.outcome = (translate sql').map Translated.outcome := by
  constructor
  · intro a w w' b ha hw hw' hdash
    exact normalize_between ha hw hw' (hdash.imp_right And.left) (hdash.imp_right And.right) b
  · intro sql sql' hlayout
    exact translate_congr hlayout.normalize_eq

/-- A comment that holds one quote, and one that opens another comment. -/
def oddComments : Text := ('/' :: '*' :: ['\''] ++ ['*', '/']) ++ ('-' :: '-' :: ['/', '*'] ++ ['\n'])

/-- Quotes and comment marks within comments are not read, and blanks within quotes stay. -/
theorem layout_irrelevant_oddComments : Separator [' '] ∧ Separator oddComments ∧
    normalize ("SELECT" ++ [' '] ++ "'a  b' FROM t") =
      normalize ("SELECT" ++ oddComments ++ "'a  b' FROM t") ∧
    (translate ("SELECT" ++ [' '] ++ "'a  b' FROM t")).map Translated.outcome =
      (translate ("SELECT" ++ oddComments ++ "'a  b' FROM t")).map Translated.outcome := by
  have hspace : Separator [' '] := .blank ' ' (by decide)
  have hodd : Separator oddComments :=
    .append (.blockComment ['\''] (by decide)) (.lineComment ['/', '*'] (by decide))
  have hcode : Zone.behind .code "SELECT" = .code := by decide
  have hdash : ("SELECT" : Text).getLast? ≠ some '-' := by decide
  have hlayout : SameLayout ("SELECT" ++ [' '] ++ "'a  b' FROM t")
      ("SELECT" ++ oddComments ++ "'a  b' FROM t") :=
    .rel _ _ (.between hcode hspace hodd (.inl hdash) (.inl hdash) _)
  exact ⟨hspace, hodd, layout_irrelevant.1 _ _ _ _ hcode hspace hodd (.inl hdash),
    layout_irrelevant.2 _ _ hlayout⟩

end Sql

end PgGateway
