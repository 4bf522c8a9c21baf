import PgGateway.Proofs.Sql.Alike
import PgGateway.Proofs.Sql.Translation
import PgGateway.Proofs.Text.Utf8

/-!
# What a refusal says

A refused statement is quoted to its client: a token of it, or a name. Such a text is part of the
normal form, and the normal form has no character that the client did not send but spaces, and no
more of them. So what is said of a statement without a zero can be told (`tellable_refusal`).
-/

namespace PgGateway

open Sql Text

variable {R : Token → Token → Prop} {ts : List Token} {t u : Token} {c q : Char}
  {cs x sql : Text} {size : Nat}

namespace Sql

/-! ## What a normal form is made of -/

theorem mem_squeeze {scan : Scan} (h : c ∈ squeeze scan cs) : c ∈ cs ∨ c = ' ' := by
  fun_induction squeeze scan cs with
  | case1 => cases h
  | case2 gap cs ih | case3 gap cs ih =>
    exact (ih h).imp_left fun hmem => List.mem_cons_of_mem _ (List.mem_cons_of_mem _ hmem)
  | case4 gap d cs hline hblock hblank ih => exact (ih h).imp_left (List.mem_cons_of_mem d)
  | case5 gap d cs hline hblock hblank ih =>
    rcases List.mem_append.1 h with hgap | hrest
    · cases gap with
      | spaced => exact .inr (List.mem_singleton.1 hgap)
      | start | tight => cases hgap
    · rcases List.mem_cons.1 hrest with rfl | hrest
      · exact .inl List.mem_cons_self
      · exact (ih hrest).imp_left (List.mem_cons_of_mem d)
  | case6 q d cs ih =>
    rcases List.mem_cons.1 h with rfl | hrest
    · exact .inl List.mem_cons_self
    · exact (ih hrest).imp_left (List.mem_cons_of_mem d)
  | case7 gap d cs ih => exact (ih h).imp_left (List.mem_cons_of_mem d)
  | case8 gap cs ih =>
    exact (ih h).imp_left fun hmem => List.mem_cons_of_mem _ (List.mem_cons_of_mem _ hmem)
  | case9 gap d cs hclose ih => exact (ih h).imp_left (List.mem_cons_of_mem d)

/-- The number of characters that a scan has still to write for what it left out. -/
def Scan.owed : Scan → Nat
  | .outside gap | .lineComment gap | .blockComment gap => gap.text.length
  | .quoted _ => 0

theorem Scan.owed_after (c : Char) : (Scan.after c).owed = 0 := by
  unfold Scan.after
  split <;> rfl

theorem length_text_widen (gap : Gap) : gap.widen.text.length ≤ gap.text.length + 1 := by
  cases gap <;> decide

/-- A space is written only for something that was left out. -/
theorem length_squeeze_le (scan : Scan) (cs : Text) :
    (squeeze scan cs).length ≤ cs.length + scan.owed := by
  fun_induction squeeze scan cs with
  | case1 => exact Nat.zero_le _
  | case2 gap cs ih | case3 gap cs ih =>
    have hwiden := length_text_widen gap
    simp only [Scan.owed, List.length_cons] at ih ⊢
    omega
  | case4 gap d cs hline hblock hblank ih =>
    have hwiden := length_text_widen gap
    simp only [Scan.owed, List.length_cons] at ih ⊢
    omega
  | case5 gap d cs hline hblock hblank ih =>
    rw [Scan.owed_after] at ih
    simp only [Scan.owed, List.length_append, List.length_cons]
    omega
  | case6 q d cs ih =>
    have howed : Scan.owed (if d = q then .outside .tight else .quoted q) = 0 := by split <;> rfl
    rw [howed] at ih
    simp only [Scan.owed, List.length_cons]
    omega
  | case7 gap d cs ih =>
    have howed : Scan.owed (if d = '\n' then .outside gap else .lineComment gap) =
        gap.text.length := by split <;> rfl
    rw [howed] at ih
    simp only [Scan.owed, List.length_cons]
    omega
  | case8 gap cs ih | case9 gap d cs hclose ih =>
    simp only [Scan.owed, List.length_cons] at ih ⊢
    omega

theorem isPrefix_dropSemicolon (x : Text) : dropSemicolon x <+: x := by
  unfold dropSemicolon
  split
  · obtain ⟨blanks, htrim⟩ := trimEnd_append x.dropLast
    have hprefix : Text.trimEnd x.dropLast <+: x.dropLast := ⟨blanks, htrim⟩
    exact hprefix.trans (List.dropLast_prefix x)
  · exact List.prefix_refl x

theorem mem_normalize (h : c ∈ normalize sql) : c ∈ sql ∨ c = ' ' :=
  mem_squeeze ((isPrefix_dropSemicolon _).subset h)

theorem length_normalize_le (sql : Text) : (normalize sql).length ≤ sql.length :=
  Nat.le_trans (isPrefix_dropSemicolon _).length_le (length_squeeze_le (.outside .start) sql)

/-! ## What can be quoted of it -/

theorem zero_not_mem_excerpt (hsql : '\x00' ∉ sql) (hx : x.Sublist (normalize sql)) :
    '\x00' ∉ x := by
  intro hmem
  rcases mem_normalize (hx.subset hmem) with hzero | hspace
  · exact hsql hzero
  · cases hspace

theorem length_excerpt_le (hlength : sql.length ≤ size) (hx : x.Sublist (normalize sql)) :
    x.length ≤ size :=
  Nat.le_trans hx.length_le (Nat.le_trans (length_normalize_le sql) hlength)

theorem zero_not_mem_upper (h : '\x00' ∉ x) : '\x00' ∉ Text.upper x := by
  intro hmem
  obtain ⟨c, hc, hzero⟩ := List.mem_map.1 hmem
  have hnone : c.toUpper.toNat = 0 := congrArg Char.toNat hzero
  rw [toNat_toUpper] at hnone
  have hsame : c.toNat = 0 := by
    split at hnone <;> omega
  exact h ((Char.toNat_inj.1 hsame : c = '\x00') ▸ hc)

theorem halve_sublist (q : Char) (x : Text) : (Text.halve q x).Sublist x := by
  fun_induction Text.halve q x with
  | case1 | case2 => exact .refl _
  | case3 c d rest hpair ih =>
    obtain ⟨rfl, rfl⟩ := hpair
    exact (ih.cons_cons _).cons _
  | case4 c d rest hpair ih => exact ih.cons_cons c

theorem text_sublist_render (h : t ∈ ts) : t.text.Sublist (Token.render ts) := by
  have hpiece : t.gap ++ t.text ∈ ts.map fun t => t.gap ++ t.text := List.mem_map_of_mem h
  have hwhole := List.sublist_flatten_of_mem hpiece
  rw [← List.flatMap_def] at hwhole
  exact (List.sublist_append_right _ _).trans hwhole

theorem name_sublist (t : Token) : t.name.Sublist t.text := by
  unfold Token.name
  split
  · exact (halve_sublist _ _).trans ((List.dropLast_sublist _).trans (List.tail_sublist _))
  · exact .refl _

/-- The token can be quoted: as it is, in capitals, or by the name that it stands for. -/
structure Token.Quotable (size : Nat) (t : Token) : Prop where
  text : t.text.Tellable size
  upper : (Text.upper t.text).Tellable size
  name : t.name.Tellable size

theorem quotable_of_mem (hsql : '\x00' ∉ sql) (hlength : sql.length ≤ size)
    (hrender : Token.render ts = normalize sql) (h : t ∈ ts) : t.Quotable (4 * size) := by
  have htext : t.text.Sublist (normalize sql) := hrender ▸ text_sublist_render h
  have hname : t.name.Sublist (normalize sql) := (name_sublist t).trans htext
  have hunbroken := zero_not_mem_excerpt hsql htext
  have hshort := length_excerpt_le hlength htext
  constructor
  · exact .ofLength hunbroken hshort
  · refine .ofLength (zero_not_mem_upper hunbroken) ?_
    rw [Text.upper, List.length_map]
    exact hshort
  · exact .ofLength (zero_not_mem_excerpt hsql hname) (length_excerpt_le hlength hname)

/-! ## Refusals -/

/-- What is said of a fault can be told if what it quotes can be. -/
theorem Fault.Alike.tellable {e e' : Fault} (h : e.Alike R e')
    (hR : ∀ {t u}, R t u → t.Quotable size) : e.message.Tellable (size + 100) := by
  have hquote : Tellable 10 "\"" := by decide
  cases h with
  | same hdetail =>
    have hfixed : e.message.Tellable 100 := by
      cases e with
      | unclosedQuote | notAColumnName | incompleteClause | unknownKeyColumn => cases hdetail
      | _ => decide
    exact hfixed.mono (Nat.le_add_left _ _)
  | notAColumnName htu =>
    have hfound : Tellable 40 "expected a column name, found \"" := by decide
    exact ((hfound.append (hR htu).text).append hquote).mono (by omega)
  | incompleteClause htu =>
    have hincomplete : Tellable 20 "incomplete " := by decide
    have hclause : Tellable 20 " clause" := by decide
    exact ((hincomplete.append (hR htu).upper).append hclause).mono (by omega)
  | unknownKeyColumn hname =>
    obtain ⟨t, u, htu, -, rfl, -⟩ := hname
    have hcolumn : Tellable 20 "primary key column \"" := by decide
    have hundefined : Tellable 20 "\" is not defined" := by decide
    exact ((hcolumn.append (hR htu).name).append hundefined).mono (by omega)

theorem tellable_malformed {shape : Shape} {e : Fault} (h : e.message.Tellable size) :
    (SqlError.malformed shape e).message.Tellable (size + 50) := by
  have hmalformed : Tellable 10 "Malformed " := by decide
  have hshape : shape.name.Tellable 12 := by cases shape <;> decide
  have hstatement : Tellable 12 " statement: " := by decide
  exact (((hmalformed.append hshape).append hstatement).append h).mono (by omega)

end Sql

theorem SqlError.Alike.tellable {e e' : SqlError} (h : e.Alike R e')
    (hR : ∀ {t u}, R t u → t.Quotable size) : e.message.Tellable (size + 150) := by
  have hunsupported : Tellable 30 "Unsupported statement: " := by decide
  cases h with
  | empty =>
    have hnone : Tellable 0 [] := by decide
    exact (hunsupported.append hnone).mono (by omega)
  | unsupported htu => exact (hunsupported.append (hR htu).text).mono (by omega)
  | malformed hfault => exact (tellable_malformed (hfault.tellable hR)).mono (by omega)

namespace Sql

/-- A statement is refused when it is read, or when it is recognised. -/
theorem translate_eq_error {e : SqlError} (h : translate sql = .error e) :
    readStatement (normalize sql) = .error e ∨
      ∃ ts, readStatement (normalize sql) = .ok ts ∧ Statement.ofTokens ts = .error e := by
  cases hread : readStatement (normalize sql) with
  | error e' =>
    have hrefused : translate sql = .error e' := by
      simp only [translate, hread]
      rfl
    cases hrefused.symm.trans h
    exact .inl rfl
  | ok ts =>
    cases hstatement : Statement.ofTokens ts with
    | error e' =>
      have hrefused : translate sql = .error e' := by
        simp only [translate, hread]
        show (Statement.ofTokens ts >>= _) = _
        rw [hstatement]
        rfl
      cases hrefused.symm.trans h
      exact .inr ⟨ts, rfl, hstatement⟩
    | ok statement =>
      cases (translate_eq_ok.2 ⟨ts, statement, hread, hstatement, rfl⟩).symm.trans h

/-- The byte at which a quote is left open is told by a number. -/
theorem tellable_refusedReading {e : SqlError} (hlength : sql.length ≤ 104857600)
    (h : readStatement (normalize sql) = .error e) : e.message.Tellable 200 := by
  have hnormal : Text.byteLength (normalize sql) ≤ 4 * sql.length := by
    rw [← Utf8.length_encode]
    exact Nat.le_trans (Utf8.length_encode_le _) (Nat.mul_le_mul_left 4 (length_normalize_le sql))
  unfold readStatement at h
  split at h
  · next rest _ =>
    cases h
    have hopens : Tellable 50 "unterminated quoted text starting at byte " := by decide
    have hbyte : Tellable (4 * 10)
        (Numeral.ofNat (Text.byteLength (normalize sql) - Text.byteLength rest)) :=
      .ofNat (by decide) (by omega)
    have hfault : (Fault.unclosedQuote
        (Text.byteLength (normalize sql) - Text.byteLength rest)).message.Tellable 90 :=
      hopens.append hbyte
    exact (tellable_malformed hfault).mono (by decide)
  · split at h
    · cases h
      decide
    · cases h

/-- **What a refusal says can be told**, if its statement holds no zero and fits in a message. -/
theorem tellable_refusal {e : SqlError} (hsql : '\x00' ∉ sql) (hlength : sql.length ≤ 104857600)
    (h : translate sql = .error e) : e.message.Tellable 500000000 := by
  rcases translate_eq_error h with hread | ⟨ts, hread, hstatement⟩
  · exact (tellable_refusedReading hlength hread).mono (by decide)
  · -- every token agrees with itself, as one of the statement
    have hsame : List.Forall₂ (fun t u => t = u ∧ t ∈ ts) ts ts :=
      List.forall₂_same.2 fun t ht => ⟨rfl, ht⟩
    have hmatching : Token.Matching (fun t u => t = u ∧ t ∈ ts) := by
      rintro t u ⟨rfl, -⟩
      exact .refl t
    have hagree := Statement.ofTokens_alike hmatching hsame
    rw [hstatement] at hagree
    cases hagree with
    | error halike =>
      have hrender := (clean_of_readStatement hread).2
      exact (halike.tellable fun htu =>
        quotable_of_mem hsql hlength hrender htu.2).mono (by decide)

end Sql

end PgGateway
