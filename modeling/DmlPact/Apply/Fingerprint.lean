/-
DmlPact/Apply/Fingerprint.lean

What the fingerprint of a target set tells about the rows.  The generated query
asks for the jsonb text of the row reference, a bare name; the texts, each
behind its length, are hashed.  The lengths keep the texts apart, so the hash
determines the texts, and the texts determine the rows exactly when the bare
name means the row, or a column that is as good (`targetRows_cover`).
-/
import DmlPact.Apply.Answers
import DmlPact.Lib.SqlSelect
import Mathlib.Data.Multiset.Sort
import Mathlib.Data.String.Basic
import Mathlib.Order.WithBot

namespace DmlPact

open Effect SqlSelect

/-! ### The evidence determines the texts -/

theorem toBeBytes_injective {m n : Nat} (hm : m < 2 ^ 64) (hn : n < 2 ^ 64)
    (h : toBeBytes m = toBeBytes n) : m = n := by
  have hbyte : ∀ shift ∈ [56, 48, 40, 32, 24, 16, 8, 0],
      m / 2 ^ shift % 256 = n / 2 ^ shift % 256 := by
    intro shift hshift
    have heq := List.map_inj_left.mp h shift hshift
    have hnat := congrArg UInt8.toNat heq
    rwa [UInt8.toNat_ofNat', UInt8.toNat_ofNat', Nat.shiftRight_eq_div_pow,
      Nat.shiftRight_eq_div_pow] at hnat
  -- from the highest byte down, each shift determines the next
  have hbelow : ∀ shift ∈ [56, 48, 40, 32, 24, 16, 8, 0],
      m / 2 ^ (shift + 8) = n / 2 ^ (shift + 8) → m / 2 ^ shift = n / 2 ^ shift := by
    intro shift hshift habove
    rw [Nat.pow_add, ← Nat.div_div_eq_div_mul, ← Nat.div_div_eq_div_mul] at habove
    rw [← Nat.div_add_mod (m / 2 ^ shift) 256, ← Nat.div_add_mod (n / 2 ^ shift) 256,
      hbyte shift hshift]
    exact congrArg (256 * · + _) habove
  simp only [List.forall_mem_cons] at hbelow
  obtain ⟨h56, h48, h40, h32, h24, h16, h8, h0, -⟩ := hbelow
  have htop : m / 2 ^ 64 = n / 2 ^ 64 := by
    rw [Nat.div_eq_of_lt hm, Nat.div_eq_of_lt hn]
  simpa using h0 (h8 (h16 (h24 (h32 (h40 (h48 (h56 htop)))))))

/-- The evidence of a list of texts determines the list. -/
theorem rowEvidence_injective {texts texts' : List String}
    (hfit : (rowEvidence texts).length < 2 ^ 64) (h : rowEvidence texts = rowEvidence texts') :
    texts = texts' := by
  induction texts generalizing texts' with
  | nil =>
      cases texts' with
      | nil => rfl
      | cons text rest =>
          have hlen := congrArg List.length h
          simp only [rowEvidence, List.flatMap_nil, List.flatMap_cons, List.length_append,
            List.length_nil, length_toBeBytes] at hlen
          omega
  | cons text rest ih =>
      cases texts' with
      | nil =>
          have hlen := congrArg List.length h
          simp only [rowEvidence, List.flatMap_nil, List.flatMap_cons, List.length_append,
            List.length_nil, length_toBeBytes] at hlen
          omega
      | cons text' rest' =>
          have hlen := congrArg List.length h
          simp only [rowEvidence, List.flatMap_cons, List.length_append, length_toBeBytes]
            at hfit hlen
          simp only [rowEvidence, List.flatMap_cons, List.append_assoc] at h
          obtain ⟨hle, htail⟩ := List.append_inj h rfl
          have hbytes : (asBytes text).length = (asBytes text').length :=
            toBeBytes_injective (by omega) (by omega) hle
          obtain ⟨htext, hrest⟩ := List.append_inj htail hbytes
          rw [asBytes_injective htext, ih (by rw [rowEvidence]; omega) hrest]

/-- The texts whose evidence is within the limit are each within it. -/
theorem length_le_rowEvidence {texts : List String} {text : String} (h : text ∈ texts) :
    8 + (asBytes text).length ≤ (rowEvidence texts).length := by
  obtain ⟨before, after, rfl⟩ := List.append_of_mem h
  simp only [rowEvidence, List.flatMap_append, List.flatMap_cons, List.length_append,
    length_toBeBytes]
  omega

/-! ### When reading the answer panics -/

theorem collectEvidence_eq_none {evidence : Utf8.Bytes} {observed : Nat} {rows : List Row}
    (h : collectEvidence evidence observed rows = none) :
    ∃ row ∈ rows, (row.get 0 : Option String) = none := by
  induction rows generalizing evidence observed with
  | nil => cases h
  | cons row rows ih =>
      rcases hvalue : (row.get 0 : Option String) with - | value
      · exact ⟨row, List.mem_cons_self, hvalue⟩
      · rw [collectEvidence, hvalue] at h
        simp only [Option.bind_eq_bind, Option.bind_some] at h
        split_ifs at h
        · obtain ⟨row', hmem, hnone⟩ := ih h
          exact ⟨row', List.mem_cons_of_mem _ hmem, hnone⟩

variable (X : Crates)

/-- Fingerprinting panics exactly when a value it comes to is NULL. -/
theorem targetSetSha256_crash {analyzed : AnalyzedSql} {count : UInt64} {query : String}
    {answer : Rows} (hquery : analyzed.targetRowsSql = some query) :
    Reaches (targetSetSha256 X analyzed count).run [⟨.query query [], answer⟩] .crash ↔
      collectEvidence [] 0 answer.rows = none := by
  unfold targetSetSha256
  rw [hquery]
  dsimp only
  rw [request_bind]
  constructor
  · intro hr
    cases hr with
    | call hk =>
        dsimp only at hk
        rcases hcollected : collectEvidence [] 0 answer.rows with - | result
        · rfl
        · -- from here on the program returns
          rw [run_bind, hcollected] at hk
          rcases result with error | ⟨evidence, observed⟩
          · cases hk
          · rw [run_orPanic_some, Prog.ret_bind, onOk_ok, run_bind, run_ofResult] at hk
            dsimp only [Prog.ret_bind, onOk_ok] at hk
            split_ifs at hk <;> cases hk
  · intro hnone
    refine .call ?_
    rw [run_bind, hnone]
    exact .refl _

/-! ### The generated query -/

/-- One row of one column. -/
def textRow : Option String → Row
  | none => [.null]
  | some text => [.text text]

/-- The answer to the target query on the contents of its table.  A reference
that is no bare name is an error. -/
def targetAnswer (conforming : Bool) (T : Relation) (C : Collation) (selected : T.Tuple → Bool)
    (reference : String) (contents : Multiset T.Tuple) : Rows :=
  match bareName conforming reference.toList with
  | none => ⟨[], false⟩
  | some name => ⟨(T.select C name selected contents).map textRow, true⟩

/-- The message that is hashed for an answer. -/
def answerEvidence (answer : Rows) : Utf8.Bytes := rowEvidence ((rowTexts answer.rows).getD [])

/-- **Whole rows.**  Fingerprinting panics on no contents of the table, and two
contents with one fingerprint, whose messages do not collide, agree on the
matching rows. -/
structure Covers (analyzed : AnalyzedSql) (query : String) (T : Relation)
    (selected : T.Tuple → Bool) (answer : Multiset T.Tuple → Rows) : Prop where
  total : ∀ contents count, ¬ Reaches (targetSetSha256 X analyzed count).run
    [⟨.query query [], answer contents⟩] .crash
  rows_eq : ∀ contents contents' count count' hash,
    Reaches (targetSetSha256 X analyzed count).run [⟨.query query [], answer contents⟩]
      (.ret (.ok hash)) →
    Reaches (targetSetSha256 X analyzed count').run [⟨.query query [], answer contents'⟩]
      (.ret (.ok hash)) →
    (sha256Bytes X (answerEvidence (answer contents)) =
        sha256Bytes X (answerEvidence (answer contents')) →
      answerEvidence (answer contents) = answerEvidence (answer contents')) →
    T.rows selected contents = T.rows selected contents'

/-- A text that the evidence has room for. -/
def Fits (text : String) : Prop := 8 + (asBytes text).length ≤ maxTargetEvidenceBytes

/-- The texts of an answer, if no value in it is NULL. -/
theorem rowTexts_textRow {values : List (Option String)} {texts : List String} :
    rowTexts (values.map textRow) = some texts ↔ values = texts.map some := by
  induction values generalizing texts with
  | nil =>
      rw [List.map_nil, show rowTexts [] = some [] from rfl, Option.some.injEq]
      cases texts <;> simp
  | cons value values ih =>
      have hcons : rowTexts ((value :: values).map textRow) =
          value.bind fun text => (rowTexts (values.map textRow)).map (text :: ·) := by
        cases value with
        | none => rfl
        | some text =>
            rw [rowTexts, List.map_cons, List.mapM_cons, ← rowTexts]
            show (rowTexts (values.map textRow)).bind _ = _
            cases rowTexts (values.map textRow) <;> rfl
      rw [hcons]
      cases value with
      | none => cases texts <;> simp
      | some text =>
          cases texts with
          | nil => simp
          | cons text' texts => simp [ih, and_comm]

/-- A fingerprint is the hash of the texts of the answer. -/
theorem fingerprint_texts {analyzed : AnalyzedSql} {query : String}
    (hquery : analyzed.targetRowsSql = some query) {values : List (Option String)}
    {count : UInt64} {hash : String}
    (h : Reaches (targetSetSha256 X analyzed count).run
      [⟨.query query [], ⟨values.map textRow, true⟩⟩] (.ret (.ok hash))) :
    ∃ texts, values = texts.map some ∧
      (rowEvidence texts).length ≤ maxTargetEvidenceBytes ∧
      hash = sha256Bytes X (rowEvidence texts) := by
  rcases (targetSetSha256_ok X).mp h with ⟨hnone, -⟩ | ⟨_, rows, texts, -, htexts, hfit, -, hhash,
    hevent⟩
  · rw [hquery] at hnone
    cases hnone
  · obtain rfl : values.map textRow = rows := by
      simp only [List.cons.injEq, and_true, Event.mk.injEq] at hevent
      exact congrArg Rows.rows (eq_of_heq hevent.2)
    exact ⟨texts, rowTexts_textRow.mp htexts, hfit, hhash⟩

theorem answerEvidence_textRow {values : List (Option String)} {texts : List String}
    {complete : Bool} (h : values = texts.map some) :
    answerEvidence ⟨values.map textRow, complete⟩ = rowEvidence texts := by
  rw [answerEvidence, rowTexts_textRow.mpr h, Option.getD_some]

/-- Every row that is read is an answer's, so a panic is a NULL in the answer. -/
theorem crash_null {analyzed : AnalyzedSql} {query : String}
    (hquery : analyzed.targetRowsSql = some query) {values : List (Option String)}
    {complete : Bool} {count : UInt64}
    (h : Reaches (targetSetSha256 X analyzed count).run
      [⟨.query query [], ⟨values.map textRow, complete⟩⟩] .crash) : none ∈ values := by
  obtain ⟨row, hrow, hnone⟩ :=
    collectEvidence_eq_none ((targetSetSha256_crash X hquery).mp h)
  obtain ⟨value, hvalue, rfl⟩ := List.mem_map.mp hrow
  cases value with
  | none => exact hvalue
  | some text => cases hnone

section Covers

variable {analyzed : AnalyzedSql} {query : String} {T : Relation} {C : Collation}
  {selected : T.Tuple → Bool} {conforming : Bool} {reference : String}

theorem targetAnswer_none (h : bareName conforming reference.toList = none)
    (contents : Multiset T.Tuple) :
    targetAnswer conforming T C selected reference contents = ⟨[], false⟩ := by
  rw [targetAnswer, h]

theorem targetAnswer_some {name : List Char} (h : bareName conforming reference.toList = some name)
    (contents : Multiset T.Tuple) :
    targetAnswer conforming T C selected reference contents =
      ⟨(T.select C name selected contents).map textRow, true⟩ := by
  rw [targetAnswer, h]

/-- A query that the server refuses gives no fingerprint. -/
theorem Covers.of_none (hquery : analyzed.targetRowsSql = some query)
    (h : bareName conforming reference.toList = none) :
    Covers X analyzed query T selected (targetAnswer conforming T C selected reference) where
  total contents count hcrash := by
    rw [targetAnswer_none h] at hcrash
    cases (targetSetSha256_crash X hquery).mp hcrash
  rows_eq contents contents' count count' hash hr := by
    rw [targetAnswer_none h] at hr
    rcases (targetSetSha256_ok X).mp hr with ⟨hnone, -⟩ | ⟨_, rows, texts, -, -, -, -, -, hevent⟩
    · rw [hquery] at hnone
      cases hnone
    · simp only [List.cons.injEq, and_true, Event.mk.injEq] at hevent
      cases eq_of_heq hevent.2

/-- What the texts of a name tell, the fingerprint tells. -/
theorem Covers.of_identifies (hquery : analyzed.targetRowsSql = some query) {name : List Char}
    (hname : bareName conforming reference.toList = some name)
    (hid : T.Identifies selected Fits (T.value name)) :
    Covers X analyzed query T selected (targetAnswer conforming T C selected reference) where
  total contents count hcrash := by
    rw [targetAnswer_some hname] at hcrash
    obtain ⟨t, -, hselected, hnull⟩ := Relation.mem_select.mp (crash_null X hquery hcrash)
    exact hid.1 t hselected hnull
  rows_eq contents contents' count count' hash hr hr' hcollide := by
    rw [targetAnswer_some hname] at hr hcollide
    rw [targetAnswer_some hname] at hr' hcollide
    obtain ⟨texts, hvalues, hfit, hhash⟩ := fingerprint_texts X hquery hr
    obtain ⟨texts', hvalues', hfit', hhash'⟩ := fingerprint_texts X hquery hr'
    rw [answerEvidence_textRow hvalues, answerEvidence_textRow hvalues'] at hcollide
    have htexts : texts = texts' :=
      rowEvidence_injective (hfit.trans_lt (by decide)) (hcollide (hhash.symm.trans hhash'))
    refine Relation.rows_eq_of_select_eq hid (fun text htext => ?_)
      (hvalues.trans (htexts ▸ hvalues'.symm))
    rw [hvalues, List.mem_map] at htext
    obtain ⟨text', hmem, hsome⟩ := htext
    obtain rfl := Option.some.inj hsome
    exact (length_le_rowEvidence hmem).trans hfit

/-- What the fingerprint tells of single rows, the texts of the name tell. -/
theorem Covers.identifies (hquery : analyzed.targetRowsSql = some query) {name : List Char}
    (hname : bareName conforming reference.toList = some name)
    (h : Covers X analyzed query T selected (targetAnswer conforming T C selected reference)) :
    T.Identifies selected Fits (T.value name) := by
  have hanswer : ∀ {t}, selected t = true →
      targetAnswer conforming T C selected reference {t} = ⟨[textRow (T.value name t)], true⟩ := by
    intro t hselected
    rw [targetAnswer_some hname, Relation.select_singleton hselected]
    rfl
  constructor
  · intro t hselected hnull
    refine h.total {t} 0 ((targetSetSha256_crash X hquery).mpr ?_)
    rw [hanswer hselected, hnull]
    rfl
  · intro t t' text hselected hselected' hfits hvalue hvalue'
    -- two relations of one row, told apart by nothing but the text of that row
    have hone : ∀ {u}, selected u = true → T.value name u = some text →
        Reaches (targetSetSha256 X analyzed 1).run
          [⟨.query query [], targetAnswer conforming T C selected reference {u}⟩]
          (.ret (.ok (sha256Bytes X (rowEvidence [text])))) := by
      intro u hu htext
      refine (targetSetSha256_ok X).mpr (.inr ⟨query, [textRow (some text)], [text], hquery, rfl,
        ?_, rfl, rfl, ?_⟩)
      · simpa [rowEvidence, Fits] using hfits
      · rw [hanswer hu, htext]
    have hrows := h.rows_eq {t} {t'} 1 1 _ (hone hselected hvalue) (hone hselected' hvalue')
      fun _ => by rw [hanswer hselected, hanswer hselected', hvalue, hvalue']
    rw [Relation.rows_singleton hselected, Relation.rows_singleton hselected'] at hrows
    exact Multiset.singleton_inj.mp hrows

end Covers

/-! ### The row reference -/

/-- The identifier that stands for a row of the target: the alias, or else the
last part of the name. -/
inductive RowReference (table : Ast.TableWithJoins) : Ast.Ident → Prop
  | alias_ {name alias_ args hints version ordinality partitions path sample indexHints}
      (h : table.relation = .table name (some alias_) args hints version ordinality partitions
        path sample indexHints) : RowReference table alias_.name
  | last {name args hints version ordinality partitions path sample indexHints ident}
      (h : table.relation = .table name none args hints version ordinality partitions
        path sample indexHints)
      (hlast : name.parts.getLast? = some (.identifier ident)) : RowReference table ident

theorem validateTableWithJoins_ok {table : Ast.TableWithJoins} {name rowReference : String}
    (h : validateTableWithJoins X table = .ok (name, rowReference)) :
    ∃ ident, RowReference table ident ∧ rowReference = X.showIdent ident := by
  unfold validateTableWithJoins at h
  split_ifs at h
  split at h
  · rename_i objectName alias_ args hints version ordinality partitions path sample indexHints
      hrelation
    split_ifs at h
    rcases hname : validateObjectName X objectName with error | validated
    · rw [hname] at h
      cases h
    rw [hname] at h
    rcases alias_ with - | alias_
    · rcases hlast : objectName.parts.getLast? with - | part
      · rw [hlast] at h
        cases h
      · rw [hlast] at h
        rcases part with ident | text
        · cases h
          exact ⟨ident, .last hrelation hlast, rfl⟩
        · cases h
    · cases h
      exact ⟨alias_.name, .alias_ hrelation, rfl⟩
  · cases h

/-- **The fingerprint covers whole rows** exactly when the table has no column
that the server takes the row reference for, or that column is never NULL in a
matching row and tells the matching rows apart. -/
theorem targetRows_cover (conforming : Bool) {raw : String} {a : AnalyzedSql}
    (h : analyzeSql X raw = .ok a) (hkind : a.kind ≠ .insert) :
    ∃ statement table selection reference query, X.parseSql raw = some [statement] ∧
      Mutates statement a.kind table selection ∧ RowReference table reference ∧
      query = targetRowsText (X.showIdent reference) (X.showTable table)
        (X.showExpr selection) ∧ a.targetRowsSql = some query ∧
      ∀ (T : Relation) (C : Collation) (selected : T.Tuple → Bool),
        Covers X a query T selected
            (targetAnswer conforming T C selected (X.showIdent reference)) ↔
          ∀ name column, bareName conforming (X.showIdent reference).toList = some name →
            T.column name = some column → T.Identifies selected Fits column := by
  obtain ⟨statement, details, hparse, -, hdetails, rfl⟩ := analyzeSql_ok X h
  rcases analyzeStatement_ok X hdetails with ⟨-, hinsert, -⟩ |
    ⟨kind, table, selection, hmutates, hselection⟩
  · exact absurd hinsert hkind
  obtain ⟨name, rowReference, hvalid, rfl⟩ := selectionDetails_ok X hselection
  obtain ⟨reference, href, rfl⟩ := validateTableWithJoins_ok X hvalid
  refine ⟨statement, table, selection, reference, _, hparse, hmutates, href, rfl, rfl,
    fun T C selected => ?_⟩
  -- the name of the table may be that of a column, which is read in its place
  constructor
  · intro hcovers name column hname hcolumn
    exact Relation.identifies_value_iff.mp (hcovers.identifies X rfl hname) column hcolumn
  · intro hcolumn
    rcases hname : bareName conforming (X.showIdent reference).toList with - | name
    · exact .of_none X rfl hname
    · exact .of_identifies X rfl hname (Relation.identifies_value_iff.mpr (hcolumn name · hname))

/-! ### A column that bears the table's name -/

namespace Sample

/-- Texts in the order of their characters, NULL last. -/
def collation : Collation where
  sort texts := Multiset.sort (α := WithTop String) texts
  sort_eq texts := Multiset.sort_eq (α := WithTop String) texts (· ≤ ·)

/-- A table of the boolean columns `a` and `n`, and perhaps of a column `t` that
is always true. -/
def relation (shadowed : Bool) : Relation where
  Tuple := Bool × Bool
  Row := Bool × Bool
  row := id
  column name :=
    if name = ['a'] then some fun r => some (toString r.1)
    else if name = ['n'] then some fun r => some (toString r.2)
    else if name = ['t'] ∧ shadowed then some fun _ => some "true"
    else none
  whole r := "\x7b\"a\": " ++ toString r.1 ++ ", \"n\": " ++ toString r.2 ++
    (if shadowed then ", \"t\": true" else "") ++ "\x7d"
  whole_injective := by
    rintro ⟨a, n⟩ ⟨a', n'⟩ h
    revert h
    cases shadowed <;> revert a n a' n' <;> decide

/-- `WHERE a`. -/
def selected (r : Bool × Bool) : Bool := r.1

end Sample

/-- With a column `t` in the table `t`, two contents that differ in a matching
row have one fingerprint. -/
theorem targetRows_blind :
    ¬ ∀ (X : Crates) (raw : String) (a : AnalyzedSql) (statement : Ast.Statement)
      (table : Ast.TableWithJoins) (selection : Ast.Expr) (reference : Ast.Ident)
      (T : Relation) (C : Collation) (selected : T.Tuple → Bool),
      analyzeSql X raw = .ok a → X.parseSql raw = some [statement] →
      Mutates statement a.kind table selection → RowReference table reference →
      Covers X a (targetRowsText (X.showIdent reference) (X.showTable table)
        (X.showExpr selection)) T selected
        (targetAnswer true T C selected (X.showIdent reference)) := by
  intro hall
  have hcovers := hall Sample.crates Sample.sql Sample.analysis Sample.statement _ _ _
    (Sample.relation true) Sample.collation Sample.selected
    (by simpa using Sample.analysis_eq) (by simp [Sample.crates])
    (.delete _ _ _ rfl rfl) (.last rfl rfl)
  have hid := hcovers.identifies Sample.crates rfl
    (show bareName true "t".toList = some ['t'] from rfl)
  have hfits : Fits "true" := by
    unfold Fits
    decide
  have hrow : (true, true) = (true, false) :=
    hid.2 (true, true) (true, false) "true" rfl rfl hfits rfl rfl
  cases hrow

/-- Without such a column the fingerprint covers the rows. -/
theorem targetRows_cover_plain :
    Covers Sample.crates Sample.analysis (targetRowsText "t" "t" "a") (Sample.relation false)
      Sample.selected (targetAnswer true (Sample.relation false) Sample.collation
        Sample.selected "t") := by
  obtain ⟨statement, table, selection, reference, query, hparse, hmutates, href, rfl, hquery,
    hiff⟩ := targetRows_cover Sample.crates true Sample.analysis_eq (by decide)
  obtain rfl : Sample.statement = statement := by
    simpa [Sample.crates] using hparse
  have hreference : reference = ⟨"t", none⟩ := by
    cases hmutates with
    | delete _ table _ hfrom =>
        cases hfrom
        cases href with
        | alias_ h => cases h
        | last h hlast =>
            cases h
            cases hlast
            rfl
  subst hreference
  have hcovers := (hiff (Sample.relation false) Sample.collation Sample.selected).mpr ?_
  · exact Option.some.inj hquery ▸ hcovers
  · intro name column hname hcolumn
    cases hname
    cases hcolumn

end DmlPact
