/-
DmlPact/Policy/Catalog.lean

What the fingerprint of a table tells about the catalog.  `TableCatalog` holds
the facts that the evidence queries read, and `answers` the rows the server
makes of them; the texts of names and definitions are what PostgreSQL's own
functions give, so they are strings like any others.  The evidence keeps every
fact apart but one pair: the USING and the WITH CHECK expression of a policy
are joined by `concat_ws`, which drops a NULL without a trace.

`evidence_eq_iff` says when two catalogs have one evidence: when they are equal
or differ in policies only, and there in which clause a text stands
(`Rewritten`).  The digest adds nothing and loses nothing
(`tableSchemaSha256_binds_iff`).
-/
import DmlPact.Apply.Answers
import DmlPact.Lib.SqlText
import Mathlib.Data.List.Forall2

namespace DmlPact

open Effect SqlText

/-! ### Facts of the catalog -/

/-- `tgenabled`. -/
inductive TriggerEnabled
  | origin
  | disabled
  | replica
  | always
  deriving DecidableEq

def TriggerEnabled.code : TriggerEnabled → Char
  | origin => 'O'
  | disabled => 'D'
  | replica => 'R'
  | always => 'A'

theorem TriggerEnabled.code_injective : Function.Injective code := by
  intro s s' h
  cases s <;> cases s' <;> first | rfl | exact absurd h (by decide)

structure CatalogTrigger where
  tgname : String
  tgenabled : TriggerEnabled
  triggerdef : String
  deriving DecidableEq

/-- `polcmd`. -/
inductive PolicyCommand
  | all
  | select
  | insert
  | update
  | delete
  deriving DecidableEq

def PolicyCommand.code : PolicyCommand → Char
  | all => '*'
  | select => 'r'
  | insert => 'a'
  | update => 'w'
  | delete => 'd'

theorem PolicyCommand.code_injective : Function.Injective code := by
  intro c c' h
  cases c <;> cases c' <;> first | rfl | exact absurd h (by decide)

theorem PolicyCommand.space_ne_code (c : PolicyCommand) : ' ' ∉ [c.code] := by
  cases c <;> decide

/-- A policy; no expression is NULL. -/
structure CatalogPolicy where
  polname : String
  polcmd : PolicyCommand
  polpermissive : Bool
  polroles : List UInt32
  polqual : Option String
  polwithcheck : Option String
  deriving DecidableEq

/-- The other end of an inheritance link. -/
inductive CatalogLink
  | parent (name : String)
  | child (name : String)
  deriving DecidableEq

/-- What the evidence queries read about a table, each list in the order of its
query. -/
structure TableCatalog where
  oid : Int64
  nspname : String
  relname : String
  relkind : String
  relpersistence : String
  relrowsecurity : Bool
  relforcerowsecurity : Bool
  columns : List ColumnEvidence
  constraints : List NamedDefinition
  indexes : List NamedDefinition
  triggers : List CatalogTrigger
  rules : List NamedDefinition
  policies : List CatalogPolicy
  links : List CatalogLink
  referentialActions : List NamedDefinition
  deriving DecidableEq

/-! ### The answers to the evidence queries -/

/-- `concat(tgenabled::text, ' ', pg_get_triggerdef(oid, true))`. -/
def CatalogTrigger.definition (t : CatalogTrigger) : String :=
  String.ofList (concat [some [t.tgenabled.code], some [' '], some t.triggerdef.toList])

/-- `polpermissive::text`. -/
def boolText (b : Bool) : List Char := (if b then "true" else "false").toList

/-- `polroles::text`. -/
def rolesText (roles : List UInt32) : List Char :=
  arrayText (roles.map fun role => Nat.toDigits 10 role.toNat)

/-- `concat_ws(' ', polcmd, polpermissive::text, polroles::text, …, …)`. -/
def CatalogPolicy.definition (p : CatalogPolicy) : String :=
  String.ofList (concatWs [' '] [some [p.polcmd.code], some (boolText p.polpermissive),
    some (rolesText p.polroles), p.polqual.map String.toList, p.polwithcheck.map String.toList])

/-- `concat('parent:', …)` and `concat('child:', …)`. -/
def CatalogLink.relation : CatalogLink → String
  | parent name => String.ofList (concat [some "parent:".toList, some name.toList])
  | child name => String.ofList (concat [some "child:".toList, some name.toList])

def textOrNull : Option String → SqlValue
  | none => .null
  | some text => .text text

def columnRow (c : ColumnEvidence) : Row :=
  [.int2 c.position, .text c.name, .text c.dataType, .bool c.notNull, .bool c.hasDefault,
    textOrNull c.defaultExpression, .text c.identity, .text c.generated]

def namedRow (name definition : String) : Row := [.text name, .text definition]

def TableCatalog.answers (C : TableCatalog) : EvidenceAnswers where
  lookup := [.int8 C.oid, .text C.nspname, .text C.relname, .text C.relkind,
    .text C.relpersistence, .bool C.relrowsecurity, .bool C.relforcerowsecurity]
  columns := C.columns.map columnRow
  constraints := C.constraints.map fun d => namedRow d.name d.definition
  indexes := C.indexes.map fun d => namedRow d.name d.definition
  userTriggers := C.triggers.map fun t => namedRow t.tgname t.definition
  rewriteRules := C.rules.map fun d => namedRow d.name d.definition
  policies := C.policies.map fun p => namedRow p.polname p.definition
  inheritanceRelations := C.links.map fun l => [.text l.relation]
  referentialActions := C.referentialActions.map fun d => namedRow d.name d.definition

/-- The evidence that comes of them. -/
def TableCatalog.evidence (C : TableCatalog) : TableEvidence where
  schema := C.nspname
  table := C.relname
  oid := C.oid
  relationKind := C.relkind
  persistence := C.relpersistence
  rowSecurity := C.relrowsecurity
  forceRowSecurity := C.relforcerowsecurity
  columns := C.columns
  constraints := C.constraints
  indexes := C.indexes
  userTriggers := C.triggers.map fun t => ⟨t.tgname, t.definition⟩
  rewriteRules := C.rules
  policies := C.policies.map fun p => ⟨p.polname, p.definition⟩
  inheritanceRelations := C.links.map CatalogLink.relation
  referentialActions := C.referentialActions

theorem mapM_rows {α β : Type} {decode : Row → Option β} {row : α → Row} {f : α → β}
    (h : ∀ a, decode (row a) = some (f a)) (as : List α) :
    (as.map row).mapM decode = some (as.map f) := by
  induction as with
  | nil => rfl
  | cons a as ih =>
      rw [List.map_cons, List.mapM_cons, h a, ih]
      rfl

theorem ofRow_namedRow (name definition : String) :
    NamedDefinition.ofRow (namedRow name definition) = some ⟨name, definition⟩ := rfl

theorem ofRow_columnRow (c : ColumnEvidence) : ColumnEvidence.ofRow (columnRow c) = some c := by
  obtain ⟨position, name, dataType, notNull, hasDefault, defaultExpression, identity, generated⟩ := c
  cases defaultExpression <;> rfl

theorem TableCatalog.decode_answers (C : TableCatalog) :
    C.answers.decode C.oid = some C.evidence := by
  have hcolumns := mapM_rows ofRow_columnRow C.columns
  have hnamed := fun ds : List NamedDefinition =>
    mapM_rows (fun d : NamedDefinition => ofRow_namedRow d.name d.definition) ds
  have htriggers := mapM_rows (fun t : CatalogTrigger => ofRow_namedRow t.tgname t.definition)
    C.triggers
  have hpolicies := mapM_rows (fun p : CatalogPolicy => ofRow_namedRow p.polname p.definition)
    C.policies
  have hlinks : (C.links.map fun l => ([.text l.relation] : Row)).mapM
      (fun row : Row => (Row.get row 0 : Option String)) =
        some (C.links.map CatalogLink.relation) :=
    @mapM_rows _ _ (fun row : Row => Row.get row 0) _ _ (fun _ => rfl) C.links
  have hid : ∀ ds : List NamedDefinition,
      ds.map (fun d => (⟨d.name, d.definition⟩ : NamedDefinition)) = ds := fun ds => List.map_id ds
  simp only [hid] at hnamed
  rw [List.map_id'] at hcolumns
  simp only [EvidenceAnswers.decode, TableCatalog.answers, hcolumns, hnamed, htriggers, hpolicies,
    hlinks, Option.bind_eq_bind, Option.bind_some]
  rfl

/-- **The run.**  The queries, answered from the catalog, give this evidence and
no other. -/
theorem TableCatalog.reaches_evidence {C : TableCatalog} {requestedTable : String}
    {evidence : TableEvidence} :
    Reaches (tableEvidence requestedTable).run (C.answers.history requestedTable C.oid)
        (.ret (.ok evidence)) ↔ evidence = C.evidence := by
  have hrun : Reaches (tableEvidence requestedTable).run (C.answers.history requestedTable C.oid)
      (.ret (.ok C.evidence)) :=
    tableEvidence_ok.mpr ⟨C.answers, C.oid, rfl, C.decode_answers, rfl⟩
  constructor
  · intro hr
    have hsame := hr.unique hrun
    exact Except.ok.inj (Prog.ret.inj hsame)
  · rintro rfl
    exact hrun

/-! ### What the texts keep apart -/

theorem CatalogTrigger.definition_inj {t t' : CatalogTrigger}
    (h : t.definition = t'.definition) :
    t.tgenabled = t'.tgenabled ∧ t.triggerdef = t'.triggerdef := by
  have hchars : t.tgenabled.code :: ' ' :: (t.triggerdef.toList ++ []) =
      t'.tgenabled.code :: ' ' :: (t'.triggerdef.toList ++ []) := String.ofList_injective h
  simp only [List.append_nil, List.cons.injEq, true_and] at hchars
  obtain ⟨hcode, htext⟩ := hchars
  exact ⟨TriggerEnabled.code_injective hcode, String.toList_injective htext⟩

theorem CatalogLink.relation_injective : Function.Injective CatalogLink.relation := by
  intro l l' h
  have hchars := congrArg String.toList h
  rcases l with name | name <;> rcases l' with name' | name'
  · have htext : name.toList = name'.toList := by
      simpa [relation, concat, List.reduceOption] using hchars
    rw [String.toList_injective htext]
  · simp [relation, concat, List.reduceOption] at hchars
  · simp [relation, concat, List.reduceOption] at hchars
  · have htext : name.toList = name'.toList := by
      simpa [relation, concat, List.reduceOption] using hchars
    rw [String.toList_injective htext]

/-- The expressions of a policy, written one behind the other. -/
inductive CatalogPolicy.Written (p : CatalogPolicy) : String → Prop
  | qual {e} (hqual : p.polqual = some e) (hcheck : p.polwithcheck = none) : Written p e
  | withCheck {e} (hqual : p.polqual = none) (hcheck : p.polwithcheck = some e) : Written p e
  | both {e e'} (hqual : p.polqual = some e) (hcheck : p.polwithcheck = some e') :
      Written p (e ++ " " ++ e')

/-- The policies differ only in which clause a part of the same text stands. -/
structure CatalogPolicy.Rewritten (p p' : CatalogPolicy) : Prop where
  polname : p.polname = p'.polname
  polcmd : p.polcmd = p'.polcmd
  polpermissive : p.polpermissive = p'.polpermissive
  polroles : p.polroles = p'.polroles
  written : ∃ text, p.Written text ∧ p'.Written text
  differs : p ≠ p'

/-- The part of the definition behind the roles. -/
def CatalogPolicy.clauses (p : CatalogPolicy) : List Char :=
  separated [' '] [p.polqual.map String.toList, p.polwithcheck.map String.toList]

theorem CatalogPolicy.written_iff {p : CatalogPolicy} {text : String} :
    p.Written text ↔ p.clauses = ' ' :: text.toList := by
  obtain ⟨name, cmd, permissive, roles, qual, check⟩ := p
  constructor
  · rintro (⟨hqual, hcheck⟩ | ⟨hqual, hcheck⟩ | ⟨hqual, hcheck⟩) <;> cases hqual <;>
      cases hcheck <;> simp [clauses, separated, List.reduceOption]
  · intro h
    rcases qual with - | e <;> rcases check with - | e'
    · cases h
    · have htext : e' = text := String.toList_injective (by
        simpa [clauses, separated, List.reduceOption] using h)
      exact htext ▸ .withCheck rfl rfl
    · have htext : e = text := String.toList_injective (by
        simpa [clauses, separated, List.reduceOption] using h)
      exact htext ▸ .qual rfl rfl
    · have htext : e ++ " " ++ e' = text := String.toList_injective (by
        simpa [clauses, separated, List.reduceOption] using h)
      exact htext ▸ .both rfl rfl

theorem CatalogPolicy.clauses_eq_nil {p : CatalogPolicy} :
    p.clauses = [] ↔ p.polqual = none ∧ p.polwithcheck = none := by
  obtain ⟨name, cmd, permissive, roles, qual, check⟩ := p
  rcases qual with - | e <;> rcases check with - | e' <;>
    simp [clauses, separated, List.reduceOption]

theorem CatalogPolicy.exists_written {p : CatalogPolicy} (h : p.clauses ≠ []) :
    ∃ text, p.Written text := by
  rcases hqual : p.polqual with - | e <;> rcases hcheck : p.polwithcheck with - | e'
  · exact absurd (clauses_eq_nil.mpr ⟨hqual, hcheck⟩) h
  · exact ⟨e', .withCheck hqual hcheck⟩
  · exact ⟨e, .qual hqual hcheck⟩
  · exact ⟨_, .both hqual hcheck⟩

/-- The clauses of two policies read the same when they are the same, or when
one text is written in both. -/
theorem CatalogPolicy.clauses_eq_iff {p p' : CatalogPolicy} :
    p.clauses = p'.clauses ↔
      (p.polqual = p'.polqual ∧ p.polwithcheck = p'.polwithcheck) ∨
        ∃ text, p.Written text ∧ p'.Written text := by
  constructor
  · intro h
    by_cases hnil : p.clauses = []
    · obtain ⟨hqual, hcheck⟩ := clauses_eq_nil.mp hnil
      obtain ⟨hqual', hcheck'⟩ := clauses_eq_nil.mp (h.symm.trans hnil)
      exact .inl ⟨hqual.trans hqual'.symm, hcheck.trans hcheck'.symm⟩
    · obtain ⟨text, hp⟩ := exists_written hnil
      exact .inr ⟨text, hp, written_iff.mpr (h.symm.trans (written_iff.mp hp))⟩
  · rintro (⟨hqual, hcheck⟩ | ⟨text, hp, hp'⟩)
    · rw [clauses, clauses, hqual, hcheck]
    · rw [written_iff.mp hp, written_iff.mp hp']

theorem boolText_injective : Function.Injective boolText := by
  intro b b' h
  cases b <;> cases b' <;> first | rfl | exact absurd h (by decide)

theorem space_notMem_boolText (b : Bool) : ' ' ∉ boolText b := by
  cases b <;> decide

theorem rolesText_append_inj {roles roles' : List UInt32} {rest rest' : List Char} :
    rolesText roles ++ rest = rolesText roles' ++ rest' ↔ roles = roles' ∧ rest = rest' := by
  have hbare : ∀ rs : List UInt32, ∀ item ∈ rs.map fun role => Nat.toDigits 10 role.toNat,
      Bare item := by
    intro rs item hitem
    obtain ⟨role, -, rfl⟩ := List.mem_map.mp hitem
    exact bare_toDigits _
  have hdigits : Function.Injective fun role : UInt32 => Nat.toDigits 10 role.toNat :=
    toDigits_injective.comp fun _ _ => UInt32.toNat_inj.mp
  rw [rolesText, rolesText, arrayText_append_inj (hbare roles) (hbare roles'),
    (List.map_injective_iff.mpr hdigits).eq_iff]

/-- **Lossy join.**  The definition tells the command, the kind and the roles,
and of the expressions no more than their text one behind the other. -/
theorem CatalogPolicy.definition_eq_iff {p p' : CatalogPolicy} :
    p.definition = p'.definition ↔
      p.polcmd = p'.polcmd ∧ p.polpermissive = p'.polpermissive ∧ p.polroles = p'.polroles ∧
        p.clauses = p'.clauses := by
  rw [definition, definition, String.ofList_inj,
    concatWs_cons_inj p.polcmd.space_ne_code p'.polcmd.space_ne_code,
    concatWs_cons_inj (space_notMem_boolText _) (space_notMem_boolText _), concatWs_cons,
    concatWs_cons, rolesText_append_inj, List.cons.injEq, eq_self_iff_true, and_true,
    PolicyCommand.code_injective.eq_iff, boolText_injective.eq_iff]
  rfl

/-! ### The fingerprint of a table -/

theorem CatalogPolicy.evidence_eq_iff {p p' : CatalogPolicy} :
    (⟨p.polname, p.definition⟩ : NamedDefinition) = ⟨p'.polname, p'.definition⟩ ↔
      p = p' ∨ p.Rewritten p' := by
  rw [NamedDefinition.mk.injEq, definition_eq_iff]
  constructor
  · rintro ⟨hname, hcmd, hpermissive, hroles, hclauses⟩
    by_cases heq : p = p'
    · exact .inl heq
    · refine .inr ⟨hname, hcmd, hpermissive, hroles, ?_, heq⟩
      rcases clauses_eq_iff.mp hclauses with ⟨hqual, hcheck⟩ | hwritten
      · cases p
        cases p'
        simp only at hname hcmd hpermissive hroles hqual hcheck
        subst hname hcmd hpermissive hroles hqual hcheck
        exact absurd rfl heq
      · exact hwritten
  · rintro (rfl | h)
    · exact ⟨rfl, rfl, rfl, rfl, rfl⟩
    · exact ⟨h.polname, h.polcmd, h.polpermissive, h.polroles, clauses_eq_iff.mpr (.inr h.written)⟩

/-- The catalogs differ in policies, each as it was or rewritten, and in nothing
else. -/
structure TableCatalog.Rewritten (C C' : TableCatalog) : Prop where
  others : { C with policies := C'.policies } = C'
  policies : List.Forall₂ (fun p p' => p = p' ∨ p.Rewritten p') C.policies C'.policies
  differs : C ≠ C'

theorem map_policies_eq_iff {ps ps' : List CatalogPolicy} :
    ps.map (fun p => (⟨p.polname, p.definition⟩ : NamedDefinition)) =
        ps'.map (fun p => ⟨p.polname, p.definition⟩) ↔
      List.Forall₂ (fun p p' => p = p' ∨ p.Rewritten p') ps ps' := by
  rw [← List.forall₂_eq_eq_eq, List.forall₂_map_left_iff, List.forall₂_map_right_iff]
  simp only [CatalogPolicy.evidence_eq_iff]

/-- **What the evidence keeps apart.** -/
theorem TableCatalog.evidence_eq_iff {C C' : TableCatalog} :
    C.evidence = C'.evidence ↔ C = C' ∨ C.Rewritten C' := by
  constructor
  · intro h
    by_cases heq : C = C'
    · exact .inl heq
    -- triggers and links are told apart by what is shown of them
    have htrigger : Function.Injective fun t : CatalogTrigger =>
        (⟨t.tgname, t.definition⟩ : NamedDefinition) := by
      intro t t' htt
      obtain ⟨hname, hdefinition⟩ := NamedDefinition.mk.inj htt
      obtain ⟨henabled, htext⟩ := CatalogTrigger.definition_inj hdefinition
      cases t
      cases t'
      simp only at hname henabled htext
      rw [hname, henabled, htext]
    have htriggers := List.map_injective_iff.mpr htrigger (congrArg TableEvidence.userTriggers h)
    have hlinks := List.map_injective_iff.mpr CatalogLink.relation_injective
      (congrArg TableEvidence.inheritanceRelations h)
    -- policies are not: the rest of the catalog is the same
    have hpolicies := map_policies_eq_iff.mp (congrArg TableEvidence.policies h)
    refine .inr ⟨?_, hpolicies, heq⟩
    have hfields := TableEvidence.mk.inj h
    cases C
    cases C'
    simp only at hfields htriggers hlinks ⊢
    obtain ⟨hschema, htable, hoid, hkind, hpersistence, hsecurity, hforce, hcolumns, hconstraints,
      hindexes, -, hrules, -, -, hactions⟩ := hfields
    rw [hschema, htable, hoid, hkind, hpersistence, hsecurity, hforce, hcolumns, hconstraints,
      hindexes, htriggers, hrules, hlinks, hactions]
  · rintro (rfl | h)
    · rfl
    · have hmap := map_policies_eq_iff.mpr h.policies
      rw [← h.others]
      show TableEvidence.mk _ _ _ _ _ _ _ _ _ _ _ _ (C.policies.map _) _ _ =
        TableEvidence.mk _ _ _ _ _ _ _ _ _ _ _ _ (C'.policies.map _) _ _
      rw [hmap]

variable (X : Crates)

/-- The message that is hashed. -/
def TableCatalog.message (C : TableCatalog) : Utf8.Bytes :=
  toVec (TableEvidence.codec.ser C.evidence)

/-- With the catalog answering, the evidence of the table has this fingerprint. -/
def SchemaFingerprint (requestedTable : String) (C : TableCatalog) (hash : String) : Prop :=
  ∃ evidence, Reaches (tableEvidence requestedTable).run
      (C.answers.history requestedTable C.oid) (.ret (.ok evidence)) ∧
    tableSchemaSha256 X evidence = .ok hash

theorem schemaFingerprint_iff {requestedTable : String} {C : TableCatalog} {hash : String} :
    SchemaFingerprint X requestedTable C hash ↔ hash = sha256Bytes X C.message := by
  constructor
  · rintro ⟨evidence, hr, hhash⟩
    obtain rfl := TableCatalog.reaches_evidence.mp hr
    exact (Except.ok.inj hhash).symm
  · rintro rfl
    exact ⟨C.evidence, TableCatalog.reaches_evidence.mpr rfl, rfl⟩

theorem message_eq_iff {C C' : TableCatalog} : C.message = C'.message ↔ C.evidence = C'.evidence := by
  constructor
  · intro h
    have hread : ∀ D : TableCatalog, fromSlice TableEvidence.codec D.message = some D.evidence :=
      fun D => fromSlice_toVec TableEvidence.codec D.evidence rfl
    exact Option.some.inj ((hread C).symm.trans (h ▸ hread C'))
  · intro h
    rw [TableCatalog.message, TableCatalog.message, h]

/-- **Bound but for the policies' clauses.**  Two catalogs have fingerprints, and
equal ones only if they are equal, unless they differ just in which clause of a
policy a text stands. -/
theorem tableSchemaSha256_binds_iff {requestedTable requestedTable' : String}
    {C C' : TableCatalog} (hfree : NoCollision X {C.message, C'.message}) :
    (∃ hash, SchemaFingerprint X requestedTable C hash) ∧
      (∃ hash', SchemaFingerprint X requestedTable' C' hash') ∧
      ∀ hash hash', SchemaFingerprint X requestedTable C hash →
        SchemaFingerprint X requestedTable' C' hash' →
        ((hash = hash' → C = C') ↔ ¬ C.Rewritten C') := by
  refine ⟨⟨_, (schemaFingerprint_iff X).mpr rfl⟩, ⟨_, (schemaFingerprint_iff X).mpr rfl⟩,
    fun hash hash' h h' => ?_⟩
  obtain rfl := (schemaFingerprint_iff X).mp h
  obtain rfl := (schemaFingerprint_iff X).mp h'
  constructor
  · intro hbinds hrewritten
    have hmessage := message_eq_iff.mpr (TableCatalog.evidence_eq_iff.mpr (.inr hrewritten))
    exact hrewritten.differs (hbinds (congrArg (sha256Bytes X) hmessage))
  · intro hnot hhash
    have hmessage : C.message = C'.message := hfree (.inl rfl) (.inr rfl) hhash
    rcases TableCatalog.evidence_eq_iff.mp (message_eq_iff.mp hmessage) with heq | hrewritten
    · exact heq
    · exact absurd hrewritten hnot

/-! ### A clause moved -/

namespace Sample

/-- `CREATE POLICY p ON t USING (a)`, or with `WITH CHECK (a)` in its place. -/
def policy (check : Bool) : CatalogPolicy where
  polname := "p"
  polcmd := .all
  polpermissive := true
  polroles := [0]
  polqual := if check then none else some "a"
  polwithcheck := if check then some "a" else none

/-- The table of `evidence`, with that policy in force. -/
def catalog (check : Bool) : TableCatalog where
  oid := 1
  nspname := "public"
  relname := "t"
  relkind := "r"
  relpersistence := "p"
  relrowsecurity := true
  relforcerowsecurity := false
  columns := [⟨1, "a", "boolean", false, false, none, "", ""⟩]
  constraints := []
  indexes := []
  triggers := []
  rules := []
  policies := [policy check]
  links := []
  referentialActions := []

theorem policy_rewritten : (policy false).Rewritten (policy true) where
  polname := rfl
  polcmd := rfl
  polpermissive := rfl
  polroles := rfl
  written := ⟨"a", .qual rfl rfl, .withCheck rfl rfl⟩
  differs := by decide

theorem catalog_rewritten : (catalog false).Rewritten (catalog true) where
  others := rfl
  policies := .cons (.inr policy_rewritten) .nil
  differs := by decide

theorem catalog_free : NoCollision crates {(catalog false).message, (catalog true).message} := by
  have hmessage := message_eq_iff.mpr (TableCatalog.evidence_eq_iff.mpr (.inr catalog_rewritten))
  rw [hmessage, Set.pair_eq_singleton]
  exact .of_subsingleton crates Set.subsingleton_singleton

end Sample

/-- A policy for all commands whose condition moves from USING to WITH CHECK
keeps the fingerprint. -/
theorem tableSchemaSha256_blind :
    ¬ ∀ (X : Crates) (requestedTable : String) (C C' : TableCatalog) (hash : String),
      NoCollision X {C.message, C'.message} → SchemaFingerprint X requestedTable C hash →
        SchemaFingerprint X requestedTable C' hash → C = C' := by
  intro hall
  have hmessage := message_eq_iff.mpr
    (TableCatalog.evidence_eq_iff.mpr (.inr Sample.catalog_rewritten))
  refine Sample.catalog_rewritten.differs (hall Sample.crates "t" _ _ _ Sample.catalog_free
    ((schemaFingerprint_iff Sample.crates).mpr rfl)
    ((schemaFingerprint_iff Sample.crates).mpr (congrArg _ hmessage)))

namespace Sample

/-- The table without its policy, and with a constraint. -/
def altered : TableCatalog :=
  { catalog false with
    relrowsecurity := false
    policies := []
    constraints := [⟨"c", "CHECK (a)"⟩] }

theorem altered_free : NoCollision crates {(catalog false).message, altered.message} := by
  have hcatalog : sha256Bytes crates (catalog false).message =
      "20f6f1bbf61f624bd08446c723f25cec6f364fda08a7644b47c6175287dea42e" :=
    hash_eq (by decide +kernel)
  have haltered : sha256Bytes crates altered.message =
      "56780634f4f6cf4b4758a2086a4286442dde81a86cf88165b18bd9fd81e2dc2e" :=
    hash_eq (by decide +kernel)
  apply NoCollision.pair
  rw [hcatalog, haltered]
  decide

end Sample

/-- Another constraint makes another fingerprint, and another clause does not. -/
theorem tableSchemaSha256_binds_sample :
    ∃ hash hash', SchemaFingerprint Sample.crates "t" (Sample.catalog false) hash ∧
      SchemaFingerprint Sample.crates "t" (Sample.catalog true) hash ∧
      SchemaFingerprint Sample.crates "t" Sample.altered hash' ∧ hash ≠ hash' := by
  obtain ⟨⟨hash, h⟩, ⟨hash', h'⟩, htold⟩ :=
    @tableSchemaSha256_binds_iff Sample.crates "t" "t" _ _ Sample.altered_free
  obtain ⟨-, ⟨hash₁, h₁⟩, hmoved⟩ :=
    @tableSchemaSha256_binds_iff Sample.crates "t" "t" _ _ Sample.catalog_free
  have hsame : hash = hash₁ := by
    by_contra hne
    exact (hmoved hash hash₁ h h₁).mp (fun heq => absurd heq hne) Sample.catalog_rewritten
  refine ⟨hash, hash', h, hsame ▸ h₁, h', fun heq => ?_⟩
  have hnot : ¬ (Sample.catalog false).Rewritten Sample.altered := fun hr =>
    absurd hr.policies.length_eq (by decide)
  have hcatalogs := (htold hash hash' h h').mpr hnot heq
  exact absurd (congrArg TableCatalog.relrowsecurity hcatalogs) (by decide)

end DmlPact
