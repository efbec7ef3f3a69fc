/-
DmlPact/Lib/SerdeKeys.lean

Documents in which a key stands twice.  `Value.distinct` says that no object in
a document has two members with one key, at any depth.  A strict structure
refuses a field that stands twice and a member that is no field; a map takes
the last of them.  So among the documents that a codec reads, those with
distinct keys are told apart by a condition on the document (`Codec.Sees`):

    scalar       none, they all have
    map          no key of the map stands twice
    structure    the condition of each of its fields, on the field's value

and for a structure with one field that is not plain it is the condition of
that field (`Codec.Sees.struct_field`).
-/
import DmlPact.Lib.Serde

namespace Json

mutual

/-- No object in the value has two members with one key. -/
def Value.distinct : Value → Prop
  | .arr items => distinctItems items
  | .obj members => (members.map Prod.fst).Nodup ∧ distinctMembers members
  | .null | .bool _ | .int _ | .float _ | .str _ => True

def distinctItems : List Value → Prop
  | [] => True
  | v :: vs => v.distinct ∧ distinctItems vs

def distinctMembers : List (String × Value) → Prop
  | [] => True
  | (_, v) :: ms => v.distinct ∧ distinctMembers ms

end

theorem distinctItems_iff {items : List Value} :
    distinctItems items ↔ ∀ v ∈ items, v.distinct := by
  induction items with
  | nil => simp [distinctItems]
  | cons v vs ih => simp [distinctItems, ih]

theorem distinctMembers_iff {members : List (String × Value)} :
    distinctMembers members ↔ ∀ m ∈ members, m.2.distinct := by
  induction members with
  | nil => simp [distinctMembers]
  | cons m ms ih =>
      obtain ⟨k, v⟩ := m
      simp only [distinctMembers, ih, List.forall_mem_cons]

theorem distinct_arr {items : List Value} :
    (Value.arr items).distinct ↔ ∀ v ∈ items, v.distinct := by
  rw [Value.distinct, distinctItems_iff]

theorem distinct_obj {members : List (String × Value)} :
    (Value.obj members).distinct ↔
      (members.map Prod.fst).Nodup ∧ ∀ m ∈ members, m.2.distinct := by
  rw [Value.distinct, distinctMembers_iff]

/-- The value itself, if it is an object, has no two members with one key. -/
def Value.keysDistinct : Value → Prop
  | .obj members => (members.map Prod.fst).Nodup
  | _ => True

/-- The value of a field: the member of its name, or the item at its place. -/
def Value.field (name : String) (place : Nat) : Value → Option Value
  | .obj members => members.lookup name
  | .arr items => items[place]?
  | _ => none

/-- With distinct keys, looking a key up finds each member. -/
theorem lookup_of_mem {members : List (String × Value)}
    (hkeys : (members.map Prod.fst).Nodup) {m : String × Value} (hm : m ∈ members) :
    members.lookup m.1 = some m.2 := by
  induction members with
  | nil => cases hm
  | cons d ds ih =>
      obtain ⟨hnot, hkeys⟩ := List.nodup_cons.mp hkeys
      rcases List.mem_cons.mp hm with rfl | hm
      · rw [List.lookup_cons, beq_self_eq_true]
      · have hne : (m.1 == d.1) = false := by
          simpa using fun h : m.1 = d.1 => hnot (h ▸ List.mem_map_of_mem hm)
        rw [List.lookup_cons, hne]
        exact ih hkeys hm

theorem mem_of_lookup {members : List (String × Value)} {k : String} {v : Value}
    (h : members.lookup k = some v) : (k, v) ∈ members := by
  induction members with
  | nil => cases h
  | cons d ds ih =>
      rw [List.lookup_cons] at h
      by_cases hk : k = d.1
      · have hd : (k == d.1) = true := by simpa using hk
        rw [hd] at h
        rw [hk, ← Option.some.inj h]
        exact List.mem_cons_self
      · have hd : (k == d.1) = false := by simpa using hk
        rw [hd] at h
        exact List.mem_cons_of_mem _ (ih h)

end Json

open Json

namespace Codec

variable {α β : Type}

/-- Among the values that `c` reads, `P` holds of those with distinct keys. -/
def Sees (c : Codec α) (P : Value → Prop) : Prop :=
  ∀ v a, c.de v = some a → (v.distinct ↔ P v)

/-- Every value that `c` reads has distinct keys. -/
def Plain (c : Codec α) : Prop := ∀ v a, c.de v = some a → v.distinct

theorem Plain.sees {c : Codec α} (hc : c.Plain) {P : Value → Prop} (hP : ∀ v, P v) : c.Sees P :=
  fun v a hv => iff_of_true (hc v a hv) (hP v)

/-- The condition of the field `name`, at that field. -/
theorem Sees.here {c : Codec α} {P : Value → Prop} (hc : c.Sees P) {name : String} :
    c.Sees fun v => name = name → P v := by
  intro v a hv
  rw [hc v a hv]
  exact (imp_iff_right rfl).symm

/-- The condition of the field `name`, at any other. -/
theorem Plain.elsewhere {c : Codec α} (hc : c.Plain) {P : Value → Prop} {other name : String}
    (hne : other ≠ name) : c.Sees fun v => other = name → P v :=
  hc.sees fun _ hname => absurd hname hne

/-! ### Scalars -/

theorem plain_string : string.Plain := by
  intro v a hv
  cases v with
  | str s => trivial
  | _ => cases hv

theorem plain_bool : bool.Plain := by
  intro v a hv
  cases v with
  | bool b => trivial
  | _ => cases hv

theorem plain_integer {toInt : α → Int} {ofInt : Int → α} {lo hi : Int}
    {round : ∀ a, ofInt (toInt a) = a} {range : ∀ a, lo ≤ toInt a ∧ toInt a ≤ hi} :
    (integer toInt ofInt lo hi round range).Plain := by
  intro v a hv
  cases v with
  | int n => trivial
  | _ => cases hv

theorem plain_variants {all : List α} {tag : α → String}
    {found : ∀ a, all.find? (fun b => tag b == tag a) = some a} :
    (variants all tag found).Plain := by
  intro v a hv
  -- the object form has a single member
  match v, hv with
  | .str s, _ => trivial
  | .obj [(s, .null)], _ => simp [Value.distinct, distinctMembers]

/-! ### Maps -/

theorem mem_of_mapM {β γ : Type} {f : β → Option γ} {bs : List β} {cs : List γ}
    (h : bs.mapM f = some cs) {b : β} (hb : b ∈ bs) : ∃ c, f b = some c := by
  induction bs generalizing cs with
  | nil => cases hb
  | cons d ds ih =>
      rw [List.mapM_cons] at h
      obtain ⟨c, hc, hrest⟩ := Option.bind_eq_some_iff.mp h
      obtain ⟨rest, hds, -⟩ := Option.bind_eq_some_iff.mp hrest
      rcases List.mem_cons.mp hb with rfl | hb
      · exact ⟨c, hc⟩
      · exact ih hds hb

/-- A map takes any keys. -/
theorem sees_map {c : Codec α} (hc : c.Plain) : (map c).Sees Value.keysDistinct := by
  intro v m hv
  cases v with
  | obj members =>
      obtain ⟨entries, hentries, -⟩ := Option.map_eq_some_iff.mp hv
      have hvalues : ∀ m ∈ members, m.2.distinct := by
        intro m hm
        obtain ⟨e, he⟩ := mem_of_mapM hentries hm
        obtain ⟨a, ha, -⟩ := Option.map_eq_some_iff.mp he
        exact hc m.2 a ha
      rw [distinct_obj]
      exact and_iff_left hvalues
  | _ => cases hv

end Codec

/-! ### Structures -/

/-- Of each field that `fs` reads, `Q` at its name holds if its value has
distinct keys, and only then. -/
def Fields.Sees {α : Type} (fs : Fields α) (Q : String → Value → Prop) : Prop :=
  ∀ (entries : List (Option Value)) (a : α), fs.de entries = some a →
    ∀ (place : Nat) (name : String) (v : Value), fs.names[place]? = some name →
      entries[place]? = some (some v) → (v.distinct ↔ Q name v)

namespace Fields.Sees

variable {α β : Type} {Q : String → Value → Prop}

theorem nil : Fields.nil.Sees Q := by
  intro entries a hde place name v hname
  cases hname

theorem cons {name : String} {ser : α → Value} {de : Option Value → Option α}
    {de_ser : ∀ a, de (some (ser a)) = some a} {exact_ser : ∀ a, (ser a).exact} {fs : Fields β}
    (hde : ∀ v a, de (some v) = some a → (v.distinct ↔ Q name v)) (hfs : fs.Sees Q) :
    (Fields.cons name ser de de_ser exact_ser fs).Sees Q := by
  intro entries a hentries place found v hname hv
  cases entries with
  | nil => cases hentries
  | cons entry entries =>
      obtain ⟨first, hfirst, hrest⟩ := Option.bind_eq_some_iff.mp hentries
      obtain ⟨rest, hrest, -⟩ := Option.map_eq_some_iff.mp hrest
      cases place with
      | zero =>
          cases hname
          cases hv
          exact hde v first hfirst
      | succ place => exact hfs entries rest hrest place found v hname hv

theorem required {name : String} {c : Codec α} {fs : Fields β} (hc : c.Sees (Q name))
    (hfs : fs.Sees Q) : (Fields.required name c fs).Sees Q :=
  cons (fun v a hv => hc v a hv) hfs

/-- A field that is `null` is read without its codec. -/
theorem optional {name : String} {c : Codec α} {fs : Fields β} (hc : c.Sees (Q name))
    (hnull : Q name .null) (hfs : fs.Sees Q) : (Fields.optional name c fs).Sees Q := by
  refine cons (fun v a hv => ?_) hfs
  cases v with
  | null => exact iff_of_true trivial hnull
  | _ =>
      obtain ⟨b, hb, -⟩ := Option.map_eq_some_iff.mp hv
      exact hc _ b hb

end Fields.Sees

/-- The entries of a strict structure, place by place, and what distinct keys
come to for it. -/
theorem Fields.collect_strict {names : List String} {v : Value} {entries : List (Option Value)}
    (h : collect true names v = some entries) :
    (∀ (place : Nat) (name : String), names[place]? = some name →
        entries[place]? = some (v.field name place)) ∧
      (v.distinct ↔ ∀ (place : Nat) (name : String), names[place]? = some name →
        ∀ e, v.field name place = some e → e.distinct) := by
  cases v with
  | obj members =>
      obtain ⟨⟨hkeys, hall⟩, hentries⟩ := Option.ite_none_right_eq_some.mp h
      -- strict: every member has a known name, so none is skipped
      have hknown : known names members = members := by
        apply List.filter_eq_self.mpr
        intro m hm
        simpa using hall rfl m hm
      rw [hknown] at hkeys
      cases hentries
      refine ⟨fun place name hname => by simp [hname, Value.field], ?_⟩
      rw [distinct_obj, and_iff_right hkeys]
      constructor
      · intro hvalues place name _ e he
        exact hvalues _ (mem_of_lookup he)
      · intro hfields m hm
        obtain ⟨place, hplace⟩ := List.mem_iff_getElem?.mp (hall rfl m hm)
        exact hfields place m.1 hplace m.2 (lookup_of_mem hkeys hm)
  | arr items =>
      obtain ⟨hlength, hentries⟩ := Option.ite_none_right_eq_some.mp h
      -- an array has an entry for each field, and no names to repeat
      have hsome : ∀ (place : Nat) (name : String), names[place]? = some name →
          ∃ e, items[place]? = some e := by
        intro place name hname
        have hlt := (List.getElem?_eq_some_iff.mp hname).1
        exact ⟨_, List.getElem?_eq_getElem (hlength ▸ hlt)⟩
      cases hentries
      constructor
      · intro place name hname
        obtain ⟨e, he⟩ := hsome place name hname
        simp [he, Value.field]
      rw [distinct_arr]
      constructor
      · intro hitems place name _ e he
        exact hitems e (List.mem_of_getElem? he)
      · intro hfields e he
        obtain ⟨place, hplace⟩ := List.mem_iff_getElem?.mp he
        have hlt := (List.getElem?_eq_some_iff.mp hplace).1
        exact hfields place _ (List.getElem?_eq_getElem (hlength ▸ hlt)) e hplace
  | _ => cases h

namespace Codec

variable {α β : Type} {fs : Fields β} {hn : fs.names.Nodup} {pack : α → β} {unpack : β → α}
  {unpack_pack : ∀ a, unpack (pack a) = a}

/-- A strict structure has distinct keys if the values of its fields have. -/
theorem Sees.struct {Q : String → Value → Prop} (hfs : fs.Sees Q) :
    (Codec.struct true fs hn pack unpack unpack_pack).Sees fun v =>
      ∀ (place : Nat) (name : String), fs.names[place]? = some name →
        ∀ e, v.field name place = some e → Q name e := by
  intro v a hv
  obtain ⟨entries, hentries, hfields⟩ := Option.bind_eq_some_iff.mp hv
  obtain ⟨b, hb, -⟩ := Option.map_eq_some_iff.mp hfields
  obtain ⟨hplaces, hdistinct⟩ := Fields.collect_strict hentries
  rw [hdistinct]
  refine forall₂_congr fun place name => forall₃_congr fun hname e he => ?_
  exact hfs entries b hb place name e hname (by rw [hplaces place name hname, he])

/-- If all fields but one are plain, what counts is the value of that one. -/
theorem Sees.struct_field {name : String} {place : Nat} {P : Value → Prop}
    (hplace : fs.names[place]? = some name)
    (hfs : fs.Sees fun found v => found = name → P v) :
    (Codec.struct true fs hn pack unpack unpack_pack).Sees fun v =>
      ∀ e, v.field name place = some e → P e := by
  intro v a hv
  rw [Sees.struct hfs v a hv]
  constructor
  · intro hfields e he
    exact hfields place name hplace e he rfl
  · intro hone other found hfound e he hname
    -- a name has one place
    rw [hname] at hfound he
    have hsame : other = place := by
      have hlt := (List.getElem?_eq_some_iff.mp hfound).1
      exact (List.getElem?_inj hlt hn).mp (hfound.trans hplace.symm)
    exact hone e (hsame ▸ he)

/-- The object a structure is written as has distinct keys. -/
theorem keysDistinct_struct {strict : Bool} (a : α) :
    ((Codec.struct strict fs hn pack unpack unpack_pack).ser a).keysDistinct := by
  show ((fs.names.zip (fs.ser (pack a))).map Prod.fst).Nodup
  rw [List.map_fst_zip (fs.length_ser _).ge]
  exact hn

/-- A strict structure of plain fields is plain. -/
theorem Plain.struct (hfs : fs.Sees fun _ _ => True) :
    (Codec.struct true fs hn pack unpack unpack_pack).Plain := by
  intro v a hv
  rw [Sees.struct hfs v a hv]
  intro place name hname e he
  trivial

end Codec

/-! ### What a field is read as -/

/-- The entry at `place` is read by `de`, and makes the part `proj` of what
`fs` reads. -/
def Fields.Reads {β γ : Type} (fs : Fields β) (place : Nat) (de : Option Value → Option γ)
    (proj : β → γ) : Prop :=
  ∀ (entries : List (Option Value)) (b : β), fs.de entries = some b →
    ∃ entry, entries[place]? = some entry ∧ de entry = some (proj b)

namespace Fields.Reads

variable {α β γ : Type} {name : String} {ser : α → Value} {de : Option Value → Option α}
  {de_ser : ∀ a, de (some (ser a)) = some a} {exact_ser : ∀ a, (ser a).exact} {fs : Fields β}

theorem here : (Fields.cons name ser de de_ser exact_ser fs).Reads 0 de Prod.fst := by
  intro entries b hentries
  cases entries with
  | nil => cases hentries
  | cons entry entries =>
      obtain ⟨first, hfirst, hrest⟩ := Option.bind_eq_some_iff.mp hentries
      obtain ⟨rest, -, hb⟩ := Option.map_eq_some_iff.mp hrest
      cases hb
      exact ⟨entry, rfl, hfirst⟩

theorem there {place : Nat} {de' : Option Value → Option γ} {proj : β → γ}
    (hfs : fs.Reads place de' proj) :
    (Fields.cons name ser de de_ser exact_ser fs).Reads (place + 1) de' fun b => proj b.2 := by
  intro entries b hentries
  cases entries with
  | nil => cases hentries
  | cons entry entries =>
      obtain ⟨first, hfirst, hpair⟩ := Option.bind_eq_some_iff.mp hentries
      obtain ⟨rest, hrest, hb⟩ := Option.map_eq_some_iff.mp hpair
      cases hb
      exact hfs entries rest hrest

end Fields.Reads

/-- A field of a strict structure is read from its value in the document. -/
theorem Codec.read_field {α β γ : Type} {fs : Fields β} {hn : fs.names.Nodup} {pack : α → β}
    {unpack : β → α} {unpack_pack : ∀ a, unpack (pack a) = a} {de : Option Value → Option γ}
    {proj : β → γ} (name : String) (place : Nat) (hplace : fs.names[place]? = some name)
    (hfs : fs.Reads place de proj) {v : Value} {a : α}
    (hv : (Codec.struct true fs hn pack unpack unpack_pack).de v = some a) :
    ∃ b, a = unpack b ∧ de (v.field name place) = some (proj b) := by
  obtain ⟨entries, hentries, hfields⟩ := Option.bind_eq_some_iff.mp hv
  obtain ⟨b, hb, rfl⟩ := Option.map_eq_some_iff.mp hfields
  obtain ⟨entry, hentry, hde⟩ := hfs entries b hb
  have hfield := (Fields.collect_strict hentries).1 place name hplace
  rw [hentry] at hfield
  exact ⟨b, rfl, Option.some.inj hfield ▸ hde⟩

/-- An optional field that is there was read from a value. -/
theorem Codec.deOption_eq_some {α : Type} {c : Codec α} {entry : Option Value} {a : α}
    (h : c.deOption entry = some (some a)) : ∃ e, entry = some e ∧ c.de e = some a := by
  match entry, h with
  | some .null, h => cases h
  | some (.bool _), h => exact ⟨_, rfl, by simpa [deOption] using h⟩
  | some (.int _), h => exact ⟨_, rfl, by simpa [deOption] using h⟩
  | some (.float _), h => exact ⟨_, rfl, by simpa [deOption] using h⟩
  | some (.str _), h => exact ⟨_, rfl, by simpa [deOption] using h⟩
  | some (.arr _), h => exact ⟨_, rfl, by simpa [deOption] using h⟩
  | some (.obj _), h => exact ⟨_, rfl, by simpa [deOption] using h⟩

/-- The object shows `value` for `key`. -/
def Json.Value.shows (v : Value) (key : String) (value : Value) : Prop :=
  match v with
  | .obj members => (key, value) ∈ members
  | _ => False

theorem Codec.keys_of_mapM {α : Type} {c : Codec α} {members : List (String × Value)}
    {entries : List (String × α)} (h : members.mapM c.deMember = some entries) :
    entries.map Prod.fst = members.map Prod.fst ∧
      ∀ m ∈ members, ∃ a, c.de m.2 = some a ∧ (m.1, a) ∈ entries := by
  induction members generalizing entries with
  | nil =>
      cases h
      simp
  | cons d ds ih =>
      rw [List.mapM_cons] at h
      obtain ⟨e, he, hrest⟩ := Option.bind_eq_some_iff.mp h
      obtain ⟨rest, hds, hsame⟩ := Option.bind_eq_some_iff.mp hrest
      cases hsame
      obtain ⟨a, ha, rfl⟩ := Option.map_eq_some_iff.mp he
      obtain ⟨hkeys, hvalues⟩ := ih hds
      refine ⟨by rw [List.map_cons, List.map_cons, hkeys], ?_⟩
      intro m hm
      rcases List.mem_cons.mp hm with rfl | hm
      · exact ⟨a, ha, List.mem_cons_self⟩
      · obtain ⟨b, hb, hmem⟩ := hvalues m hm
        exact ⟨b, hb, List.mem_cons_of_mem _ hmem⟩

/-- With distinct keys, a map is read as what the object shows. -/
theorem Codec.get?_of_shows {α : Type} {c : Codec α} {v w : Value} {m : BTreeMap String α}
    (hv : (Codec.map c).de v = some m) (hkeys : v.keysDistinct) {k : String}
    (hshown : v.shows k w) : ∃ a, c.de w = some a ∧ m.get? k = some a := by
  cases v with
  | obj members =>
      obtain ⟨entries, hentries, rfl⟩ := Option.map_eq_some_iff.mp hv
      obtain ⟨hsame, hvalues⟩ := keys_of_mapM hentries
      obtain ⟨a, ha, hmem⟩ := hvalues (k, w) hshown
      have hnodup : (entries.map Prod.fst).Nodup := by
        rw [hsame]
        exact hkeys
      exact ⟨a, ha, BTreeMap.get?_foldl_insert_of_mem entries .empty hnodup hmem⟩
  | _ => cases hv
