/-
DmlPact/Receipt/Keys.lean

Plans and receipt events in which a key stands twice.  The hash of a sealed
document is recomputed from the value it was read as, so whatever reading lets
pass can be changed under an unchanged hash.  Reading refuses a field that
stands twice, with one exception: the settings of a database are read as a map,
which keeps the last value of a key.

    a plan that is read             has distinct keys
        ↔  its preconditions.database.settings has
    a line of an accepted receipt   has distinct keys
        ↔  its result.database.settings has, if there is one

(`sealed_documents_distinct_iff`).
-/
import DmlPact.Lib.JsonSize
import DmlPact.Lib.SerdeKeys
import DmlPact.Receipt.Torn
import DmlPact.Apply.Answers

namespace DmlPact

open Effect Json Utf8

variable (X : Crates)

/-! ### The types of both documents -/

theorem Limits.plain_codec : Limits.codec.Plain := by
  apply Codec.Plain.struct
  apply Fields.Sees.required (Codec.plain_integer.sees fun _ => trivial)
  apply Fields.Sees.required (Codec.plain_integer.sees fun _ => trivial)
  apply Fields.Sees.required (Codec.plain_integer.sees fun _ => trivial)
  exact .nil

theorem DatabaseIdentity.sees_codec :
    DatabaseIdentity.codec.Sees fun v => ∀ e, v.field "settings" 7 = some e → e.keysDistinct := by
  apply Codec.Sees.struct_field rfl
  apply Fields.Sees.required (Codec.plain_string.elsewhere (by decide))
  apply Fields.Sees.required (Codec.plain_string.elsewhere (by decide))
  apply Fields.Sees.required (Codec.plain_string.elsewhere (by decide))
  apply Fields.Sees.required (Codec.plain_integer.elsewhere (by decide))
  apply Fields.Sees.required (Codec.plain_string.elsewhere (by decide))
  apply Fields.Sees.optional (Codec.plain_string.elsewhere (by decide)) (by simp)
  apply Fields.Sees.optional (Codec.plain_integer.elsewhere (by decide)) (by simp)
  exact .required (Codec.sees_map Codec.plain_string).here .nil

theorem PlanPreconditions.sees_codec :
    PlanPreconditions.codec.Sees fun v => ∀ d, v.field "database" 0 = some d →
      ∀ e, d.field "settings" 7 = some e → e.keysDistinct := by
  apply Codec.Sees.struct_field rfl
  apply Fields.Sees.required DatabaseIdentity.sees_codec.here
  apply Fields.Sees.required (Codec.plain_string.elsewhere (by decide))
  apply Fields.Sees.required (Codec.plain_string.elsewhere (by decide))
  apply Fields.Sees.required (Codec.plain_integer.elsewhere (by decide))
  apply Fields.Sees.required (Codec.plain_string.elsewhere (by decide))
  apply Fields.Sees.required (Codec.plain_string.elsewhere (by decide))
  apply Fields.Sees.required (Codec.plain_integer.elsewhere (by decide))
  apply Fields.Sees.required (Codec.plain_integer.elsewhere (by decide))
  apply Fields.Sees.required (Codec.plain_bool.elsewhere (by decide))
  exact .nil

theorem Plan.sees_codec :
    Plan.codec.Sees fun v => ∀ p, v.field "preconditions" 16 = some p →
      ∀ d, p.field "database" 0 = some d → ∀ e, d.field "settings" 7 = some e →
        e.keysDistinct := by
  apply Codec.Sees.struct_field rfl
  apply Fields.Sees.required (Codec.plain_string.elsewhere (by decide))
  apply Fields.Sees.required (Codec.plain_string.elsewhere (by decide))
  apply Fields.Sees.required (Codec.plain_string.elsewhere (by decide))
  apply Fields.Sees.required (Codec.plain_integer.elsewhere (by decide))
  apply Fields.Sees.required (Codec.plain_integer.elsewhere (by decide))
  apply Fields.Sees.required (Codec.plain_variants.elsewhere (by decide))
  apply Fields.Sees.required (Codec.plain_string.elsewhere (by decide))
  apply Fields.Sees.required (Codec.plain_string.elsewhere (by decide))
  apply Fields.Sees.required (Codec.plain_string.elsewhere (by decide))
  apply Fields.Sees.optional (Codec.plain_string.elsewhere (by decide)) (by simp)
  apply Fields.Sees.optional (Codec.plain_string.elsewhere (by decide)) (by simp)
  apply Fields.Sees.required (Codec.plain_string.elsewhere (by decide))
  apply Fields.Sees.required (Limits.plain_codec.elsewhere (by decide))
  apply Fields.Sees.required (Codec.plain_variants.elsewhere (by decide))
  apply Fields.Sees.required (Codec.plain_bool.elsewhere (by decide))
  apply Fields.Sees.required (Codec.plain_bool.elsewhere (by decide))
  apply Fields.Sees.required PlanPreconditions.sees_codec.here
  apply Fields.Sees.optional (Codec.plain_string.elsewhere (by decide)) (by simp)
  exact .nil

theorem ReceiptResult.sees_codec :
    ReceiptResult.codec.Sees fun v => ∀ d, v.field "database" 3 = some d →
      ∀ e, d.field "settings" 7 = some e → e.keysDistinct := by
  apply Codec.Sees.struct_field rfl
  apply Fields.Sees.optional (Codec.plain_integer.elsewhere (by decide)) (by simp)
  apply Fields.Sees.required (Codec.plain_string.elsewhere (by decide))
  apply Fields.Sees.optional (Codec.plain_string.elsewhere (by decide)) (by simp)
  apply Fields.Sees.optional DatabaseIdentity.sees_codec.here (by simp [Value.field])
  apply Fields.Sees.optional (Codec.plain_string.elsewhere (by decide)) (by simp)
  exact .nil

theorem ReceiptEvent.sees_codec :
    ReceiptEvent.codec.Sees fun v => ∀ r, v.field "result" 9 = some r →
      ∀ d, r.field "database" 3 = some d → ∀ e, d.field "settings" 7 = some e →
        e.keysDistinct := by
  apply Codec.Sees.struct_field rfl
  apply Fields.Sees.required (Codec.plain_string.elsewhere (by decide))
  apply Fields.Sees.required (Codec.plain_string.elsewhere (by decide))
  apply Fields.Sees.required (Codec.plain_string.elsewhere (by decide))
  apply Fields.Sees.required (Codec.plain_integer.elsewhere (by decide))
  apply Fields.Sees.required (Codec.plain_integer.elsewhere (by decide))
  apply Fields.Sees.required (Codec.plain_string.elsewhere (by decide))
  apply Fields.Sees.required (Codec.plain_string.elsewhere (by decide))
  apply Fields.Sees.optional (Codec.plain_string.elsewhere (by decide)) (by simp)
  apply Fields.Sees.required (Codec.plain_variants.elsewhere (by decide))
  apply Fields.Sees.optional ReceiptResult.sees_codec.here (by simp [Value.field])
  apply Fields.Sees.optional (Codec.plain_string.elsewhere (by decide)) (by simp)
  exact .nil

/-! ### Documents -/

/-- The settings that a plan document shows. -/
def planSettings (document : Value) : Option Value :=
  ((document.field "preconditions" 16).bind (Value.field "database" 0)).bind
    (Value.field "settings" 7)

/-- The settings that an event document shows. -/
def eventSettings (document : Value) : Option Value :=
  ((document.field "result" 9).bind (Value.field "database" 3)).bind (Value.field "settings" 7)

theorem plan_distinct_iff {document : Value} {plan : Plan}
    (h : Plan.codec.de document = some plan) :
    document.distinct ↔ ∀ settings ∈ planSettings document, settings.keysDistinct := by
  rw [Plan.sees_codec document plan h]
  simp only [planSettings, Option.mem_def, Option.bind_eq_some_iff]
  constructor
  · rintro hfields e ⟨d, ⟨p, hp, hd⟩, he⟩
    exact hfields p hp d hd e he
  · intro hsettings p hp d hd e he
    exact hsettings e ⟨d, ⟨p, hp, hd⟩, he⟩

theorem event_distinct_iff {document : Value} {event : ReceiptEvent}
    (h : ReceiptEvent.codec.de document = some event) :
    document.distinct ↔ ∀ settings ∈ eventSettings document, settings.keysDistinct := by
  rw [ReceiptEvent.sees_codec document event h]
  simp only [eventSettings, Option.mem_def, Option.bind_eq_some_iff]
  constructor
  · rintro hfields e ⟨d, ⟨r, hr, hd⟩, he⟩
    exact hfields r hr d hd e he
  · intro hsettings r hr d hd e he
    exact hsettings e ⟨d, ⟨r, hr, hd⟩, he⟩

/-! ### The settings that are used -/

theorem DatabaseIdentity.settings_read {v : Value} {d : DatabaseIdentity}
    (h : DatabaseIdentity.codec.de v = some d) :
    ∃ e, v.field "settings" 7 = some e ∧ (Codec.map Codec.string).de e = some d.settings := by
  obtain ⟨b, rfl, hde⟩ := Codec.read_field "settings" 7 rfl
    (.there <| .there <| .there <| .there <| .there <| .there <| .there .here) h
  obtain ⟨e, he, hmap⟩ := Option.bind_eq_some_iff.mp hde
  exact ⟨e, he, hmap⟩

theorem PlanPreconditions.database_read {v : Value} {p : PlanPreconditions}
    (h : PlanPreconditions.codec.de v = some p) :
    ∃ d, v.field "database" 0 = some d ∧ DatabaseIdentity.codec.de d = some p.database := by
  obtain ⟨b, rfl, hde⟩ := Codec.read_field "database" 0 rfl .here h
  exact Option.bind_eq_some_iff.mp hde

theorem Plan.preconditions_read {v : Value} {plan : Plan} (h : Plan.codec.de v = some plan) :
    ∃ p, v.field "preconditions" 16 = some p ∧
      PlanPreconditions.codec.de p = some plan.preconditions := by
  obtain ⟨b, rfl, hde⟩ := Codec.read_field "preconditions" 16 rfl
    (.there <| .there <| .there <| .there <| .there <| .there <| .there <| .there <| .there <|
      .there <| .there <| .there <| .there <| .there <| .there <| .there .here) h
  exact Option.bind_eq_some_iff.mp hde

theorem ReceiptResult.database_read {v : Value} {r : ReceiptResult} {d : DatabaseIdentity}
    (h : ReceiptResult.codec.de v = some r) (hd : r.database = some d) :
    ∃ e, v.field "database" 3 = some e ∧ DatabaseIdentity.codec.de e = some d := by
  obtain ⟨b, rfl, hde⟩ := Codec.read_field "database" 3 rfl
    (.there <| .there <| .there .here) h
  exact Codec.deOption_eq_some (hde.trans (congrArg some hd))

theorem ReceiptEvent.result_read {v : Value} {event : ReceiptEvent} {r : ReceiptResult}
    (h : ReceiptEvent.codec.de v = some event) (hr : event.result = some r) :
    ∃ e, v.field "result" 9 = some e ∧ ReceiptResult.codec.de e = some r := by
  obtain ⟨b, rfl, hde⟩ := Codec.read_field "result" 9 rfl
    (.there <| .there <| .there <| .there <| .there <| .there <| .there <| .there <|
      .there .here) h
  exact Codec.deOption_eq_some (hde.trans (congrArg some hr))

/-- With distinct keys, the settings of a plan are those its document shows. -/
theorem plan_settings_used {document : Value} {plan : Plan}
    (h : Plan.codec.de document = some plan) (hkeys : document.distinct) :
    ∃ settings ∈ planSettings document, ∀ k s, settings.shows k (.str s) →
      plan.preconditions.database.settings.get? k = some s := by
  obtain ⟨p, hp, hpre⟩ := Plan.preconditions_read h
  obtain ⟨d, hd, hdb⟩ := PlanPreconditions.database_read hpre
  obtain ⟨settings, hs, hmap⟩ := DatabaseIdentity.settings_read hdb
  have hsettings : planSettings document = some settings := by
    rw [planSettings, hp, Option.bind_some, hd, Option.bind_some, hs]
  refine ⟨settings, hsettings, fun k s hshown => ?_⟩
  obtain ⟨a, ha, hget⟩ := Codec.get?_of_shows hmap
    ((plan_distinct_iff h).mp hkeys settings hsettings) hshown
  rw [hget, Option.some.inj ha]

/-- The same for the database of a receipt event. -/
theorem event_settings_used {document : Value} {event : ReceiptEvent} {result : ReceiptResult}
    {database : DatabaseIdentity} (h : ReceiptEvent.codec.de document = some event)
    (hresult : event.result = some result) (hdatabase : result.database = some database)
    (hkeys : document.distinct) :
    ∃ settings ∈ eventSettings document, ∀ k s, settings.shows k (.str s) →
      database.settings.get? k = some s := by
  obtain ⟨r, hr, hres⟩ := ReceiptEvent.result_read h hresult
  obtain ⟨d, hd, hdb⟩ := ReceiptResult.database_read hres hdatabase
  obtain ⟨settings, hs, hmap⟩ := DatabaseIdentity.settings_read hdb
  have hsettings : eventSettings document = some settings := by
    rw [eventSettings, hr, Option.bind_some, hd, Option.bind_some, hs]
  refine ⟨settings, hsettings, fun k s hshown => ?_⟩
  obtain ⟨a, ha, hget⟩ := Codec.get?_of_shows hmap
    ((event_distinct_iff h).mp hkeys settings hsettings) hshown
  rw [hget, Option.some.inj ha]

/-! ### Accepted files -/

/-- Each line of a receipt is read as an event. -/
theorem decodeEvent_of_mem {lines : List (List Char)} {events : List ReceiptEvent}
    (h : lines.mapM decodeEvent = .ok events) {line : List Char} (hline : line ∈ lines) :
    ∃ document event, Json.parse line = some document ∧
      ReceiptEvent.codec.de document = some event := by
  induction lines generalizing events with
  | nil => cases hline
  | cons first rest ih =>
      obtain ⟨event, events', hevent, hrest⟩ := mapM_decodeEvent_cons h
      rcases List.mem_cons.mp hline with rfl | hline
      · unfold decodeEvent at hevent
        rcases hread : (Json.parse line).bind ReceiptEvent.codec.de with - | found
        · rw [hread] at hevent
          cases hevent
        · obtain ⟨document, hdocument, hde⟩ := Option.bind_eq_some_iff.mp hread
          exact ⟨document, found, hdocument, hde⟩
      · exact ih hrest hline

/-- **Distinct keys.**  Of the files that are read as a plan, and of the lines of
the receipts that are accepted, those have distinct keys at every depth whose
`settings` object has; and then the settings used are the settings shown. -/
theorem sealed_documents_distinct_iff :
    (∀ (path : Path) (h : History) (plan : Plan),
      Reaches (readPlan X path).run h (.ret (.ok plan)) →
      ∃ metadata bytes text document,
        h = [⟨.metadata path, some metadata⟩, ⟨.read path, some bytes⟩] ∧
        decode bytes = some text ∧ Json.parse text = some document ∧
        Plan.codec.de document = some plan ∧
        (document.distinct ↔ ∀ settings ∈ planSettings document, settings.keysDistinct) ∧
        (document.distinct → ∃ settings ∈ planSettings document, ∀ k s,
          settings.shows k (.str s) →
            plan.preconditions.database.settings.get? k = some s)) ∧
    ∀ (path : Path) (h : History) (v : ReceiptVerification),
      Reaches (verifyReceipt X path).run h (.ret (.ok v)) →
      ∃ metadata bytes content,
        h = [⟨.metadata path, some metadata⟩, ⟨.read path, some bytes⟩] ∧
        decode bytes = some content ∧
        ∀ line ∈ Str.lines content, ∃ document event, Json.parse line = some document ∧
          ReceiptEvent.codec.de document = some event ∧
          (document.distinct ↔ ∀ settings ∈ eventSettings document, settings.keysDistinct) ∧
          (document.distinct → ∀ result database, event.result = some result →
            result.database = some database →
            ∃ settings ∈ eventSettings document, ∀ k s, settings.shows k (.str s) →
              database.settings.get? k = some s) := by
  constructor
  · intro path h plan hr
    obtain ⟨metadata, bytes, rfl, -, hdecoded⟩ := (readPlan_ok X).mp hr
    obtain ⟨-, hread, -⟩ := (decodePlan_ok X).mp hdecoded
    obtain ⟨text, htext, hdocument⟩ := Option.bind_eq_some_iff.mp hread
    obtain ⟨document, hparse, hde⟩ := Option.bind_eq_some_iff.mp hdocument
    exact ⟨metadata, bytes, text, document, rfl, htext, hparse, hde, plan_distinct_iff hde,
      plan_settings_used hde⟩
  · intro path h v hr
    obtain ⟨metadata, bytes, rfl, -, hverified⟩ := (verifyReceipt_ok X).mp hr
    obtain ⟨content, events, hcontent, -, -, hevents, -⟩ := verifyReceiptBytes_ok X hverified
    refine ⟨metadata, bytes, content, rfl, hcontent, ?_⟩
    intro line hline
    obtain ⟨document, event, hparse, hde⟩ := decodeEvent_of_mem hevents hline
    exact ⟨document, event, hparse, hde, event_distinct_iff hde,
      fun hkeys result database hr hd => event_settings_used hde hr hd hkeys⟩

/-! ### A forged member -/

/-- Put `f` of a member in its place. -/
def editMember (name : String) (f : Value → Value) : Value → Value
  | .obj members => .obj (members.map fun m => if m.1 = name then (m.1, f m.2) else m)
  | v => v

theorem exact_editMember {name : String} {f : Value → Value}
    (hf : ∀ v, v.exact → (f v).exact) {v : Value} (hv : v.exact) :
    (editMember name f v).exact := by
  cases v with
  | obj members =>
      show exactMembers (members.map fun m => if m.1 = name then (m.1, f m.2) else m)
      induction members with
      | nil => trivial
      | cons d ds ih =>
          rw [List.map_cons]
          by_cases hname : d.1 = name
          · rw [if_pos hname]
            exact ⟨hf d.2 hv.1, ih hv.2⟩
          · rw [if_neg hname]
            exact ⟨hv.1, ih hv.2⟩
  | _ => exact hv

/-- Editing a member adds to the weight what it adds to the weight of that
member. -/
theorem weight_editMember {name : String} {f : Value → Value} {v w : Value} {n : Nat}
    (place : Nat) (hkeys : v.keysDistinct) (hw : v.field name place = some w)
    (hf : (f w).weight ≤ w.weight + n) : (editMember name f v).weight ≤ v.weight + n := by
  cases v with
  | obj members =>
      have hall : ∀ m ∈ members, m.1 = name → (f m.2).weight ≤ m.2.weight + n := by
        intro m hm hname
        have hlookup := lookup_of_mem hkeys hm
        rw [hname, show members.lookup name = some w from hw] at hlookup
        rw [← Option.some.inj hlookup]
        exact hf
      have hmembers : membersWeight
          (members.map fun m => if m.1 = name then (m.1, f m.2) else m) ≤
          membersWeight members + n := by
        clear hw
        induction members with
        | nil => exact Nat.zero_le _
        | cons d ds ih =>
            obtain ⟨hnot, hkeys⟩ := List.nodup_cons.mp hkeys
            rw [List.map_cons]
            by_cases hname : d.1 = name
            · -- the only member of this name, so the others stay
              have hrest : (ds.map fun m => if m.1 = name then (m.1, f m.2) else m) =
                  ds.map id := by
                apply List.map_congr_left
                intro m hm
                apply if_neg
                intro hother
                exact hnot (hname ▸ hother ▸ List.mem_map_of_mem hm)
              have hd := hall d List.mem_cons_self hname
              rw [if_pos hname, hrest, List.map_id]
              simp only [membersWeight]
              omega
            · have hds := ih hkeys fun m hm => hall m (List.mem_cons_of_mem _ hm)
              rw [if_neg hname]
              simp only [membersWeight]
              omega
      show 2 + membersWeight _ ≤ 2 + membersWeight members + n
      omega
  | _ => exact Nat.le_add_right _ _

namespace Sample

/-- One more date style, before the one that is read. -/
def forge : Value → Value
  | .obj members => .obj (("DateStyle", .str "forged") :: members)
  | v => v

/-- The plan document with that member in its settings. -/
def forged : Value :=
  editMember "preconditions" (editMember "database" (editMember "settings" forge))
    (Plan.codec.ser answers.plan)

theorem de_forged : Plan.codec.de forged = some answers.plan := by rfl

theorem exact_forged : forged.exact := by
  have hforge : ∀ v, v.exact → (forge v).exact := by
    intro v hv
    cases v with
    | obj members => exact ⟨trivial, hv⟩
    | _ => exact hv
  apply exact_editMember
  · intro p hp
    apply exact_editMember _ hp
    intro d hd
    exact exact_editMember hforge hd
  · exact Plan.codec.exact_ser _

theorem weight_plan : (Plan.codec.ser answers.plan).weight ≤ 20000 :=
  weight_planNamingAt 0 100 answers.unexpired
    (show (canonicalTable evidence).toList.length ≤ 1000 by decide)

theorem weight_forge (v : Value) : (forge v).weight ≤ v.weight + 100 := by
  cases v with
  | obj members =>
      have hkey : stringWeight "DateStyle" = 56 := by decide
      have hvalue : stringWeight "forged" = 38 := by decide
      simp only [forge, Value.weight, membersWeight, hkey, hvalue]
      omega
  | _ => exact Nat.le_add_right _ _

theorem weight_forged : forged.weight ≤ 20100 := by
  have hdatabase (d : DatabaseIdentity) :
      (editMember "settings" forge (DatabaseIdentity.codec.ser d)).weight ≤
        (DatabaseIdentity.codec.ser d).weight + 100 :=
    weight_editMember 7 (Codec.keysDistinct_struct d) rfl (weight_forge _)
  have hpreconditions (p : PlanPreconditions) :
      (editMember "database" (editMember "settings" forge)
        (PlanPreconditions.codec.ser p)).weight ≤ (PlanPreconditions.codec.ser p).weight + 100 :=
    weight_editMember 0 (Codec.keysDistinct_struct p) rfl (hdatabase p.database)
  have hforged (p : Plan) :
      (editMember "preconditions" (editMember "database" (editMember "settings" forge))
        (Plan.codec.ser p)).weight ≤ (Plan.codec.ser p).weight + 100 :=
    weight_editMember 16 (Codec.keysDistinct_struct p) rfl (hpreconditions p.preconditions)
  exact (hforged answers.plan).trans (Nat.add_le_add_right weight_plan 100)

/-- It is read as the plan without that member. -/
theorem decodePlan_forged : decodePlan crates (toVec forged) = .ok answers.plan := by
  have hsize : (toVec forged).length ≤ maxPlanBytes := by
    have hmax : 20100 ≤ maxPlanBytes := by decide
    exact (length_encode_compact forged).trans (weight_forged.trans hmax)
  have hread : fromSlice Plan.codec (toVec forged) = some answers.plan := by
    rw [fromSlice, toVec, decode_encode, Option.bind_some,
      parse_compact forged exact_forged rfl, Option.bind_some, de_forged]
  exact (decodePlan_ok crates).mpr ⟨hsize, hread, _, answers.planNaming_verified _⟩

/-- The file is accepted. -/
theorem reads_forged (path : Path) : Reaches (readPlan crates path).run
    [⟨.metadata path, some ⟨true, 0⟩⟩, ⟨.read path, some (toVec forged)⟩]
    (.ret (.ok answers.plan)) :=
  (readPlan_ok crates).mpr ⟨_, _, rfl, approval.plan_file, decodePlan_forged⟩

/-- Its settings show two date styles. -/
theorem settings_forged : ∃ settings ∈ planSettings forged,
    settings.shows "DateStyle" (.str "forged") ∧ settings.shows "DateStyle" (.str "ISO") ∧
      ¬ settings.keysDistinct := by
  refine ⟨forge ((Codec.map Codec.string).ser identity.settings), rfl, ?_, ?_, ?_⟩
  · exact List.mem_cons_self
  · exact List.mem_cons_of_mem _ List.mem_cons_self
  · show ¬ List.Nodup _
    decide

end Sample

/-- The plan of that file has one date style, and the same hash as without the
other. -/
theorem sealed_documents_forged :
    ¬ ∀ (X : Crates) (path : Path) (h : History) (plan : Plan) (bytes : Bytes)
      (text : List Char) (document : Value), Reaches (readPlan X path).run h (.ret (.ok plan)) →
      h[1]? = some ⟨.read path, some bytes⟩ → decode bytes = some text →
      Json.parse text = some document → document.distinct := by
  intro hall
  have hdistinct := hall Sample.crates [2] _ _ _ _ _ (Sample.reads_forged [2]) rfl
    (decode_encode _) (parse_compact Sample.forged Sample.exact_forged rfl)
  obtain ⟨settings, hsettings, -, -, htwice⟩ := Sample.settings_forged
  exact htwice ((plan_distinct_iff Sample.de_forged).mp hdistinct settings hsettings)

/-- The one file told by its settings, and the file that planning writes. -/
theorem sealed_documents_sample :
    ¬ Sample.forged.distinct ∧ (Plan.codec.ser Sample.answers.plan).distinct := by
  constructor
  · obtain ⟨metadata, bytes, text, document, hh, htext, hparse, -, hiff, -⟩ :=
      (sealed_documents_distinct_iff Sample.crates).1 [2] _ _ (Sample.reads_forged [2])
    cases hh
    rw [toVec, decode_encode] at htext
    cases htext
    rw [parse_compact Sample.forged Sample.exact_forged rfl] at hparse
    cases hparse
    obtain ⟨settings, hsettings, -, -, htwice⟩ := Sample.settings_forged
    exact fun hdistinct => htwice (hiff.mp hdistinct settings hsettings)
  · have hread : Reaches (readPlan Sample.crates [2]).run
        [⟨.metadata [2], some ⟨true, 0⟩⟩, ⟨.read [2], some Sample.approval.planBytes⟩]
        (.ret (.ok Sample.answers.plan)) :=
      (readPlan_ok Sample.crates).mpr
        ⟨_, _, rfl, Sample.approval.plan_file, Sample.approval.plan_decoded⟩
    obtain ⟨metadata, bytes, text, document, hh, htext, hparse, -, hiff, -⟩ :=
      (sealed_documents_distinct_iff Sample.crates).1 [2] _ _ hread
    cases hh
    have hbytes : Sample.approval.planBytes = toVec (Plan.codec.ser Sample.answers.plan) := rfl
    rw [hbytes, toVec, decode_encode] at htext
    cases htext
    rw [parse_compact _ (Plan.codec.exact_ser _) rfl] at hparse
    cases hparse
    refine hiff.mpr fun settings hsettings => ?_
    have hplan : planSettings (Plan.codec.ser Sample.answers.plan) =
        some ((Codec.map Codec.string).ser Sample.identity.settings) := rfl
    rw [hplan] at hsettings
    cases hsettings
    show List.Nodup _
    decide

end DmlPact
