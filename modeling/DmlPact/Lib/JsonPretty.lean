/-
DmlPact/Lib/JsonPretty.lean

Indented documents read back, and how long they are.

The reader skips white space wherever a token is due (`run_ws`), so the
induction of `run_compact` carries over (`run_pretty`): reading the indented
rendering of `v` leaves the reader as if `v` had just been completed.  The
length of the rendering is `Value.size`, byte for byte (`length_encode_pretty`).
-/
import DmlPact.Lib.JsonRoundTrip
import DmlPact.Lib.JsonSize

namespace Json

open Utf8

/-! ### White space -/

/-- A mode in which a token is due, so that white space is skipped. -/
def Mode.skips : Mode → Bool
  | .value | .arrStart | .objStart | .key | .colon | .after | .done _ => true
  | .str _ _ _ | .num _ _ | .lit _ _ => false

theorem step_ws {mode : Mode} (hm : mode.skips) {fs : List Frame} {c : Char} (hc : isWs c) :
    step ⟨mode, fs⟩ c = some ⟨mode, fs⟩ := by
  cases mode with
  | str acc phase isKey => cases hm
  | num lexeme phase => cases hm
  | lit rest v => cases hm
  | _ => simp [step, stepPlain, stepAfter, hc]

/-- White space between tokens is skipped. -/
theorem run_ws {mode : Mode} (hm : mode.skips) {ws : List Char} (hws : ∀ c ∈ ws, isWs c)
    (fs : List Frame) (rest : List Char) :
    run ⟨mode, fs⟩ (ws ++ rest) = run ⟨mode, fs⟩ rest := by
  induction ws with
  | nil => rfl
  | cons c ws ih =>
      rw [List.cons_append, run_cons, step_ws hm (hws c (by simp)), Option.bind_some]
      exact ih fun d hd => hws d (by simp [hd])

theorem isWs_of_mem_newline {level : Nat} {c : Char} (hc : c ∈ newline level) : isWs c := by
  rcases List.mem_cons.mp hc with rfl | hc
  · rfl
  · rw [List.eq_of_mem_replicate hc]
    rfl

theorem run_newline {mode : Mode} (hm : mode.skips) (level : Nat) (fs : List Frame)
    (rest : List Char) : run ⟨mode, fs⟩ (newline level ++ rest) = run ⟨mode, fs⟩ rest :=
  run_ws hm (fun _ hc => isWs_of_mem_newline hc) fs rest

/-! ### Indented documents read back -/

/-- What is indented after `[` is read there as it would be where a value is
due. -/
theorem run_prettyStart (v : Value) (hv : v.exact) (level : Nat) (fs : List Frame)
    (rest : List Char) :
    run ⟨.arrStart, fs⟩ (v.pretty level ++ rest) = run ⟨.value, fs⟩ (v.pretty level ++ rest) := by
  match v, hv with
  | .null, hv => exact run_arrStart .null hv fs rest
  | .bool b, hv => exact run_arrStart (.bool b) hv fs rest
  | .int n, hv => exact run_arrStart (.int n) hv fs rest
  | .str s, hv => exact run_arrStart (.str s) hv fs rest
  | .arr [], _ => rfl
  | .arr (_ :: _), _ => rfl
  | .obj [], _ => rfl
  | .obj (_ :: _), _ => rfl

/-- The items of an array come after a line break. -/
theorem prettyItems_cons (level : Nat) (v : Value) (vs : List Value) :
    ∃ more, prettyItems level (v :: vs) = newline level ++ (v.pretty level ++ more) := by
  cases vs with
  | nil => exact ⟨[], by rw [prettyItems, List.append_nil]⟩
  | cons w vs => exact ⟨',' :: prettyItems level (w :: vs), by rw [prettyItems, List.append_assoc]⟩

/-- So do the members of an object. -/
theorem prettyMembers_cons (level : Nat) (m : String × Value) (ms : List (String × Value)) :
    ∃ more, prettyMembers level (m :: ms) = newline level ++ (quoted m.1 ++ more) := by
  obtain ⟨k, v⟩ := m
  cases ms with
  | nil => exact ⟨_, by rw [prettyMembers, List.append_assoc]⟩
  | cons w ws => exact ⟨_, by rw [prettyMembers, List.append_assoc, List.append_assoc]⟩

mutual

/-- **An indented value reads back**, wherever a value is due and whatever is
open around it, once a character that ends it follows. -/
theorem run_pretty (v : Value) (hv : v.exact) (level : Nat) (fs : List Frame) {c : Char}
    (hc : Ends c) (rest : List Char) :
    run ⟨.value, fs⟩ (v.pretty level ++ c :: rest) = run (complete v fs) (c :: rest) := by
  match v, hv with
  | .null, hv => exact run_compact .null hv fs hc rest
  | .bool b, hv => exact run_compact (.bool b) hv fs hc rest
  | .int n, hv => exact run_compact (.int n) hv fs hc rest
  | .str s, hv => exact run_compact (.str s) hv fs hc rest
  | .arr [], _ => rfl
  | .arr (v :: vs), hv =>
      have hstart : run ⟨.value, fs⟩ ((Value.arr (v :: vs)).pretty level ++ c :: rest)
          = run ⟨.arrStart, .arr [] :: fs⟩
              (prettyItems (level + 1) (v :: vs) ++ (newline level ++ ']' :: c :: rest)) := by
        simp only [Value.pretty, List.cons_append, List.append_assoc]
        rfl
      have hfirst : run ⟨.arrStart, .arr [] :: fs⟩
            (prettyItems (level + 1) (v :: vs) ++ (newline level ++ ']' :: c :: rest))
          = run ⟨.value, .arr [] :: fs⟩
            (prettyItems (level + 1) (v :: vs) ++ (newline level ++ ']' :: c :: rest)) := by
        obtain ⟨more, hmore⟩ := prettyItems_cons (level + 1) v vs
        rw [hmore, List.append_assoc, run_newline rfl, run_newline rfl, List.append_assoc]
        exact run_prettyStart v hv.1 (level + 1) _ _
      rw [hstart, hfirst]
      exact run_prettyItems (v :: vs) (by simp) hv (level + 1) level [] fs (c :: rest)
  | .obj [], _ => rfl
  | .obj (m :: ms), hv =>
      have hstart : run ⟨.value, fs⟩ ((Value.obj (m :: ms)).pretty level ++ c :: rest)
          = run ⟨.objStart, .obj [] "" :: fs⟩
              (prettyMembers (level + 1) (m :: ms) ++ (newline level ++ '\x7d' :: c :: rest)) := by
        simp only [Value.pretty, List.cons_append, List.append_assoc]
        rfl
      have hfirst : run ⟨.objStart, .obj [] "" :: fs⟩
            (prettyMembers (level + 1) (m :: ms) ++ (newline level ++ '\x7d' :: c :: rest))
          = run ⟨.key, .obj [] "" :: fs⟩
            (prettyMembers (level + 1) (m :: ms) ++ (newline level ++ '\x7d' :: c :: rest)) := by
        obtain ⟨more, hmore⟩ := prettyMembers_cons (level + 1) m ms
        rw [hmore, List.append_assoc, run_newline rfl, run_newline rfl]
        rfl
      rw [hstart, hfirst]
      exact run_prettyMembers (m :: ms) (by simp) hv (level + 1) level [] "" fs (c :: rest)

/-- The items of an array, read where the first of them is due. -/
theorem run_prettyItems (items : List Value) (hne : items ≠ []) (hv : exactItems items)
    (level close : Nat) (acc : List Value) (fs : List Frame) (rest : List Char) :
    run ⟨.value, .arr acc :: fs⟩ (prettyItems level items ++ (newline close ++ ']' :: rest))
      = run (complete (.arr (acc ++ items)) fs) rest := by
  match items, hv with
  | [], _ => exact absurd rfl hne
  | [v], hv =>
      have hclose : run (complete v (.arr acc :: fs)) (newline close ++ ']' :: rest)
          = run (complete (.arr (acc ++ [v])) fs) rest := run_newline rfl close _ _
      rw [prettyItems, List.append_assoc, run_newline rfl, ← hclose]
      exact run_pretty v hv.1 level _ ⟨rfl, rfl⟩ _
  | v :: w :: vs, hv =>
      have hnext : run (complete v (.arr acc :: fs))
            (',' :: (prettyItems level (w :: vs) ++ (newline close ++ ']' :: rest)))
          = run ⟨.value, .arr (acc ++ [v]) :: fs⟩
            (prettyItems level (w :: vs) ++ (newline close ++ ']' :: rest)) := rfl
      rw [prettyItems, List.append_assoc, List.append_assoc, run_newline rfl, List.cons_append,
        run_pretty v hv.1 level _ ⟨rfl, rfl⟩, hnext,
        run_prettyItems (w :: vs) (by simp) hv.2 level close (acc ++ [v]) fs rest,
        List.append_assoc]
      rfl

/-- The members of an object, read where the first key is due. -/
theorem run_prettyMembers (members : List (String × Value)) (hne : members ≠ [])
    (hv : exactMembers members) (level close : Nat) (acc : List (String × Value)) (k : String)
    (fs : List Frame) (rest : List Char) :
    run ⟨.key, .obj acc k :: fs⟩ (prettyMembers level members ++ (newline close ++ '\x7d' :: rest))
      = run (complete (.obj (acc ++ members)) fs) rest := by
  have hspace : ∀ (key : String) (cs : List Char),
      run ⟨.value, .obj acc key :: fs⟩ (' ' :: cs) = run ⟨.value, .obj acc key :: fs⟩ cs :=
    fun _ _ => rfl
  match members, hv with
  | [], _ => exact absurd rfl hne
  | [(key, v)], hv =>
      have hclose : run (complete v (.obj acc key :: fs)) (newline close ++ '\x7d' :: rest)
          = run (complete (.obj (acc ++ [(key, v)])) fs) rest := run_newline rfl close _ _
      rw [prettyMembers, List.append_assoc, List.append_assoc, run_newline rfl, List.cons_append,
        List.cons_append, run_keyColon, hspace, ← hclose]
      exact run_pretty v hv.1 level _ ⟨rfl, rfl⟩ _
  | (key, v) :: m :: ms, hv =>
      have hnext : run (complete v (.obj acc key :: fs))
            (',' :: (prettyMembers level (m :: ms) ++ (newline close ++ '\x7d' :: rest)))
          = run ⟨.key, .obj (acc ++ [(key, v)]) key :: fs⟩
            (prettyMembers level (m :: ms) ++ (newline close ++ '\x7d' :: rest)) := rfl
      have hassoc : prettyMembers level ((key, v) :: m :: ms) ++ (newline close ++ '\x7d' :: rest)
          = newline level ++ (quoted key ++ ':' :: ' ' :: (v.pretty level ++ ',' ::
              (prettyMembers level (m :: ms) ++ (newline close ++ '\x7d' :: rest)))) := by
        simp only [prettyMembers, List.append_assoc, List.cons_append]
      rw [hassoc, run_newline rfl, run_keyColon, hspace,
        run_pretty v hv.1 level _ ⟨rfl, rfl⟩, hnext,
        run_prettyMembers (m :: ms) (by simp) hv.2 level close (acc ++ [(key, v)]) key fs rest,
        List.append_assoc]
      rfl

end

/-- **Round trip**: an indented document and a line break parse back to the
document. -/
theorem parse_pretty (v : Value) (hv : v.exact) {c : Char} (hc : Ends c) (hws : isWs c) :
    parse (v.pretty 0 ++ [c]) = some v := by
  have hstep : step ⟨.done v, []⟩ c = some ⟨.done v, []⟩ := step_ws rfl hws
  rw [parse, run_pretty v hv 0 [] hc [], complete, run_cons, hstep]
  rfl

/-! ### Documents that are cut short -/

/-- The reader is done with an indented document at the line break. -/
theorem run_pretty_feed (v : Value) (hv : v.exact) :
    run ⟨.value, []⟩ (v.pretty 0 ++ ['\n']) = some ⟨.done v, []⟩ := by
  rw [run_pretty v hv 0 [] ⟨rfl, rfl⟩ [], complete, run_cons, step_ws rfl rfl]
  rfl

theorem run_compact_feed (v : Value) (hv : v.exact) :
    run ⟨.value, []⟩ (v.compact ++ ['\n']) = some ⟨.done v, []⟩ := by
  rw [run_compact v hv [] ⟨rfl, rfl⟩ [], complete, run_cons, step_ws rfl rfl]
  rfl

/-- **Cuts.**  A text starts with the line of a document, and is cut anywhere.
What is read from it is the document: before its last bracket nothing is read,
and after it nothing else. -/
theorem parse_cut {v w : Value} (hd : v.isDocument) {text rest cs : List Char}
    (hread : run ⟨.value, []⟩ (text ++ ['\n']) = some ⟨.done v, []⟩)
    (hcut : cs <+: text ++ ['\n'] ++ rest) (hw : parse cs = some w) : w = v := by
  obtain ⟨st, hst, hfinish⟩ := Option.bind_eq_some_iff.mp hw
  rcases List.prefix_or_prefix_of_prefix hcut (List.prefix_append _ _) with hshort | hlong
  · -- the rest of the line completes the document
    obtain ⟨ds, hds⟩ := hshort
    rw [← hds, run_append, hst, Option.bind_some] at hread
    rcases st with ⟨mode, - | ⟨f, fs⟩⟩
    · cases mode with
      | done u =>
          obtain rfl := Option.some.inj hfinish
          cases (run_done hread).1
          rfl
      | num lexeme phase =>
          rw [run_num_done hread] at hd
          cases hd
      | _ => cases hfinish
    · cases mode <;> cases hfinish
  · obtain ⟨more, rfl⟩ := hlong
    rw [run_append, hread, Option.bind_some] at hst
    rw [(run_done hst).1] at hfinish
    exact (Option.some.inj hfinish).symm

/-! ### How long an indented document is -/

/-- The bytes of a string literal. -/
def literalSize (s : String) : Nat := (encode (quoted s)).length

mutual

/-- The bytes of the indented rendering. -/
def Value.size (level : Nat) : Value → Nat
  | .null => 4
  | .bool true => 4
  | .bool false => 5
  | .int n => (intLit n).length
  | .float lexeme => (encode lexeme).length
  | .str s => literalSize s
  | .arr [] => 2
  | .arr (v :: vs) => 2 + 2 * level + itemsSize (level + 1) (v :: vs)
  | .obj [] => 2
  | .obj (m :: ms) => 2 + 2 * level + membersSize (level + 1) (m :: ms)

/-- An item with its line break and indentation, and what parts it from the
next. -/
def itemsSize (level : Nat) : List Value → Nat
  | [] => 0
  | v :: vs => 2 + 2 * level + v.size level + itemsSize level vs

/-- A member likewise, with its key, the colon and a space. -/
def membersSize (level : Nat) : List (String × Value) → Nat
  | [] => 0
  | (k, v) :: ms => 4 + 2 * level + literalSize k + v.size level + membersSize level ms

end

theorem length_encode_newline (level : Nat) : (encode (newline level)).length = 1 + 2 * level := by
  have hascii : ∀ c ∈ newline level, c.toNat < 0x80 := by
    intro c hc
    rcases List.mem_cons.mp hc with rfl | hc
    · decide
    · rw [List.eq_of_mem_replicate hc]
      decide
  rw [length_encode_ascii hascii, newline, List.length_cons, List.length_replicate, Nat.add_comm]

mutual

/-- **Size.**  The indented rendering takes exactly so many bytes. -/
theorem length_encode_pretty (v : Value) (level : Nat) :
    (encode (v.pretty level)).length = v.size level := by
  match v with
  | .null => rfl
  | .bool true => rfl
  | .bool false => rfl
  | .int n => exact length_encode_intLit n
  | .float lexeme => rfl
  | .str s => rfl
  | .arr [] => rfl
  | .obj [] => rfl
  | .arr (v :: vs) =>
      have hitems := length_encode_prettyItems (v :: vs) (by simp) (level + 1)
      have hopen : (encode ['[']).length = 1 := rfl
      have hclose : (encode [']']).length = 1 := rfl
      have hsplit : encode ((Value.arr (v :: vs)).pretty level) = encode ['['] ++
          (encode (prettyItems (level + 1) (v :: vs)) ++ (encode (newline level) ++
            encode [']'])) := by
        simp only [Value.pretty, ← encode_append, List.cons_append, List.nil_append,
          List.append_assoc]
      rw [hsplit, List.length_append, List.length_append, List.length_append, hopen, hclose,
        length_encode_newline, Value.size]
      omega
  | .obj (m :: ms) =>
      have hmembers := length_encode_prettyMembers (m :: ms) (by simp) (level + 1)
      have hopen : (encode ['\x7b']).length = 1 := rfl
      have hclose : (encode ['\x7d']).length = 1 := rfl
      have hsplit : encode ((Value.obj (m :: ms)).pretty level) = encode ['\x7b'] ++
          (encode (prettyMembers (level + 1) (m :: ms)) ++ (encode (newline level) ++
            encode ['\x7d'])) := by
        simp only [Value.pretty, ← encode_append, List.cons_append, List.nil_append,
          List.append_assoc]
      rw [hsplit, List.length_append, List.length_append, List.length_append, hopen, hclose,
        length_encode_newline, Value.size]
      omega

/-- The last item has no comma. -/
theorem length_encode_prettyItems (items : List Value) (hne : items ≠ []) (level : Nat) :
    (encode (prettyItems level items)).length + 1 = itemsSize level items := by
  match items with
  | [] => exact absurd rfl hne
  | [v] =>
      have hv := length_encode_pretty v level
      rw [prettyItems, encode_append, List.length_append, length_encode_newline, itemsSize,
        itemsSize]
      omega
  | v :: w :: vs =>
      have hv := length_encode_pretty v level
      have hrest := length_encode_prettyItems (w :: vs) (by simp) level
      have hcomma : (encode [',']).length = 1 := rfl
      have hsplit : encode (prettyItems level (v :: w :: vs)) = encode (newline level) ++
          (encode (v.pretty level) ++ (encode [','] ++ encode (prettyItems level (w :: vs)))) := by
        simp only [prettyItems, ← encode_append, List.cons_append, List.nil_append,
          List.append_assoc]
      rw [hsplit, List.length_append, List.length_append, List.length_append, hcomma,
        length_encode_newline, itemsSize]
      omega

theorem length_encode_prettyMembers (members : List (String × Value)) (hne : members ≠ [])
    (level : Nat) :
    (encode (prettyMembers level members)).length + 1 = membersSize level members := by
  have hcolon : (encode [':', ' ']).length = 2 := rfl
  match members with
  | [] => exact absurd rfl hne
  | [(k, v)] =>
      have hv := length_encode_pretty v level
      have hk : (encode (quoted k)).length = literalSize k := rfl
      have hsplit : encode (prettyMembers level [(k, v)]) = encode (newline level) ++
          (encode (quoted k) ++ (encode [':', ' '] ++ encode (v.pretty level))) := by
        simp only [prettyMembers, ← encode_append, List.cons_append, List.nil_append,
          List.append_assoc]
      rw [hsplit, List.length_append, List.length_append, List.length_append, hcolon,
        length_encode_newline, membersSize, membersSize]
      omega
  | (k, v) :: m :: ms =>
      have hv := length_encode_pretty v level
      have hk : (encode (quoted k)).length = literalSize k := rfl
      have hrest := length_encode_prettyMembers (m :: ms) (by simp) level
      have hcomma : (encode [',']).length = 1 := rfl
      have hsplit : encode (prettyMembers level ((k, v) :: m :: ms)) = encode (newline level) ++
          (encode (quoted k) ++ (encode [':', ' '] ++ (encode (v.pretty level) ++
            (encode [','] ++ encode (prettyMembers level (m :: ms)))))) := by
        simp only [prettyMembers, ← encode_append, List.cons_append, List.nil_append,
          List.append_assoc]
      rw [hsplit, List.length_append, List.length_append, List.length_append, List.length_append,
        List.length_append, hcolon, hcomma, length_encode_newline, membersSize]
      omega

end

end Json

/-! ### The size of a structure -/

open Json Utf8

/-- What the lines of named members take besides the values. -/
def Json.frameSize (level : Nat) (names : List String) : Nat :=
  (names.map fun name => 4 + 2 * level + literalSize name).sum

theorem Json.membersSize_zip (level : Nat) (names : List String) (vs : List Value)
    (hlen : vs.length = names.length) :
    membersSize level (names.zip vs) =
      frameSize level names + (vs.map (Value.size level)).sum := by
  induction names generalizing vs with
  | nil => rw [List.eq_nil_of_length_eq_zero hlen]; rfl
  | cons name names ih =>
      cases vs with
      | nil => cases hlen
      | cons v vs =>
          have hrest := ih vs (Nat.succ.inj hlen)
          simp only [List.zip_cons_cons, membersSize, hrest, frameSize, List.map_cons,
            List.sum_cons]
          omega

/-- **Size.**  A structure with a field takes two braces, a line for each field
and the values. -/
theorem Codec.size_struct {α β : Type} {strict : Bool} {fs : Fields β}
    {distinct : fs.names.Nodup} {pack : α → β} {unpack : β → α}
    {unpack_pack : ∀ a, unpack (pack a) = a} (hne : fs.names ≠ []) (level : Nat) (a : α) :
    ((Codec.struct strict fs distinct pack unpack unpack_pack).ser a).size level =
      2 + 2 * level + (frameSize (level + 1) fs.names +
        ((fs.ser (pack a)).map (Value.size (level + 1))).sum) := by
  have hlen := fs.length_ser (pack a)
  rw [← membersSize_zip _ _ _ hlen]
  show Value.size level (.obj (fs.names.zip (fs.ser (pack a)))) = _
  rcases hn : fs.names with - | ⟨name, names⟩
  · exact absurd hn hne
  rcases hv : fs.ser (pack a) with - | ⟨v, vs⟩
  · rw [hn, hv] at hlen
    cases hlen
  · rfl

/-! ### The size of a compact structure -/

/-- The bytes of the compact rendering. -/
def Json.Value.compactSize (v : Value) : Nat := (encode v.compact).length

/-- What named members take besides the values: the key, the colon and a comma. -/
def Json.compactFrame (names : List String) : Nat :=
  (names.map fun name => 2 + literalSize name).sum

theorem Json.length_compactMembers_zip (names : List String) (hne : names ≠ []) (vs : List Value)
    (hlen : vs.length = names.length) :
    (encode (compactMembers (names.zip vs))).length + 1 =
      compactFrame names + (vs.map Value.compactSize).sum := by
  have hcolon : (encode [':']).length = 1 := rfl
  have hcomma : (encode [',']).length = 1 := rfl
  induction names generalizing vs with
  | nil => exact absurd rfl hne
  | cons name names ih =>
      rcases vs with - | ⟨v, vs⟩
      · cases hlen
      have hkey : (encode (quoted name)).length = literalSize name := rfl
      have hvalue : (encode v.compact).length = v.compactSize := rfl
      rcases names with - | ⟨next, names⟩
      · obtain rfl := List.eq_nil_of_length_eq_zero (Nat.succ.inj hlen)
        have hsplit : encode (compactMembers [(name, v)]) =
            encode (quoted name) ++ (encode [':'] ++ encode v.compact) := by
          simp only [compactMembers, ← encode_append, List.cons_append, List.nil_append]
        have hframe : compactFrame [name] = 2 + literalSize name := by simp [compactFrame]
        show (encode (compactMembers [(name, v)])).length + 1 = _
        rw [hsplit, List.length_append, List.length_append, hcolon, hframe, List.map_singleton,
          List.sum_singleton]
        omega
      · rcases vs with - | ⟨w, vs⟩
        · cases hlen
        have hrest := ih (by simp) (w :: vs) (Nat.succ.inj hlen)
        have hsplit : encode (compactMembers ((name, v) :: (next, w) :: names.zip vs)) =
            encode (quoted name) ++ (encode [':'] ++ (encode v.compact ++ (encode [','] ++
              encode (compactMembers ((next, w) :: names.zip vs))))) := by
          simp only [compactMembers, ← encode_append, List.cons_append, List.nil_append,
            List.append_assoc]
        have hframe : compactFrame (name :: next :: names) =
            2 + literalSize name + compactFrame (next :: names) := by
          rw [compactFrame, List.map_cons, List.sum_cons]
          rfl
        rw [List.zip_cons_cons] at hrest
        rw [List.zip_cons_cons, List.zip_cons_cons, hsplit, List.length_append,
          List.length_append, List.length_append, List.length_append, hcolon, hcomma, hframe,
          List.map_cons (l := w :: vs), List.sum_cons]
        omega

/-- **Size.**  A structure with a field takes two braces, and a comma less than
it has fields, besides the keys and the values. -/
theorem Codec.compactSize_struct {α β : Type} {strict : Bool} {fs : Fields β}
    {distinct : fs.names.Nodup} {pack : α → β} {unpack : β → α}
    {unpack_pack : ∀ a, unpack (pack a) = a} (hne : fs.names ≠ []) (a : α) :
    ((Codec.struct strict fs distinct pack unpack unpack_pack).ser a).compactSize =
      1 + (compactFrame fs.names + ((fs.ser (pack a)).map Value.compactSize).sum) := by
  have hmembers := length_compactMembers_zip _ hne _ (fs.length_ser (pack a))
  have hbrace : (encode ['\x7b']).length = 1 ∧ (encode ['\x7d']).length = 1 := ⟨rfl, rfl⟩
  have hsplit : encode (Value.obj (fs.names.zip (fs.ser (pack a)))).compact = encode ['\x7b'] ++
      (encode (compactMembers (fs.names.zip (fs.ser (pack a)))) ++ encode ['\x7d']) := by
    simp only [Value.compact, ← encode_append, List.cons_append, List.nil_append]
  show (encode (Value.obj (fs.names.zip (fs.ser (pack a)))).compact).length = _
  rw [hsplit, List.length_append, List.length_append, hbrace.1, hbrace.2]
  omega
