/-
DmlPact/Receipt/Torn.lean

The verifier on a receipt that was cut at an arbitrary byte.  A cut inside a
character is not text, a cut inside an event is not JSON, and an event holds no
line break, so of the prefixes of

    prepared line ++ terminal line

only those that end with a whole event, with or without its line feed, can be
accepted (`cut_of_ok`).
-/
import DmlPact.Receipt.Written

namespace DmlPact

open Effect Utf8 Json

variable (X : Crates)

/-! ### Cuts of one event -/

/-- What reads back from a cut of an event is the event, and the cut is whole. -/
theorem decodeEvent_cut {e e' : ReceiptEvent} {cs : List Char} (hcut : cs <+: e.text)
    (hd : decodeEvent cs = .ok e') : cs = e.text := by
  obtain ⟨ds, hds⟩ := hcut
  rcases eq_or_ne ds [] with rfl | hne
  · rw [← hds, List.append_nil]
  · have hnone := parse_prefix _ (ReceiptEvent.codec.exact_ser e) e.isDocument hds hne
    rw [decodeEvent, hnone] at hd
    cases hd

theorem feed_not_mem_cut {e : ReceiptEvent} {cs : List Char} (hcut : cs <+: e.text) :
    '\n' ∉ cs := fun h => e.feed_not_mem_text (hcut.subset h)

/-- A prefix of a line is the line, or a prefix of it without its line feed. -/
theorem prefix_line {cs text : List Char} (h : cs <+: text ++ ['\n']) :
    cs = text ++ ['\n'] ∨ cs <+: text := by
  have hlen := h.length_le
  rw [List.length_append, List.length_singleton] at hlen
  rcases Nat.lt_or_ge text.length cs.length with hlt | hge
  · refine .inl (h.eq_of_length ?_)
    rw [List.length_append, List.length_singleton]
    omega
  · exact .inr (List.prefix_of_prefix_length_le h (List.prefix_append _ _) hge)

/-! ### What is accepted -/

/-- An accepted file is text within the limit, of one or two lines that are
events and are accepted. -/
theorem verifyReceiptBytes_ok {bytes : Bytes} {v : ReceiptVerification}
    (h : verifyReceiptBytes X bytes = .ok v) :
    ∃ content events, decode bytes = some content ∧ bytes.length ≤ maxReceiptBytes ∧
      1 ≤ (Str.lines content).length ∧ (Str.lines content).mapM decodeEvent = .ok events ∧
      verifyEvents X events = .ok v := by
  unfold verifyReceiptBytes at h
  rcases hd : decode bytes with - | content
  · rw [hd] at h
    cases h
  rw [hd] at h
  dsimp only at h
  split_ifs at h with hsize hcount
  have hlines : 1 ≤ (Str.lines content).length := by
    by_contra hnone
    exact hcount (by simp [hnone])
  rcases hevents : (Str.lines content).mapM decodeEvent with e | events
  · rw [hevents] at h
    cases h
  · rw [hevents] at h
    exact ⟨content, events, rfl, Nat.not_lt.mp hsize, hlines, hevents, h⟩

theorem mapM_decodeEvent_cons {line : List Char} {lines : List (List Char)}
    {events : List ReceiptEvent} (h : (line :: lines).mapM decodeEvent = .ok events) :
    ∃ event rest, decodeEvent line = .ok event ∧ lines.mapM decodeEvent = .ok rest := by
  rw [List.mapM_cons] at h
  rcases hline : decodeEvent line with e | event
  · rw [hline] at h
    cases h
  rcases hrest : lines.mapM decodeEvent with e | rest
  · rw [hline, hrest] at h
    cases h
  · exact ⟨event, rest, rfl, rfl⟩

/-- An accepted cut of the prepared line holds the whole prepared event. -/
theorem prepared_of_ok {p : ReceiptEvent} {bytes : Bytes} {v : ReceiptVerification}
    (hcut : bytes <+: eventLine p) (h : verifyReceiptBytes X bytes = .ok v) :
    bytes = encode p.text ∨ bytes = eventLine p := by
  obtain ⟨content, events, hd, -, hcount, hevents, -⟩ := verifyReceiptBytes_ok X h
  rw [ReceiptEvent.eventLine_eq] at hcut
  have hbytes := encode_of_decode hd
  rcases prefix_line (prefix_of_decode hcut hd) with rfl | hle
  · exact .inr (hbytes.symm.trans p.eventLine_eq.symm)
  have hne : content ≠ [] := by
    rintro rfl
    exact absurd hcount (by simp)
  rw [Str.lines_single (feed_not_mem_cut hle) hne] at hevents
  obtain ⟨event, -, hevent, -⟩ := mapM_decodeEvent_cons hevents
  rw [decodeEvent_cut hle hevent] at hbytes
  exact .inl hbytes.symm

/-- An accepted cut of the terminal line holds the whole terminal event. -/
theorem terminal_of_ok {p e : ReceiptEvent} {tail : Bytes} {v : ReceiptVerification}
    (hcut : tail <+: eventLine e) (hne : tail ≠ [])
    (h : verifyReceiptBytes X (eventLine p ++ tail) = .ok v) :
    tail = encode e.text ∨ tail = eventLine e := by
  obtain ⟨content, events, hd, -, hcount, hevents, -⟩ := verifyReceiptBytes_ok X h
  have hwhole : eventLine p ++ eventLine e =
      encode (p.text ++ '\n' :: (e.text ++ ['\n'])) := by
    rw [p.eventLine_eq, e.eventLine_eq, ← encode_append, List.append_assoc]
    rfl
  have hle : content <+: (p.text ++ ['\n']) ++ (e.text ++ ['\n']) := by
    have hbytes := (List.prefix_append_right_inj (eventLine p)).mpr hcut
    rw [hwhole] at hbytes
    simpa using prefix_of_decode hbytes hd
  -- the cut is behind the first line
  obtain ⟨rest, rfl⟩ : p.text ++ ['\n'] <+: content := by
    rcases List.prefix_or_prefix_of_prefix hle (List.prefix_append _ _) with hshort | hlong
    · obtain ⟨missing, hmissing⟩ := hshort
      have hlength := congrArg (fun cs => (encode cs).length) hmissing
      have hbytes := congrArg List.length (encode_of_decode hd)
      simp only [encode_append, List.length_append, p.eventLine_eq] at hlength hbytes
      have hpos := List.length_pos_of_ne_nil hne
      omega
    · exact hlong
  have hrest : encode rest = tail := by
    have hbytes := encode_of_decode hd
    rw [encode_append, ← p.eventLine_eq] at hbytes
    exact List.append_cancel_left hbytes
  rw [List.append_assoc, List.singleton_append, Str.lines_feed p.feed_not_mem_text] at hevents
  obtain ⟨-, events', -, hevents'⟩ := mapM_decodeEvent_cons hevents
  rcases prefix_line ((List.prefix_append_right_inj _).mp hle) with rfl | hshort
  · exact .inr (hrest.symm.trans e.eventLine_eq.symm)
  have hrestne : rest ≠ [] := by
    rintro rfl
    exact hne hrest.symm
  rw [Str.lines_single (feed_not_mem_cut hshort) hrestne] at hevents'
  obtain ⟨event, -, hevent, -⟩ := mapM_decodeEvent_cons hevents'
  rw [decodeEvent_cut hshort hevent] at hrest
  exact .inl hrest.symm

/-! ### Cuts of a receipt -/

/-- The prepared event of a run: sealed, and about two hashes. -/
def IsPrepared (prepared : ReceiptEvent) : Prop :=
  ∃ planBytes sqlBytes t, prepared =
    sealedWith X (preparedEvent X (sha256Bytes X planBytes) (sha256Bytes X sqlBytes) t)

/-- A terminal event that continues `prepared`. -/
def IsTerminal (prepared terminal : ReceiptEvent) : Prop :=
  ∃ t state result, state.isFinal ∧
    terminal = sealedWith X (terminalEvent prepared t state result)

variable {X}

theorem IsPrepared.supported {prepared : ReceiptEvent} (hp : IsPrepared X prepared) :
    isSupportedArtifactToolVersion prepared.toolVersion := by
  obtain ⟨_, _, t, rfl⟩ := hp
  exact (by decide : isSupportedArtifactToolVersion toolVersion = true)

/-- The whole prepared event, with or without its line feed, is accepted. -/
theorem IsPrepared.accepted (hdigest : ∀ bytes, (X.digest bytes).length = 32)
    {prepared : ReceiptEvent} (hp : IsPrepared X prepared) {bytes : Bytes}
    (hbytes : bytes = encode prepared.text ∨ bytes = eventLine prepared) :
    bytes.length ≤ maxReceiptBytes ∧
      verifyReceiptBytes X bytes = .ok (preparedReport prepared) := by
  obtain ⟨planBytes, sqlBytes, t, hprepared⟩ := hp
  have hline : (eventLine prepared).length ≤ 4000 := by
    rw [hprepared]
    exact length_preparedLine_le X hdigest (length_sha256Bytes X (hdigest _))
      (length_sha256Bytes X (hdigest _)) t
  have hcut : (encode prepared.text).length ≤ (eventLine prepared).length := by
    rw [prepared.eventLine_eq, encode_append, List.length_append]
    exact Nat.le_add_right _ _
  have hmax : 4000 ≤ maxReceiptBytes := by decide
  have hsmall : bytes.length ≤ maxReceiptBytes := by
    rcases hbytes with rfl | rfl
    · exact hcut.trans (hline.trans hmax)
    · exact hline.trans hmax
  -- with or without its line feed, the line is one line
  have hjudged : verifyReceiptBytes X bytes =
      if maxReceiptBytes < bytes.length then .error receiptFileInvalid
      else verifyEvents X [prepared] := by
    rcases hbytes with rfl | rfl
    · exact verifyReceiptBytes_of_lines X (decode_encode _) prepared.lines_prepared_cut
        ⟨by simp, by simp⟩
    · rw [prepared.eventLine_eq]
      exact verifyReceiptBytes_of_lines X (decode_encode _) prepared.lines_prepared
        ⟨by simp, by simp⟩
  refine ⟨hsmall, ?_⟩
  rw [hjudged, if_neg (Nat.not_lt.mpr hsmall), hprepared]
  exact verifyEvents_prepared X _ _ t

/-- The whole terminal event, if it is accepted, is reported as it is. -/
theorem IsTerminal.reported {prepared terminal : ReceiptEvent} (hp : IsPrepared X prepared)
    (ht : IsTerminal X prepared terminal) {tail : Bytes}
    (htail : tail = encode terminal.text ∨ tail = eventLine terminal) {v : ReceiptVerification}
    (h : verifyReceiptBytes X (eventLine prepared ++ tail) = .ok v) :
    v = completeReport prepared terminal := by
  obtain ⟨planBytes, sqlBytes, t, hprepared⟩ := hp
  obtain ⟨t', state, result, hfinal, hterminal⟩ := ht
  have hjudged : verifyReceiptBytes X (eventLine prepared ++ tail) =
      if maxReceiptBytes < (eventLine prepared ++ tail).length then .error receiptFileInvalid
      else verifyEvents X [prepared, terminal] := by
    rcases htail with rfl | rfl
    · refine verifyReceiptBytes_of_lines X ?_ (prepared.lines_terminal_cut terminal)
        ⟨by simp, by simp⟩
      rw [prepared.eventLine_eq, ← encode_append, decode_encode, List.append_assoc]
      rfl
    · refine verifyReceiptBytes_of_lines X ?_ (prepared.lines_terminal terminal)
        ⟨by simp, by simp⟩
      rw [prepared.eventLine_eq, terminal.eventLine_eq, ← encode_append, decode_encode,
        List.append_assoc]
      rfl
  rw [hjudged, verifyEvents_terminal X _ _ t t' hfinal result prepared terminal hprepared
    hterminal] at h
  split_ifs at h
  exact (Except.ok.inj h).symm

variable (X)

/-- What has been written of a receipt: all of the first line and part of the
second, or part of the first. -/
theorem prefix_receipt {line bytes : Bytes} {rest : Bytes} (h : bytes <+: line ++ rest) :
    bytes <+: line ∨ ∃ tail, tail ≠ [] ∧ tail <+: rest ∧ bytes = line ++ tail := by
  rcases List.prefix_or_prefix_of_prefix h (List.prefix_append line rest) with hshort | hlong
  · exact .inl hshort
  obtain ⟨tail, rfl⟩ := hlong
  rcases eq_or_ne tail [] with rfl | hne
  · exact .inl (by rw [List.append_nil])
  · exact .inr ⟨tail, hne, (List.prefix_append_right_inj line).mp h, rfl⟩

/-- **Cuts.**  An accepted cut of a receipt ends with the prepared event, and
is reported as incomplete, or holds the whole terminal event, and is reported
as that. -/
theorem cut_of_ok {prepared : ReceiptEvent} {terminal : Option ReceiptEvent} {bytes : Bytes}
    {v : ReceiptVerification} (hdigest : ∀ bytes, (X.digest bytes).length = 32)
    (hp : IsPrepared X prepared) (ht : ∀ e ∈ terminal, IsTerminal X prepared e)
    (hcut : bytes <+: eventLine prepared ++ terminal.elim [] eventLine)
    (h : verifyReceiptBytes X bytes = .ok v) :
    ((bytes = encode prepared.text ∨ bytes = eventLine prepared) ∧
        v = preparedReport prepared) ∨
      ∃ e, terminal = some e ∧ eventLine prepared ++ encode e.text <+: bytes ∧
        v = completeReport prepared e := by
  rcases prefix_receipt hcut with hfirst | ⟨tail, hne, hrest, rfl⟩
  · have hbytes := prepared_of_ok X hfirst h
    have haccepted := (hp.accepted hdigest hbytes).2
    rw [h] at haccepted
    exact .inl ⟨hbytes, Except.ok.inj haccepted⟩
  · rcases terminal with - | e
    · exact absurd (List.prefix_nil.mp hrest) hne
    have htail := terminal_of_ok X hrest hne h
    refine .inr ⟨e, rfl, (List.prefix_append_right_inj _).mpr ?_,
      (ht e rfl).reported hp htail h⟩
    rcases htail with rfl | rfl
    · exact List.prefix_rfl
    · rw [e.eventLine_eq, encode_append]
      exact List.prefix_append _ _

end DmlPact
