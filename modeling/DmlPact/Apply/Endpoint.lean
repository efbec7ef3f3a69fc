/-
DmlPact/Apply/Endpoint.lean

What the endpoint hash tells about the endpoint.  The hosts, addresses, ports,
user and database of a configuration are written one after the other, each on
lines of its own, and the text is hashed:

    hosts=tcp:a
    unix:/run
    addresses=10.0.0.1
    ports=5432
    user=app
    database=app

Addresses and ports cannot hold a line feed, so they are read back; a host
name, a path, a user or a database name can, and then the text may be cut in
another place.  `endpointIdentity_eq_iff` lists the ways: the same host lines
belong to other hosts, or a boundary between two parts slides into one of them
(`Config.Slides`).  The hash is exact for the other pairs, and for no more
(`endpointSha256_exact`).
-/
import DmlPact.Apply.Answers
import DmlPact.Lib.Separated

namespace DmlPact

open Separated

/-- The configurations name one endpoint; the password is no part of it. -/
structure Config.SameEndpoint (c c' : Config) : Prop where
  hosts : c.hosts = c'.hosts
  hostaddrs : c.hostaddrs = c'.hostaddrs
  ports : c.ports = c'.ports
  user : c.user = c'.user
  dbname : c.dbname = c'.dbname

/-! ### The parts of the text -/

def addressMark : List Char := "addresses=".toList

def portMark : List Char := "ports=".toList

def userMark : List Char := "user=".toList

def databaseMark : List Char := "database=".toList

namespace Config

variable (c : Config)

/-- Each host on a line, where its name or path has one line. -/
def hostText : List Char := ['\n'].intercalate (c.hosts.map fun host => host.label.toList)

def addressTexts : List (List Char) := c.hostaddrs.map Net.IpAddr.text

def portTexts : List (List Char) := c.ports.map fun port => Nat.toDigits 10 port.toNat

def userText : List Char := (c.user.getD "").toList

def databaseText : List Char := (c.dbname.getD "").toList

/-- The addresses and ports, from behind the hosts up to the user. -/
def middle : List Char :=
  '\n' :: (addressMark ++ ['\n'].intercalate c.addressTexts ++
    '\n' :: (portMark ++ [','].intercalate c.portTexts ++ '\n' :: userMark))

/-- The user and the database. -/
def tail : List Char := c.userText ++ '\n' :: (databaseMark ++ c.databaseText)

/-- The lines of the hosts, in order. -/
def hostLines : List (List Char) := c.hosts.flatMap fun host => host.label.toList.splitOn '\n'

end Config

variable {c c' : Config}

theorem toList_join (sep : String) (ss : List String) :
    (Str.join sep ss).toList = sep.toList.intercalate (ss.map String.toList) :=
  String.toList_intercalate

/-- Ten texts one after the other, in groups. -/
theorem toList_parts (a b c d e f g h i j : String) :
    (a ++ b ++ c ++ d ++ e ++ f ++ g ++ h ++ i ++ j).toList =
      a.toList ++ (b.toList ++ ((c.toList ++ d.toList ++ e.toList ++ f.toList ++ g.toList) ++
        (h.toList ++ i.toList ++ j.toList))) := by
  simp only [String.toList_append, List.append_assoc]

/-- The text of the identity, part by part. -/
theorem toList_endpointIdentity (c : Config) :
    (endpointIdentity c).toList = "hosts=".toList ++ (c.hostText ++ (c.middle ++ c.tail)) := by
  have hhosts : (Str.join "\n" (c.hosts.map Host.label)).toList = c.hostText := by
    rw [toList_join, List.map_map]
    rfl
  have haddresses : (Str.join "\n" (c.hostaddrs.map fun address =>
      String.ofList address.text)).toList = ['\n'].intercalate c.addressTexts := by
    rw [toList_join, List.map_map]
    have htext : (String.toList ∘ fun address : Net.IpAddr => String.ofList address.text) =
        Net.IpAddr.text := by
      funext address
      exact String.toList_ofList
    rw [htext]
    rfl
  have hports : (Str.join "," (c.ports.map fun port => toString port.toNat)).toList =
      [','].intercalate c.portTexts := by
    rw [toList_join, List.map_map]
    have htext : (String.toList ∘ fun port : UInt16 => toString port.toNat) =
        fun port => Nat.toDigits 10 port.toNat := by
      funext port
      exact Nat.toList_repr
    rw [htext]
    rfl
  have hmiddle : c.middle = "\naddresses=".toList ++ ['\n'].intercalate c.addressTexts ++
      "\nports=".toList ++ [','].intercalate c.portTexts ++ "\nuser=".toList := by
    show '\n' :: (addressMark ++ _ ++ '\n' :: (portMark ++ _ ++ '\n' :: userMark)) =
      '\n' :: addressMark ++ _ ++ '\n' :: portMark ++ _ ++ '\n' :: userMark
    simp only [List.cons_append, List.append_assoc]
  have htail : c.tail = (c.user.getD "").toList ++ "\ndatabase=".toList ++
      (c.dbname.getD "").toList := by
    show _ ++ '\n' :: (databaseMark ++ _) = _ ++ '\n' :: databaseMark ++ _
    rw [List.append_assoc]
    rfl
  -- the ten pieces of the text, in their groups
  unfold endpointIdentity
  rw [toList_parts, hhosts, haddresses, hports, hmiddle, htail]

/-! ### Where the text can be cut -/

/-- The lines of the middle part, but for the first one. -/
def Config.middleLines (c : Config) : List (List Char) :=
  c.addressTexts.tail ++ [portMark ++ [','].intercalate c.portTexts, userMark]

theorem Config.middle_eq (c : Config) :
    c.middle = behind '\n' ((addressMark ++ c.addressTexts.headD []) :: c.middleLines) := by
  have hlast : '\n' :: (portMark ++ [','].intercalate c.portTexts ++ '\n' :: userMark) =
      behind '\n' [portMark ++ [','].intercalate c.portTexts, userMark] := by
    simp [behind]
  rw [Config.middle, hlast, Config.middleLines]
  cases c.addressTexts with
  | nil => simp [behind]
  | cons text texts =>
      rw [intercalate_cons, List.headD_cons, List.tail_cons,
        behind_cons '\n' (addressMark ++ text), behind_append]
      simp only [List.cons_append, List.append_assoc]

theorem Config.text_of_mem {text : List Char} (h : text ∈ c.addressTexts) :
    ∃ ip : Net.IpAddr, text = ip.text := by
  obtain ⟨ip, -, rfl⟩ := List.mem_map.mp h
  exact ⟨ip, rfl⟩

/-- The digits and commas of the ports. -/
theorem Config.mem_portTexts {d : Char} (h : d ∈ [','].intercalate c.portTexts) :
    d = ',' ∨ d.isDigit = true := by
  rcases mem_intercalate h with hcomma | ⟨text, htext, hd⟩
  · exact .inl hcomma
  · obtain ⟨port, -, rfl⟩ := List.mem_map.mp htext
    exact .inr (Nat.isDigit_of_mem_toDigits (by decide) (by decide) hd)

theorem newline_notMem_text (ip : Net.IpAddr) : '\n' ∉ ip.text := by
  intro h
  exact absurd (Net.IpAddr.mem_text h) (by decide)

theorem newline_notMem_ports (c : Config) :
    '\n' ∉ portMark ++ [','].intercalate c.portTexts := by
  intro h
  rcases List.mem_append.mp h with h | h
  · exact absurd h (by decide)
  · rcases Config.mem_portTexts h with h | h
    · exact absurd h (by decide)
    · exact absurd h (by decide)

/-- No line of an address or of the ports begins like the first line. -/
theorem Config.not_prefix_line {l : List Char}
    (h : l ∈ c.addressTexts.tail ++ [portMark ++ [','].intercalate c.portTexts]) (y : List Char) :
    ¬ addressMark <+: l ++ '\n' :: y := by
  have hnewline : '\n' ∉ addressMark := by decide
  rcases List.mem_append.mp h with h | h
  · obtain ⟨ip, rfl⟩ := Config.text_of_mem (List.mem_of_mem_tail h)
    have hr : 'r' ∉ ip.text := fun hr => absurd (Net.IpAddr.mem_text hr) (by decide)
    exact not_prefix_of_notMem (by decide) hr hnewline
  · rw [List.mem_singleton.mp h]
    have hd : 'd' ∉ portMark ++ [','].intercalate c.portTexts := by
      intro hd
      rcases List.mem_append.mp hd with hd | hd
      · exact absurd hd (by decide)
      · rcases Config.mem_portTexts hd with hd | hd
        · exact absurd hd (by decide)
        · exact absurd hd (by decide)
    exact not_prefix_of_notMem (by decide) hd hnewline

/-- Only the first line of the middle part can begin like it. -/
theorem Config.not_prefix_middleLines {before after : List (List Char)} {l : List Char}
    (h : c.middleLines = before ++ l :: after) (y : List Char) :
    ¬ addressMark <+: l ++ behind '\n' after ++ y := by
  have hsplit : c.middleLines =
      (c.addressTexts.tail ++ [portMark ++ [','].intercalate c.portTexts]) ++ [userMark] := by
    rw [Config.middleLines, List.append_assoc]
    rfl
  rw [hsplit] at h
  cases after with
  | nil =>
      obtain ⟨-, hlast⟩ := List.append_inj' h rfl
      cases hlast
      rintro ⟨rest, hrest⟩
      exact absurd (List.cons.inj hrest).1 (by decide)
  | cons next after =>
      have hmem : l ∈ c.addressTexts.tail ++ [portMark ++ [','].intercalate c.portTexts] := by
        have hdrop := congrArg List.dropLast h
        rw [List.dropLast_concat, List.dropLast_append_of_ne_nil (List.cons_ne_nil _ _)] at hdrop
        rw [hdrop]
        exact List.mem_append_right _ List.mem_cons_self
      rw [behind_cons, List.append_assoc, List.cons_append, List.cons_append]
      exact Config.not_prefix_line hmem _

theorem Config.newline_notMem_middleLines {l : List Char}
    (h : l ∈ (addressMark ++ c.addressTexts.headD []) :: c.middleLines) : '\n' ∉ l := by
  have htext : ∀ text ∈ c.addressTexts, '\n' ∉ text := by
    intro text hmem
    obtain ⟨ip, rfl⟩ := Config.text_of_mem hmem
    exact newline_notMem_text ip
  rcases List.mem_cons.mp h with rfl | h
  · intro hnewline
    rcases List.mem_append.mp hnewline with hnewline | hnewline
    · exact absurd hnewline (by decide)
    · cases htexts : c.addressTexts with
      | nil =>
          rw [htexts] at hnewline
          cases hnewline
      | cons text texts =>
          rw [htexts] at hnewline
          exact htext text (htexts ▸ List.mem_cons_self) hnewline
  · rcases List.mem_append.mp h with h | h
    · exact htext l (List.mem_of_mem_tail h)
    · simp only [List.mem_cons, List.not_mem_nil, or_false] at h
      rcases h with rfl | rfl
      · exact newline_notMem_ports c
      · decide

/-- The middle part of one text inside the other one is at its place, or behind
the middle part there. -/
theorem Config.middle_cut {t : List Char}
    (h : c.middle ++ c.tail = t ++ (c'.middle ++ c'.tail)) :
    t = [] ∨ ∃ w, t = c.middle ++ w ∧ c.tail = w ++ (c'.middle ++ c'.tail) := by
  obtain ⟨rest, hmiddle, hmark⟩ : ∃ rest, c'.middle ++ c'.tail = '\n' :: rest ∧
      addressMark <+: rest := by
    rw [Config.middle, List.cons_append, List.append_assoc, List.append_assoc]
    exact ⟨_, rfl, List.prefix_append _ _⟩
  rw [hmiddle] at h ⊢
  rw [c.middle_eq] at h ⊢
  rcases behind_cut (fun l hl => Config.newline_notMem_middleLines hl) h with
    ⟨before, l, after, hlines, rfl, hrest⟩ | ⟨w, rfl, htail⟩
  · cases before with
    | nil => exact .inl rfl
    | cons first before =>
        obtain ⟨-, hlines⟩ := List.cons.inj hlines
        rw [hrest] at hmark
        exact absurd hmark (Config.not_prefix_middleLines hlines _)
  · exact .inr ⟨w, rfl, htail⟩

/-! ### What is read back -/

theorem Config.addressTexts_inj
    (h : ['\n'].intercalate c.addressTexts = ['\n'].intercalate c'.addressTexts) :
    c.hostaddrs = c'.hostaddrs := by
  have htext : ∀ c : Config, ∀ text ∈ c.addressTexts, '\n' ∉ text ∧ text ≠ [] := by
    intro c text hmem
    obtain ⟨ip, rfl⟩ := Config.text_of_mem hmem
    exact ⟨newline_notMem_text ip, ip.text_ne_nil⟩
  apply List.map_injective_iff.mpr Net.IpAddr.text_injective
  exact intercalate_injective (fun text hmem => (htext c text hmem).1)
    (fun text hmem => (htext c' text hmem).1) (fun text hmem => (htext c text hmem).2)
    (fun text hmem => (htext c' text hmem).2) h

theorem Config.portTexts_inj
    (h : [','].intercalate c.portTexts = [','].intercalate c'.portTexts) :
    c.ports = c'.ports := by
  have htext : ∀ c : Config, ∀ text ∈ c.portTexts, ',' ∉ text ∧ text ≠ [] := by
    intro c text hmem
    obtain ⟨port, -, rfl⟩ := List.mem_map.mp hmem
    refine ⟨?_, Nat.toDigits_ne_nil⟩
    intro hcomma
    exact absurd (Nat.isDigit_of_mem_toDigits (by decide) (by decide) hcomma) (by decide)
  have hdigits : Function.Injective fun port : UInt16 => Nat.toDigits 10 port.toNat := by
    intro port port' heq
    exact UInt16.toNat_inj.mp (Net.toDigits_injective (by decide) (by decide) heq)
  apply List.map_injective_iff.mpr hdigits
  exact intercalate_injective (fun text hmem => (htext c text hmem).1)
    (fun text hmem => (htext c' text hmem).1) (fun text hmem => (htext c text hmem).2)
    (fun text hmem => (htext c' text hmem).2) h

/-- The addresses, the ports and what is behind them are read back. -/
theorem Config.middle_inj : c.middle ++ c.tail = c'.middle ++ c'.tail ↔
    c.hostaddrs = c'.hostaddrs ∧ c.ports = c'.ports ∧ c.tail = c'.tail := by
  constructor
  · intro h
    -- `p` is in no address, and a line feed in no port
    have hshape : ∀ c : Config, c.middle ++ c.tail = '\n' :: (addressMark ++
        (['\n'].intercalate c.addressTexts ++ ['\n'] ++ 'p' :: ("orts=".toList ++
          ([','].intercalate c.portTexts ++ '\n' :: (userMark ++ c.tail))))) := by
      intro c
      show '\n' :: _ ++ _ = _
      have hport : portMark = 'p' :: "orts=".toList := rfl
      rw [hport]
      simp only [List.cons_append, List.append_assoc, List.nil_append]
    have haddress : ∀ c : Config, 'p' ∉ ['\n'].intercalate c.addressTexts ++ ['\n'] := by
      intro c hp
      rcases List.mem_append.mp hp with hp | hp
      · refine notMem_intercalate (by decide) ?_ hp
        intro text htext hmem
        obtain ⟨ip, rfl⟩ := Config.text_of_mem htext
        exact absurd (Net.IpAddr.mem_text hmem) (by decide)
      · exact absurd hp (by decide)
    have hport : ∀ c : Config, '\n' ∉ [','].intercalate c.portTexts := by
      intro c hnewline
      exact newline_notMem_ports c (List.mem_append_right _ hnewline)
    rw [hshape c, hshape c'] at h
    obtain ⟨-, h⟩ := List.cons.inj h
    obtain ⟨haddresses, h⟩ := (append_cons_inj (haddress c) (haddress c')).mp
      (List.append_cancel_left h)
    obtain ⟨hports, h⟩ := (append_cons_inj (hport c) (hport c')).mp (List.append_cancel_left h)
    exact ⟨addressTexts_inj (List.append_cancel_right haddresses), portTexts_inj hports,
      List.append_cancel_left h⟩
  · rintro ⟨haddresses, hports, htail⟩
    have hmiddle : c.middle = c'.middle := by
      simp only [Config.middle, Config.addressTexts, Config.portTexts, haddresses, hports]
    rw [hmiddle, htail]

/-- The boundary between the user and the database is in the database of the
one, and in the user of the other. -/
def Config.DatabaseSlides (c c' : Config) : Prop :=
  ∃ w, c'.userText = c.userText ++ '\n' :: (databaseMark ++ w) ∧
    c.databaseText = w ++ '\n' :: (databaseMark ++ c'.databaseText)

theorem Config.tail_of_slides (h : c.DatabaseSlides c') : c.tail = c'.tail := by
  obtain ⟨w, huser, hdatabase⟩ := h
  simp only [Config.tail, huser, hdatabase, List.append_assoc, List.cons_append]

/-- With the user of the one no longer than that of the other. -/
theorem Config.tail_cut {t : List Char} (huser : c'.userText = c.userText ++ t)
    (h : '\n' :: (databaseMark ++ c.databaseText) =
      t ++ '\n' :: (databaseMark ++ c'.databaseText)) :
    (c.userText = c'.userText ∧ c.databaseText = c'.databaseText) ∨ c.DatabaseSlides c' := by
  have hline : '\n' :: (databaseMark ++ c.databaseText) =
      behind '\n' [databaseMark] ++ c.databaseText := by
    rw [behind_cons]
    simp [behind]
  have hmark : ∀ l ∈ [databaseMark], '\n' ∉ l := by
    intro l hl
    rw [List.mem_singleton.mp hl]
    decide
  rcases behind_cut hmark (hline.symm.trans h) with
    ⟨before, l, after, hlines, rfl, hrest⟩ | ⟨w, rfl, hdatabase⟩
  · -- the rest is one line, so the cut falls before it or not in it
    cases before with
    | nil =>
        refine .inl ⟨?_, ?_⟩
        · rw [huser]
          exact (List.append_nil _).symm
        · exact List.append_cancel_left (List.cons.inj h).2
    | cons first before =>
        obtain ⟨-, hlines⟩ := List.cons.inj hlines
        cases before <;> cases hlines
  · refine .inr ⟨w, ?_, hdatabase⟩
    rw [huser, behind_cons]
    simp [behind]

theorem Config.tail_eq_iff : c.tail = c'.tail ↔
    (c.userText = c'.userText ∧ c.databaseText = c'.databaseText) ∨
      c.DatabaseSlides c' ∨ c'.DatabaseSlides c := by
  constructor
  · intro h
    rcases List.append_eq_append_iff.mp h with ⟨t, huser, hrest⟩ | ⟨t, huser, hrest⟩
    · exact (tail_cut huser hrest).imp_right .inl
    · rcases tail_cut huser hrest with ⟨hsame, hdatabase⟩ | hslides
      · exact .inl ⟨hsame.symm, hdatabase.symm⟩
      · exact .inr (.inr hslides)
  · rintro (⟨huser, hdatabase⟩ | h | h)
    · rw [Config.tail, Config.tail, huser, hdatabase]
    · exact tail_of_slides h
    · exact (tail_of_slides h).symm

/-! ### The host lines -/

theorem Host.label_ne_nil (host : Host) : host.label.toList ≠ [] := by
  cases host with
  | tcp hostname =>
      show ("tcp:" ++ hostname).toList ≠ []
      rw [String.toList_append]
      exact List.append_ne_nil_of_left_ne_nil (by decide) _
  | unix path =>
      show ("unix:" ++ _).toList ≠ []
      rw [String.toList_append]
      exact List.append_ne_nil_of_left_ne_nil (by decide) _

theorem Config.hostText_eq (c : Config) : c.hostText = ['\n'].intercalate c.hostLines := by
  rw [Config.hostText, Config.hostLines,
    ← intercalate_flatMap_splitOn (c.hosts.map fun host => host.label.toList), List.flatMap_map]

theorem Config.hostText_eq_nil_iff : c.hostText = [] ↔ c.hosts = [] := by
  rw [Config.hostText]
  constructor
  · intro h
    cases hhosts : c.hosts with
    | nil => rfl
    | cons host hosts =>
        rw [hhosts, List.map_cons, intercalate_cons] at h
        exact absurd (List.append_eq_nil_iff.mp h).1 host.label_ne_nil
  · intro h
    rw [h]
    rfl

/-- The host lines are read back, though not the hosts. -/
theorem Config.hostText_eq_iff : c.hostText = c'.hostText ↔ c.hostLines = c'.hostLines := by
  have hlines : ∀ c : Config, ∀ l ∈ c.hostLines, '\n' ∉ l := by
    intro c l hl
    obtain ⟨host, -, hl⟩ := List.mem_flatMap.mp hl
    exact notMem_of_mem_splitOn hl
  -- no host has no line, as splitting gives one at least
  have hnil : ∀ c : Config, c.hostLines = [] ↔ c.hosts = [] := by
    intro c
    rw [Config.hostLines, List.flatMap_eq_nil_iff]
    constructor
    · intro h
      cases hhosts : c.hosts with
      | nil => rfl
      | cons host hosts =>
          exact absurd (h host (hhosts ▸ List.mem_cons_self)) (List.splitOn_ne_nil _ _)
    · intro h host hhost
      rw [h] at hhost
      cases hhost
  constructor
  · intro h
    by_cases hempty : c.hostLines = []
    · have hnone := hostText_eq_nil_iff.mpr ((hnil c).mp hempty)
      rw [h] at hnone
      rw [hempty, (hnil c').mpr (hostText_eq_nil_iff.mp hnone)]
    · have hempty' : c'.hostLines ≠ [] := by
        intro hempty'
        have hnone := hostText_eq_nil_iff.mpr ((hnil c').mp hempty')
        rw [← h] at hnone
        exact hempty ((hnil c).mpr (hostText_eq_nil_iff.mp hnone))
      rw [hostText_eq, hostText_eq] at h
      exact intercalate_inj_of_ne_nil (hlines c) (hlines c') hempty hempty' h
  · intro h
    rw [hostText_eq, hostText_eq, h]

/-! ### Two configurations with one text -/

/-- The configurations have the same host lines, addresses and ports. -/
structure Config.SameLines (c c' : Config) : Prop where
  hosts : c.hostLines = c'.hostLines
  hostaddrs : c.hostaddrs = c'.hostaddrs
  ports : c.ports = c'.ports

/-- A boundary in the text of the one is further on in the text of the other. -/
inductive Config.Slides (c c' : Config) : Prop
  /-- The hosts of the other go on with the addresses, the ports and the user. -/
  | hosts (w : List Char) : c'.hostText = c.hostText ++ (c.middle ++ w) →
      c.tail = w ++ (c'.middle ++ c'.tail) → Slides c c'
  /-- The user of the other goes on with the database. -/
  | database : c.SameLines c' → c.DatabaseSlides c' → Slides c c'

/-- The parts are written in the same way. -/
structure Config.Alike (c c' : Config) : Prop extends c.SameLines c' where
  user : c.user.getD "" = c'.user.getD ""
  dbname : c.dbname.getD "" = c'.dbname.getD ""

theorem Config.identity_of_slides (h : c.Slides c') :
    c.hostText ++ (c.middle ++ c.tail) = c'.hostText ++ (c'.middle ++ c'.tail) := by
  cases h with
  | hosts w hhosts htail =>
      rw [hhosts, htail]
      simp only [List.append_assoc]
  | database hsame hslides =>
      rw [hostText_eq_iff.mpr hsame.hosts,
        middle_inj.mpr ⟨hsame.hostaddrs, hsame.ports, tail_of_slides hslides⟩]

/-- With the hosts of the one no longer than those of the other. -/
theorem Config.identity_cut {t : List Char} (hhosts : c'.hostText = c.hostText ++ t)
    (h : c.middle ++ c.tail = t ++ (c'.middle ++ c'.tail)) :
    c.Alike c' ∨ c.Slides c' ∨ c'.Slides c := by
  rcases middle_cut h with rfl | ⟨w, rfl, htail⟩
  · obtain ⟨haddresses, hports, htail⟩ := middle_inj.mp h
    have hlines : c.hostLines = c'.hostLines :=
      hostText_eq_iff.mp (by rw [hhosts, List.append_nil])
    have hsame : c.SameLines c' := ⟨hlines, haddresses, hports⟩
    rcases tail_eq_iff.mp htail with ⟨huser, hdatabase⟩ | hslides | hslides
    · exact .inl ⟨hsame, String.toList_injective huser, String.toList_injective hdatabase⟩
    · exact .inr (.inl (.database hsame hslides))
    · exact .inr (.inr (.database ⟨hlines.symm, haddresses.symm, hports.symm⟩ hslides))
  · exact .inr (.inl (.hosts w hhosts htail))

/-- The identities are one text just where the parts are written in the same
way, or a boundary slides. -/
theorem endpointIdentity_eq_iff : endpointIdentity c = endpointIdentity c' ↔
    c.Alike c' ∨ c.Slides c' ∨ c'.Slides c := by
  rw [← String.toList_inj, toList_endpointIdentity, toList_endpointIdentity,
    List.append_cancel_left_eq]
  constructor
  · intro h
    rcases List.append_eq_append_iff.mp h with ⟨t, hhosts, hrest⟩ | ⟨t, hhosts, hrest⟩
    · exact Config.identity_cut hhosts hrest
    · rcases Config.identity_cut hhosts hrest with halike | hslides | hslides
      · exact .inl ⟨⟨halike.hosts.symm, halike.hostaddrs.symm, halike.ports.symm⟩,
          halike.user.symm, halike.dbname.symm⟩
      · exact .inr (.inr hslides)
      · exact .inr (.inl hslides)
  · rintro (halike | hslides | hslides)
    · have htail : c.tail = c'.tail := by
        simp only [Config.tail, Config.userText, Config.databaseText, halike.user, halike.dbname]
      rw [Config.hostText_eq_iff.mpr halike.hosts,
        Config.middle_inj.mpr ⟨halike.hostaddrs, halike.ports, htail⟩]
    · exact Config.identity_of_slides hslides
    · exact (Config.identity_of_slides hslides).symm

/-! ### The hash -/

/-- The configurations name two endpoints that are written as one. -/
def Config.Confusable (c c' : Config) : Prop :=
  ¬ c.SameEndpoint c' ∧ (c.Alike c' ∨ c.Slides c' ∨ c'.Slides c)

variable (X : Crates)

/-- The hash depends on nothing but the endpoint. -/
theorem endpointSha256_congr (h : c.SameEndpoint c') : endpointSha256 X c = endpointSha256 X c' := by
  obtain ⟨hhosts, haddresses, hports, huser, hdbname⟩ := h
  unfold endpointSha256 endpointIdentity
  rw [hhosts, haddresses, hports, huser, hdbname]

/-- Without a collision the hash tells the endpoint of the configurations that
are not confusable, and of no others. -/
theorem endpointSha256_exact
    (hfree : NoCollision X {asBytes (endpointIdentity c), asBytes (endpointIdentity c')}) :
    (endpointSha256 X c = endpointSha256 X c' ↔ c.SameEndpoint c') ↔ ¬ c.Confusable c' := by
  have hhash : endpointSha256 X c = endpointSha256 X c' ↔
      c.Alike c' ∨ c.Slides c' ∨ c'.Slides c := by
    rw [← endpointIdentity_eq_iff]
    constructor
    · intro h
      exact asBytes_injective (hfree (Set.mem_insert _ _) (Set.mem_insert_of_mem _ rfl) h)
    · intro h
      rw [endpointSha256, endpointSha256, h]
  constructor
  · rintro h ⟨hdiffer, hwritten⟩
    exact hdiffer (h.mp (hhash.mpr hwritten))
  · intro h
    constructor
    · intro heq
      by_contra hdiffer
      exact h ⟨hdiffer, hhash.mp heq⟩
    · exact endpointSha256_congr X

namespace Sample

/-- The configuration with another password. -/
def rotated : Config := { config with secret := "second" }

/-- One host, whose name has two lines. -/
def oneHost : Config := { config with hosts := [.tcp "a\ntcp:b"] }

def twoHosts : Config := { config with hosts := [.tcp "a", .tcp "b"] }

/-- A server and its standby. -/
def standby : Config where
  hosts := [.tcp "a.test", .unix (asBytes "/run")]
  hostaddrs := [.v4 ⟨10, 0, 0, 1⟩]
  ports := [5432, 5433]
  user := some "u"
  dbname := some "d"
  secret := "first"
  applicationName := none
  connectTimeoutSecs := some 5
  sslMode := .require

/-- The same with its ports the other way round. -/
def swapped : Config := { standby with ports := [5433, 5432] }

/-- The same with another password. -/
def standbyRotated : Config := { standby with secret := "second" }

theorem swapped_free :
    NoCollision crates {asBytes (endpointIdentity standby), asBytes (endpointIdentity swapped)} := by
  have hstandby : sha256Bytes crates (asBytes (endpointIdentity standby)) =
      "084396801583ce9a41163c21d621c9443f93147ffcc0bd0ff74f1e3b8351da0e" :=
    hash_eq (by decide +kernel)
  have hswapped : sha256Bytes crates (asBytes (endpointIdentity swapped)) =
      "dd4706908cf9e6ccb8f54e89fafb78782d6cb73f017b46467ff4b767a7230d17" :=
    hash_eq (by decide +kernel)
  apply NoCollision.pair
  rw [hstandby, hswapped]
  decide

end Sample

/-- Another password changes nothing, and another order of the ports does. -/
theorem endpointSha256_exact_sample :
    endpointSha256 Sample.crates Sample.standby =
        endpointSha256 Sample.crates Sample.standbyRotated ∧
      endpointSha256 Sample.crates Sample.standby ≠ endpointSha256 Sample.crates Sample.swapped := by
  constructor
  · have hsame : Sample.standby.SameEndpoint Sample.standbyRotated := ⟨rfl, rfl, rfl, rfl, rfl⟩
    refine ((endpointSha256_exact Sample.crates ?_).mpr fun hconfusable => ?_).mpr hsame
    · have htext : endpointIdentity Sample.standbyRotated = endpointIdentity Sample.standby := rfl
      rw [htext, Set.pair_eq_singleton]
      exact NoCollision.of_subsingleton _ Set.subsingleton_singleton
    · exact hconfusable.1 hsame
  · intro heq
    have hnot : ¬ Sample.standby.Confusable Sample.swapped := fun hconfusable => by
      have htexts := endpointIdentity_eq_iff.mpr hconfusable.2
      exact absurd htexts (by decide)
    have hsame := ((endpointSha256_exact Sample.crates Sample.swapped_free).mpr hnot).mp heq
    exact absurd hsame.ports (by decide)

/-- A host name with a line feed, and two host names. -/
theorem endpointSha256_merged :
    NoCollision Sample.crates
        {asBytes (endpointIdentity Sample.oneHost), asBytes (endpointIdentity Sample.twoHosts)} ∧
      endpointSha256 Sample.crates Sample.oneHost = endpointSha256 Sample.crates Sample.twoHosts ∧
      ¬ Sample.oneHost.SameEndpoint Sample.twoHosts := by
  have hsame : endpointIdentity Sample.oneHost = endpointIdentity Sample.twoHosts :=
    endpointIdentity_eq_iff.mpr (.inl ⟨⟨by decide, rfl, rfl⟩, rfl, rfl⟩)
  refine ⟨?_, ?_, ?_⟩
  · apply NoCollision.of_subsingleton
    rw [hsame, Set.pair_eq_singleton]
    exact Set.subsingleton_singleton
  · rw [endpointSha256, endpointSha256, hsame]
  · intro h
    exact absurd h.hosts (by decide)

/-! ### Names of one line -/

/-- A host name without a line feed, or a path in UTF-8 without one. -/
def Host.Plain : Host → Prop
  | .tcp hostname => '\n' ∉ hostname.toList
  | .unix path => '\n' ∉ (Str.fromUtf8Lossy path).toList ∧ asBytes (Str.fromUtf8Lossy path) = path

/-- Names of one line, none of them left out. -/
structure Config.Plain (c : Config) : Prop where
  hosts : ∀ host ∈ c.hosts, host.Plain
  user : ∃ user, c.user = some user ∧ '\n' ∉ user.toList
  dbname : ∃ dbname, c.dbname = some dbname ∧ '\n' ∉ dbname.toList

theorem Host.Plain.lines {host : Host} (h : host.Plain) :
    host.label.toList.splitOn '\n' = [host.label.toList] := by
  apply List.splitOn_eq_singleton
  cases host with
  | tcp hostname =>
      show '\n' ∉ ("tcp:" ++ hostname).toList
      rw [String.toList_append, List.mem_append, not_or]
      exact ⟨by decide, h⟩
  | unix path =>
      show '\n' ∉ ("unix:" ++ _).toList
      rw [String.toList_append, List.mem_append, not_or]
      exact ⟨by decide, h.1⟩

theorem Host.Plain.label_inj {host host' : Host} (h : host.Plain) (h' : host'.Plain)
    (heq : host.label.toList = host'.label.toList) : host = host' := by
  -- the label begins with the kind of the host
  have hkinds : ∀ s t : List Char, "tcp:".toList ++ s ≠ "unix:".toList ++ t := by
    intro s t heq
    exact absurd (List.cons.inj heq).1 (by decide)
  cases host with
  | tcp hostname =>
      have hname : (Host.tcp hostname).label.toList = "tcp:".toList ++ hostname.toList :=
        String.toList_append
      cases host' with
      | tcp hostname' =>
          have hname' : (Host.tcp hostname').label.toList = "tcp:".toList ++ hostname'.toList :=
            String.toList_append
          rw [hname, hname', List.append_cancel_left_eq] at heq
          exact congrArg Host.tcp (String.toList_injective heq)
      | unix path' =>
          have hname' : (Host.unix path').label.toList =
              "unix:".toList ++ (Str.fromUtf8Lossy path').toList := String.toList_append
          rw [hname, hname'] at heq
          exact absurd heq (hkinds _ _)
  | unix path =>
      have hname : (Host.unix path).label.toList =
          "unix:".toList ++ (Str.fromUtf8Lossy path).toList := String.toList_append
      cases host' with
      | tcp hostname' =>
          have hname' : (Host.tcp hostname').label.toList = "tcp:".toList ++ hostname'.toList :=
            String.toList_append
          rw [hname, hname'] at heq
          exact absurd heq.symm (hkinds _ _)
      | unix path' =>
          have hname' : (Host.unix path').label.toList =
              "unix:".toList ++ (Str.fromUtf8Lossy path').toList := String.toList_append
          rw [hname, hname', List.append_cancel_left_eq] at heq
          rw [← h.2, ← h'.2, String.toList_injective heq]

namespace Config.Plain

/-- The lines are those of the hosts. -/
theorem hostLines (h : c.Plain) : c.hostLines = c.hosts.map fun host => host.label.toList := by
  have hlines : ∀ hosts : List Host, (∀ host ∈ hosts, host.Plain) →
      (hosts.flatMap fun host => host.label.toList.splitOn '\n') =
        hosts.map fun host => host.label.toList := by
    intro hosts hplain
    induction hosts with
    | nil => rfl
    | cons host hosts ih =>
        rw [List.flatMap_cons, (hplain host List.mem_cons_self).lines,
          ih fun host hhost => hplain host (List.mem_cons_of_mem _ hhost)]
        rfl
  exact hlines c.hosts h.hosts

theorem hosts_eq (h : c.Plain) (h' : c'.Plain) (heq : c.hostLines = c'.hostLines) :
    c.hosts = c'.hosts := by
  rw [h.hostLines, h'.hostLines] at heq
  have hinj : ∀ hosts hosts' : List Host, (∀ host ∈ hosts, host.Plain) →
      (∀ host ∈ hosts', host.Plain) →
      (hosts.map fun host => host.label.toList) = (hosts'.map fun host => host.label.toList) →
      hosts = hosts' := by
    intro hosts
    induction hosts with
    | nil =>
        intro hosts' _ _ heq
        exact (List.map_eq_nil_iff.mp heq.symm).symm
    | cons host hosts ih =>
        intro hosts' hplain hplain' heq
        cases hosts' with
        | nil => cases heq
        | cons host' hosts' =>
            obtain ⟨hhead, htail⟩ := List.cons.inj heq
            rw [(hplain host List.mem_cons_self).label_inj (hplain' host' List.mem_cons_self) hhead,
              ih hosts' (fun e he => hplain e (List.mem_cons_of_mem _ he))
                (fun e he => hplain' e (List.mem_cons_of_mem _ he)) htail]
  exact hinj c.hosts c'.hosts h.hosts h'.hosts heq

/-- One line feed stands behind `user=`, and the middle part has three. -/
theorem not_slides (h : c.Plain) (h' : c'.Plain) : ¬ c.Slides c' := by
  obtain ⟨user, huser, hline⟩ := h.user
  obtain ⟨dbname, hdbname, hline'⟩ := h.dbname
  obtain ⟨user', huser', hline''⟩ := h'.user
  rintro (⟨w, -, htail⟩ | ⟨-, w, hslides, -⟩)
  · have hcount := congrArg (List.count '\n') htail
    have huser0 : List.count '\n' c.userText = 0 := by
      rw [List.count_eq_zero, Config.userText, huser]
      exact hline
    have hdbname0 : List.count '\n' c.databaseText = 0 := by
      rw [List.count_eq_zero, Config.databaseText, hdbname]
      exact hline'
    have hmark : List.count '\n' databaseMark = 0 := by decide
    rw [Config.tail, List.count_append, List.count_cons_self, List.count_append, huser0, hdbname0,
      hmark, Config.middle] at hcount
    simp only [List.count_append, List.count_cons_self] at hcount
    omega
  · rw [Config.userText, huser'] at hslides
    apply hline''
    show '\n' ∈ user'.toList
    rw [show user'.toList = _ from hslides]
    exact List.mem_append_right _ List.mem_cons_self

/-- Plain configurations are told apart. -/
theorem not_confusable (h : c.Plain) (h' : c'.Plain) : ¬ c.Confusable c' := by
  rintro ⟨hdiffer, halike | hslides | hslides⟩
  · obtain ⟨user, huser, -⟩ := h.user
    obtain ⟨user', huser', -⟩ := h'.user
    obtain ⟨dbname, hdbname, -⟩ := h.dbname
    obtain ⟨dbname', hdbname', -⟩ := h'.dbname
    have hsame := halike.user
    have hsame' := halike.dbname
    rw [huser, huser'] at hsame
    rw [hdbname, hdbname'] at hsame'
    refine hdiffer ⟨h.hosts_eq h' halike.hosts, halike.hostaddrs, halike.ports, ?_, ?_⟩
    · rw [huser, huser']
      exact congrArg some hsame
    · rw [hdbname, hdbname']
      exact congrArg some hsame'
  · exact h.not_slides h' hslides
  · exact h'.not_slides h hslides

end Config.Plain

end DmlPact
