/-
DmlPact/Lib/IpAddr.lean

Internet addresses and their texts (`std::net`).  An IPv4 address is shown in
decimal with dots; an IPv6 address in hexadecimal with colons, where the first
longest run of zeros, of two at least, becomes `::`, and where an IPv4 address
that is mapped into IPv6 keeps its dots.

    127.0.0.1    ::1    2001:db8::7:0:0    ::ffff:127.0.0.1

The text tells the address (`text_injective`) and is made of few characters
(`mem_text`).
-/
import Mathlib.Data.List.Basic
import DmlPact.Lib.Separated

namespace Net

structure Ipv4Addr where
  a : UInt8
  b : UInt8
  c : UInt8
  d : UInt8
  deriving DecidableEq

structure Ipv6Addr where
  segments : List UInt16
  length_segments : segments.length = 8
  deriving DecidableEq

inductive IpAddr where
  | v4 (ip : Ipv4Addr)
  | v6 (ip : Ipv6Addr)
  deriving DecidableEq

/-! ### Texts -/

def decimal (n : UInt8) : List Char := Nat.toDigits 10 n.toNat

def hex (n : UInt16) : List Char := Nat.toDigits 16 n.toNat

def Ipv4Addr.text (ip : Ipv4Addr) : List Char :=
  ['.'].intercalate [decimal ip.a, decimal ip.b, decimal ip.c, decimal ip.d]

/-- The IPv4 address that is mapped into IPv6, if it is one. -/
def Ipv6Addr.toIpv4Mapped (ip : Ipv6Addr) : Option Ipv4Addr :=
  match ip.segments with
  | [s₀, s₁, s₂, s₃, s₄, s₅, ab, cd] =>
      if s₀ = 0 ∧ s₁ = 0 ∧ s₂ = 0 ∧ s₃ = 0 ∧ s₄ = 0 ∧ s₅ = 0xffff then
        some ⟨UInt8.ofNat (ab.toNat / 256), UInt8.ofNat (ab.toNat % 256),
          UInt8.ofNat (cd.toNat / 256), UInt8.ofNat (cd.toNat % 256)⟩
      else none
  | _ => none

/-- A run of segments. -/
structure Span where
  start : Nat
  len : Nat

/-- Look for the first longest run of zeros, from an index on, with the run
that is going on and the longest so far. -/
def zeroesFrom : Nat → Span → Span → List UInt16 → Span
  | _, _, longest, [] => longest
  | i, current, longest, segment :: segments =>
      if segment = 0 then
        let current : Span := ⟨if current.len = 0 then i else current.start, current.len + 1⟩
        zeroesFrom (i + 1) current (if longest.len < current.len then current else longest) segments
      else zeroesFrom (i + 1) ⟨0, 0⟩ longest segments

def zeroes (segments : List UInt16) : Span := zeroesFrom 0 ⟨0, 0⟩ ⟨0, 0⟩ segments

/-- A part of the address, with colons between its segments. -/
def subslice (chunk : List UInt16) : List Char := [':'].intercalate (chunk.map hex)

def Ipv6Addr.text (ip : Ipv6Addr) : List Char :=
  match ip.toIpv4Mapped with
  | some ipv4 => "::ffff:".toList ++ ipv4.text
  | none =>
      let zeroes := zeroes ip.segments
      if 1 < zeroes.len then
        subslice (ip.segments.take zeroes.start) ++ "::".toList ++
          subslice (ip.segments.drop (zeroes.start + zeroes.len))
      else subslice ip.segments

def IpAddr.text : IpAddr → List Char
  | .v4 ip => ip.text
  | .v6 ip => ip.text

/-- `127.0.0.0/8` and `::1`. -/
def IpAddr.isLoopback : IpAddr → Bool
  | .v4 ip => ip.a = 127
  | .v6 ip => ip.segments = [0, 0, 0, 0, 0, 0, 0, 1]

example : (IpAddr.v6 ⟨[0x2001, 0xdb8, 0, 0, 0, 7, 0, 0], rfl⟩).text = "2001:db8::7:0:0".toList := by
  decide

/-! ### Digits -/

theorem mem_toDigits {b n : Nat} (hb : 1 < b) {c : Char} (hc : c ∈ Nat.toDigits b n) :
    ∃ k < b, c = Nat.digitChar k := by
  induction n using Nat.strongRecOn with
  | ind n ih =>
      rw [Nat.toDigits_eq_if hb] at hc
      split_ifs at hc with hn
      · exact ⟨n, hn, List.mem_singleton.mp hc⟩
      · rcases List.mem_append.mp hc with hc | hc
        · exact ih (n / b) (Nat.div_lt_self (by omega) hb) hc
        · exact ⟨n % b, Nat.mod_lt n (by omega), List.mem_singleton.mp hc⟩

/-- Up to base 16, the digits tell the number. -/
theorem toDigits_injective {b : Nat} (hb : 1 < b) (hb' : b ≤ 16) :
    Function.Injective (Nat.toDigits b) := by
  have hdigit : ∀ i < 16, ∀ j < 16, Nat.digitChar i = Nat.digitChar j → i = j := by decide
  intro m
  induction m using Nat.strongRecOn with
  | ind m ih =>
      intro n h
      rw [Nat.toDigits_eq_if hb, @Nat.toDigits_eq_if b n hb] at h
      split_ifs at h with hm hn hn
      · exact hdigit m (by omega) n (by omega) (List.singleton_inj.mp h)
      · have hlen := congrArg List.length h
        have hpos := @Nat.length_toDigits_pos b (n / b)
        simp only [List.length_append, List.length_singleton] at hlen
        omega
      · have hlen := congrArg List.length h
        have hpos := @Nat.length_toDigits_pos b (m / b)
        simp only [List.length_append, List.length_singleton] at hlen
        omega
      · obtain ⟨hfront, hlast⟩ := List.append_inj' h rfl
        have hdiv := ih (m / b) (Nat.div_lt_self (by omega) hb) hfront
        have hmod := hdigit (m % b) (by have := Nat.mod_lt m (show 0 < b by omega); omega)
          (n % b) (by have := Nat.mod_lt n (show 0 < b by omega); omega)
          (List.singleton_inj.mp hlast)
        rw [← Nat.div_add_mod m b, ← Nat.div_add_mod n b, hdiv, hmod]

theorem decimal_injective : Function.Injective decimal := by
  intro m n h
  exact UInt8.toNat_inj.mp (toDigits_injective (by decide) (by decide) h)

theorem hex_injective : Function.Injective hex := by
  intro m n h
  exact UInt16.toNat_inj.mp (toDigits_injective (by decide) (by decide) h)

theorem decimal_ne_nil (n : UInt8) : decimal n ≠ [] := Nat.toDigits_ne_nil

theorem hex_ne_nil (n : UInt16) : hex n ≠ [] := Nat.toDigits_ne_nil

/-- The characters of a number. -/
def hexDigits : List Char := "0123456789abcdef".toList

theorem mem_hex {n : UInt16} {c : Char} (hc : c ∈ hex n) : c ∈ hexDigits := by
  have hdigits : ∀ k < 16, Nat.digitChar k ∈ hexDigits := by decide
  obtain ⟨k, hk, rfl⟩ := mem_toDigits (by decide) hc
  exact hdigits k hk

theorem mem_decimal {n : UInt8} {c : Char} (hc : c ∈ decimal n) : c ∈ hexDigits := by
  have hdigits : ∀ k < 10, Nat.digitChar k ∈ hexDigits := by decide
  obtain ⟨k, hk, rfl⟩ := mem_toDigits (by decide) hc
  exact hdigits k hk

theorem dot_notMem_hexDigits : '.' ∉ hexDigits := by decide

theorem colon_notMem_hexDigits : ':' ∉ hexDigits := by decide

/-! ### IPv4 -/

theorem Ipv4Addr.text_injective : Function.Injective Ipv4Addr.text := by
  have hparts : ∀ ip : Ipv4Addr, ∀ l ∈ [decimal ip.a, decimal ip.b, decimal ip.c, decimal ip.d],
      '.' ∉ l ∧ l ≠ [] := by
    intro ip l hl
    have hpart : ∃ n, l = decimal n := by
      simp only [List.mem_cons, List.not_mem_nil, or_false] at hl
      rcases hl with rfl | rfl | rfl | rfl
      · exact ⟨_, rfl⟩
      · exact ⟨_, rfl⟩
      · exact ⟨_, rfl⟩
      · exact ⟨_, rfl⟩
    obtain ⟨n, rfl⟩ := hpart
    exact ⟨fun hdot => dot_notMem_hexDigits (mem_decimal hdot), decimal_ne_nil n⟩
  intro ip ip' h
  have heq := Separated.intercalate_injective (fun l hl => (hparts ip l hl).1)
    (fun l hl => (hparts ip' l hl).1) (fun l hl => (hparts ip l hl).2)
    (fun l hl => (hparts ip' l hl).2) h
  simp only [List.cons.injEq, and_true] at heq
  obtain ⟨ha, hb, hc, hd⟩ := heq
  cases ip
  cases ip'
  simp only [Ipv4Addr.mk.injEq]
  exact ⟨decimal_injective ha, decimal_injective hb, decimal_injective hc, decimal_injective hd⟩

/-! ### The run of zeros -/

/-- The run is one of zeros. -/
def Span.In (run : Span) (segments : List UInt16) : Prop :=
  ∃ before after, segments = before ++ List.replicate run.len 0 ++ after ∧
    before.length = run.start

/-- The run, if it has begun, goes on up to the end. -/
def Span.Ends (run : Span) (segments : List UInt16) : Prop :=
  run.len = 0 ∨ ∃ before, segments = before ++ List.replicate run.len 0 ∧
    before.length = run.start

theorem Span.In.append {run : Span} {segments : List UInt16} (h : run.In segments)
    (segment : UInt16) : run.In (segments ++ [segment]) := by
  obtain ⟨before, after, rfl, hstart⟩ := h
  exact ⟨before, after ++ [segment], by rw [List.append_assoc _ after], hstart⟩

/-- One zero more. -/
theorem Span.Ends.append {run : Span} {segments : List UInt16} (h : run.Ends segments) :
    ∃ before, segments ++ [0] = before ++ List.replicate (run.len + 1) 0 ∧
      before.length = if run.len = 0 then segments.length else run.start := by
  by_cases hlen : run.len = 0
  · exact ⟨segments, by rw [hlen]; rfl, (if_pos hlen).symm⟩
  · obtain ⟨before, rfl, hstart⟩ := h.resolve_left hlen
    refine ⟨before, ?_, ?_⟩
    · rw [List.replicate_succ', List.append_assoc]
    · rw [if_neg hlen, hstart]

theorem zeroesFrom_in {i : Nat} {current longest : Span} {seen segments : List UInt16}
    (hi : i = seen.length) (hcurrent : current.Ends seen) (hlongest : longest.In seen) :
    (zeroesFrom i current longest segments).In (seen ++ segments) := by
  induction segments generalizing i current longest seen with
  | nil =>
      rw [List.append_nil]
      exact hlongest
  | cons segment segments ih =>
      have hshape : seen ++ segment :: segments = (seen ++ [segment]) ++ segments := by simp
      have hnext : i + 1 = (seen ++ [segment]).length := by rw [hi, List.length_append]; rfl
      rw [hshape]
      unfold zeroesFrom
      -- a zero lengthens the current span, which may become the longest
      by_cases hzero : segment = 0
      · rw [if_pos hzero]
        subst hzero
        obtain ⟨before, hbefore, hstart⟩ := hcurrent.append
        rw [← hi] at hstart
        apply ih hnext
        · exact .inr ⟨before, hbefore, hstart⟩
        · by_cases hlonger : longest.len < current.len + 1
          · rw [if_pos hlonger]
            exact ⟨before, [], by rw [hbefore, List.append_nil], hstart⟩
          · rw [if_neg hlonger]
            exact hlongest.append 0
      · rw [if_neg hzero]
        exact ih hnext (.inl rfl) (hlongest.append segment)

/-- What is left out is zeros. -/
theorem zeroes_in (segments : List UInt16) : (zeroes segments).In segments :=
  @zeroesFrom_in 0 ⟨0, 0⟩ ⟨0, 0⟩ [] segments rfl (.inl rfl) ⟨[], [], rfl, rfl⟩

/-! ### IPv6 -/

/-- The numbers of a part of the address, of which there is an empty one where
the part is empty. -/
def padded (chunk : List UInt16) : List (List Char) :=
  if chunk = [] then [[]] else chunk.map hex

theorem padded_ne_nil (chunk : List UInt16) : padded chunk ≠ [] := by
  unfold padded
  split_ifs with h
  · exact List.cons_ne_nil _ _
  · simpa using h

theorem subslice_eq (chunk : List UInt16) : subslice chunk = [':'].intercalate (padded chunk) := by
  unfold subslice padded
  by_cases h : chunk = []
  · subst h
    rfl
  · rw [if_neg h]

theorem mem_padded {chunk : List UInt16} {l : List Char} (hl : l ∈ padded chunk) {c : Char}
    (hc : c ∈ l) : c ∈ hexDigits := by
  unfold padded at hl
  split_ifs at hl with h
  · rw [List.mem_singleton.mp hl] at hc
    exact absurd hc List.not_mem_nil
  · obtain ⟨n, -, rfl⟩ := List.mem_map.mp hl
    exact mem_hex hc

/-- The numbers of an address with a `::`. -/
def groups (front back : List UInt16) : List (List Char) := padded front ++ [] :: padded back

theorem compressed_eq (front back : List UInt16) :
    subslice front ++ "::".toList ++ subslice back = [':'].intercalate (groups front back) := by
  rw [groups, Separated.intercalate_append (padded_ne_nil front) (List.cons_ne_nil _ _),
    List.intercalate_cons_of_ne_nil (padded_ne_nil back), subslice_eq, subslice_eq,
    List.append_assoc]
  rfl

/-- The numbers in front of the `::` are read back. -/
theorem takeWhile_padded (chunk : List UInt16) (rest : List (List Char)) :
    (padded chunk ++ [] :: rest).takeWhile (fun l => l ≠ []) = chunk.map hex := by
  unfold padded
  by_cases h : chunk = []
  · subst h
    rfl
  · rw [if_neg h, List.takeWhile_append_of_pos]
    · simp
    · intro l hl
      obtain ⟨n, -, rfl⟩ := List.mem_map.mp hl
      simpa using hex_ne_nil n

theorem reverse_padded (chunk : List UInt16) : (padded chunk).reverse = padded chunk.reverse := by
  unfold padded
  by_cases h : chunk = []
  · subst h
    rfl
  · rw [if_neg h, if_neg (List.reverse_ne_nil_iff.mpr h), List.map_reverse]

theorem groups_injective {front back front' back' : List UInt16}
    (h : groups front back = groups front' back') : front = front' ∧ back = back' := by
  have hmap : Function.Injective (List.map hex) := List.map_injective_iff.mpr hex_injective
  constructor
  · have hfront := congrArg (List.takeWhile fun l => l ≠ []) h
    rw [groups, groups, takeWhile_padded, takeWhile_padded] at hfront
    exact hmap hfront
  · have hback := congrArg (fun l => l.reverse.takeWhile fun l => l ≠ []) h
    simp only [groups, List.reverse_append, List.reverse_cons, List.append_assoc,
      List.singleton_append, reverse_padded] at hback
    rw [takeWhile_padded, takeWhile_padded] at hback
    exact List.reverse_injective (hmap hback)

theorem mem_groups {front back : List UInt16} {l : List Char} (hl : l ∈ groups front back)
    {c : Char} (hc : c ∈ l) : c ∈ hexDigits := by
  rcases List.mem_append.mp hl with hl | hl
  · exact mem_padded hl hc
  · rcases List.mem_cons.mp hl with rfl | hl
    · exact absurd hc List.not_mem_nil
    · exact mem_padded hl hc

/-- The numbers that an address not mapped from IPv4 is shown with. -/
def Ipv6Addr.groups (ip : Ipv6Addr) : List (List Char) :=
  let run := zeroes ip.segments
  if 1 < run.len then
    Net.groups (ip.segments.take run.start) (ip.segments.drop (run.start + run.len))
  else ip.segments.map hex

theorem Ipv6Addr.segments_ne_nil (ip : Ipv6Addr) : ip.segments ≠ [] := by
  intro h
  have hlen := ip.length_segments
  rw [h] at hlen
  cases hlen

theorem Ipv6Addr.text_eq {ip : Ipv6Addr} (h : ip.toIpv4Mapped = none) :
    ip.text = [':'].intercalate ip.groups := by
  unfold Ipv6Addr.text Ipv6Addr.groups
  rw [h]
  by_cases hrun : 1 < (zeroes ip.segments).len
  · simp only [if_pos hrun]
    exact compressed_eq _ _
  · simp only [if_neg hrun]
    rfl

/-- Every number is shown, or some zeros are left out. -/
theorem Ipv6Addr.groups_cases (ip : Ipv6Addr) :
    ip.groups = ip.segments.map hex ∨ ∃ front back k, ip.groups = Net.groups front back ∧
      ip.segments = front ++ List.replicate k 0 ++ back := by
  obtain ⟨before, after, hsegments, hstart⟩ := zeroes_in ip.segments
  unfold Ipv6Addr.groups
  by_cases hrun : 1 < (zeroes ip.segments).len
  · refine .inr ⟨before, after, (zeroes ip.segments).len, ?_, hsegments⟩
    simp only [if_pos hrun]
    generalize zeroes ip.segments = run at hsegments hstart ⊢
    rw [hsegments, ← hstart]
    simp
  · exact .inl (by simp only [if_neg hrun])

/-- Where numbers are left out there is an empty one. -/
theorem map_hex_ne_groups (segments front back : List UInt16) :
    segments.map hex ≠ Net.groups front back := by
  intro h
  have hmem : [] ∈ Net.groups front back := List.mem_append_right _ List.mem_cons_self
  rw [← h] at hmem
  obtain ⟨n, -, hn⟩ := List.mem_map.mp hmem
  exact hex_ne_nil n hn

/-- The numbers tell the address: there are as many zeros left out as are
missing. -/
theorem Ipv6Addr.groups_injective : Function.Injective Ipv6Addr.groups := by
  intro ip ip' h
  have hsegments : ip.segments = ip'.segments := by
    rcases ip.groups_cases with hall | ⟨front, back, k, hgroups, hparts⟩
    · rcases ip'.groups_cases with hall' | ⟨front', back', k', hgroups', hparts'⟩
      · rw [hall, hall'] at h
        exact List.map_injective_iff.mpr hex_injective h
      · rw [hall, hgroups'] at h
        exact absurd h (map_hex_ne_groups _ _ _)
    · rcases ip'.groups_cases with hall' | ⟨front', back', k', hgroups', hparts'⟩
      · rw [hgroups, hall'] at h
        exact absurd h.symm (map_hex_ne_groups _ _ _)
      · rw [hgroups, hgroups'] at h
        obtain ⟨rfl, rfl⟩ := Net.groups_injective h
        have hlen := congrArg List.length hparts
        have hlen' := congrArg List.length hparts'
        simp only [List.length_append, List.length_replicate, ip.length_segments] at hlen
        simp only [List.length_append, List.length_replicate, ip'.length_segments] at hlen'
        have hk : k = k' := by omega
        rw [hparts, hparts', hk]
  cases ip
  cases ip'
  simp only [Ipv6Addr.mk.injEq]
  exact hsegments

theorem Ipv6Addr.mem_groups {ip : Ipv6Addr} {l : List Char} (hl : l ∈ ip.groups) {c : Char}
    (hc : c ∈ l) : c ∈ hexDigits := by
  rcases ip.groups_cases with hall | ⟨front, back, k, hgroups, -⟩
  · rw [hall] at hl
    obtain ⟨n, -, rfl⟩ := List.mem_map.mp hl
    exact mem_hex hc
  · rw [hgroups] at hl
    exact Net.mem_groups hl hc

theorem Ipv6Addr.colon_notMem_groups {ip : Ipv6Addr} {l : List Char} (hl : l ∈ ip.groups) :
    ':' ∉ l :=
  fun hcolon => colon_notMem_hexDigits (Ipv6Addr.mem_groups hl hcolon)

theorem Ipv6Addr.groups_ne_nil (ip : Ipv6Addr) : ip.groups ≠ [] := by
  rcases ip.groups_cases with hall | ⟨front, back, k, hgroups, -⟩
  · rw [hall]
    simpa using ip.segments_ne_nil
  · rw [hgroups]
    exact List.append_ne_nil_of_right_ne_nil _ (List.cons_ne_nil _ _)

theorem Ipv6Addr.segments_of_mapped {ip : Ipv6Addr} {ipv4 : Ipv4Addr}
    (h : ip.toIpv4Mapped = some ipv4) :
    ∃ ab cd : UInt16, ip.segments = [0, 0, 0, 0, 0, 0xffff, ab, cd] ∧
      ipv4 = ⟨UInt8.ofNat (ab.toNat / 256), UInt8.ofNat (ab.toNat % 256),
        UInt8.ofNat (cd.toNat / 256), UInt8.ofNat (cd.toNat % 256)⟩ := by
  unfold Ipv6Addr.toIpv4Mapped at h
  split at h
  next s₀ s₁ s₂ s₃ s₄ s₅ ab cd hsegments =>
    by_cases hzero : s₀ = 0 ∧ s₁ = 0 ∧ s₂ = 0 ∧ s₃ = 0 ∧ s₄ = 0 ∧ s₅ = 0xffff
    · rw [if_pos hzero] at h
      obtain ⟨rfl, rfl, rfl, rfl, rfl, rfl⟩ := hzero
      exact ⟨ab, cd, hsegments, (Option.some.inj h).symm⟩
    · rw [if_neg hzero] at h
      cases h
  next => cases h

/-- Two bytes tell a segment. -/
theorem segment_eq {s s' : UInt16}
    (hhigh : UInt8.ofNat (s.toNat / 256) = UInt8.ofNat (s'.toNat / 256))
    (hlow : UInt8.ofNat (s.toNat % 256) = UInt8.ofNat (s'.toNat % 256)) : s = s' := by
  have h1 := congrArg UInt8.toNat hhigh
  have h2 := congrArg UInt8.toNat hlow
  have hs := s.toNat_lt
  have hs' := s'.toNat_lt
  simp only [UInt8.toNat_ofNat'] at h1 h2
  apply UInt16.toNat_inj.mp
  omega

/-- An IPv4 address is mapped to one address. -/
theorem Ipv6Addr.toIpv4Mapped_inj {ip ip' : Ipv6Addr} {ipv4 : Ipv4Addr}
    (h : ip.toIpv4Mapped = some ipv4) (h' : ip'.toIpv4Mapped = some ipv4) : ip = ip' := by
  obtain ⟨ab, cd, hsegments, rfl⟩ := segments_of_mapped h
  obtain ⟨ab', cd', hsegments', heq⟩ := segments_of_mapped h'
  simp only [Ipv4Addr.mk.injEq] at heq
  obtain ⟨ha, hb, hc, hd⟩ := heq
  have hab := segment_eq ha hb
  have hcd := segment_eq hc hd
  subst hab hcd
  cases ip
  cases ip'
  simp only [Ipv6Addr.mk.injEq]
  exact hsegments.trans hsegments'.symm

/-! ### Addresses -/

/-- The characters of the text of an address. -/
def alphabet : List Char := '.' :: ':' :: hexDigits

theorem Ipv4Addr.mem_text {ip : Ipv4Addr} {c : Char} (hc : c ∈ ip.text) :
    c = '.' ∨ c ∈ hexDigits := by
  rcases Separated.mem_intercalate hc with hdot | ⟨l, hl, hc⟩
  · exact .inl hdot
  · refine .inr ?_
    simp only [List.mem_cons, List.not_mem_nil, or_false] at hl
    rcases hl with rfl | rfl | rfl | rfl
    · exact mem_decimal hc
    · exact mem_decimal hc
    · exact mem_decimal hc
    · exact mem_decimal hc

theorem Ipv4Addr.colon_notMem_text (ip : Ipv4Addr) : ':' ∉ ip.text := by
  intro hcolon
  rcases Ipv4Addr.mem_text hcolon with hdot | hmem
  · exact absurd hdot (by decide)
  · exact colon_notMem_hexDigits hmem

theorem Ipv4Addr.dot_mem_text (ip : Ipv4Addr) : '.' ∈ ip.text := by
  simp [Ipv4Addr.text]

theorem Ipv6Addr.mem_text {ip : Ipv6Addr} (h : ip.toIpv4Mapped = none) {c : Char}
    (hc : c ∈ ip.text) : c = ':' ∨ c ∈ hexDigits := by
  rw [Ipv6Addr.text_eq h] at hc
  rcases Separated.mem_intercalate hc with hcolon | ⟨l, hl, hc⟩
  · exact .inl hcolon
  · exact .inr (Ipv6Addr.mem_groups hl hc)

theorem Ipv6Addr.dot_notMem_text {ip : Ipv6Addr} (h : ip.toIpv4Mapped = none) : '.' ∉ ip.text := by
  intro hdot
  rcases Ipv6Addr.mem_text h hdot with hcolon | hmem
  · exact absurd hcolon (by decide)
  · exact dot_notMem_hexDigits hmem

theorem Ipv6Addr.text_mapped {ip : Ipv6Addr} {ipv4 : Ipv4Addr} (h : ip.toIpv4Mapped = some ipv4) :
    ip.text = "::ffff:".toList ++ ipv4.text := by
  unfold Ipv6Addr.text
  rw [h]

/-- The text tells the address. -/
theorem IpAddr.text_injective : Function.Injective IpAddr.text := by
  -- an IPv6 text with a dot has a colon before it
  have hkinds : ∀ (ipv4 : Ipv4Addr) (ip : Ipv6Addr), ipv4.text ≠ ip.text := by
    intro ipv4 ip h
    rcases hmapped : ip.toIpv4Mapped with - | ipv4'
    · exact Ipv6Addr.dot_notMem_text hmapped (h ▸ ipv4.dot_mem_text)
    · rw [Ipv6Addr.text_mapped hmapped] at h
      exact ipv4.colon_notMem_text (h ▸ List.mem_append_left _ (by decide))
  -- only a mapped address is written with a dot
  have hmaps : ∀ {ip ip' : Ipv6Addr} {ipv4 : Ipv4Addr}, ip.toIpv4Mapped = some ipv4 →
      ip'.toIpv4Mapped = none → ip.text ≠ ip'.text := by
    intro ip ip' ipv4 h h' heq
    apply Ipv6Addr.dot_notMem_text h'
    rw [← heq, Ipv6Addr.text_mapped h]
    exact List.mem_append_right _ ipv4.dot_mem_text
  rintro (ip | ip) (ip' | ip') h
  · exact congrArg IpAddr.v4 (Ipv4Addr.text_injective h)
  · exact absurd h (hkinds ip ip')
  · exact absurd h.symm (hkinds ip' ip)
  · apply congrArg IpAddr.v6
    have htext : ip.text = ip'.text := h
    rcases hmapped : ip.toIpv4Mapped with - | ipv4
    · rcases hmapped' : ip'.toIpv4Mapped with - | ipv4'
      · rw [Ipv6Addr.text_eq hmapped, Ipv6Addr.text_eq hmapped'] at htext
        exact Ipv6Addr.groups_injective (Separated.intercalate_inj_of_ne_nil
          (fun l hl => Ipv6Addr.colon_notMem_groups hl)
          (fun l hl => Ipv6Addr.colon_notMem_groups hl) ip.groups_ne_nil ip'.groups_ne_nil htext)
      · exact absurd htext.symm (hmaps hmapped' hmapped)
    · rcases hmapped' : ip'.toIpv4Mapped with - | ipv4'
      · exact absurd htext (hmaps hmapped hmapped')
      · rw [Ipv6Addr.text_mapped hmapped, Ipv6Addr.text_mapped hmapped'] at htext
        have hsame := Ipv4Addr.text_injective (List.append_cancel_left htext)
        subst hsame
        exact Ipv6Addr.toIpv4Mapped_inj hmapped hmapped'

theorem IpAddr.mem_text {ip : IpAddr} {c : Char} (hc : c ∈ ip.text) : c ∈ alphabet := by
  have hipv4 : ∀ ipv4 : Ipv4Addr, c ∈ ipv4.text → c ∈ alphabet := by
    intro ipv4 hc
    rcases Ipv4Addr.mem_text hc with rfl | hmem
    · exact List.mem_cons_self
    · exact List.mem_cons_of_mem _ (List.mem_cons_of_mem _ hmem)
  cases ip with
  | v4 ip => exact hipv4 ip hc
  | v6 ip =>
      have hc : c ∈ ip.text := hc
      rcases hmapped : ip.toIpv4Mapped with - | ipv4
      · rcases Ipv6Addr.mem_text hmapped hc with rfl | hmem
        · exact List.mem_cons_of_mem _ List.mem_cons_self
        · exact List.mem_cons_of_mem _ (List.mem_cons_of_mem _ hmem)
      · rw [Ipv6Addr.text_mapped hmapped] at hc
        rcases List.mem_append.mp hc with hc | hc
        · have hall : "::ffff:".toList.all (· ∈ alphabet) = true := by decide
          exact of_decide_eq_true (List.all_eq_true.mp hall c hc)
        · exact hipv4 ipv4 hc

theorem IpAddr.text_ne_nil (ip : IpAddr) : ip.text ≠ [] := by
  cases ip with
  | v4 ip => exact List.ne_nil_of_mem ip.dot_mem_text
  | v6 ip =>
      show ip.text ≠ []
      rcases hmapped : ip.toIpv4Mapped with - | ipv4
      · rw [Ipv6Addr.text_eq hmapped]
        intro hnil
        have hlone : ip.groups = [[]] := Separated.intercalate_inj_of_ne_nil
          (fun l hl => Ipv6Addr.colon_notMem_groups hl)
          (fun l hl => by rw [List.mem_singleton.mp hl]; exact List.not_mem_nil)
          ip.groups_ne_nil (List.cons_ne_nil _ _) hnil
        rcases ip.groups_cases with hall | ⟨front, back, k, hgroups, -⟩
        · have hlen := congrArg List.length (hall.symm.trans hlone)
          rw [List.length_map, ip.length_segments] at hlen
          cases hlen
        · have hlen := congrArg List.length (hgroups.symm.trans hlone)
          have hfront := List.length_pos_iff.mpr (padded_ne_nil front)
          simp only [Net.groups, List.length_append, List.length_cons, List.length_nil] at hlen
          omega
      · rw [Ipv6Addr.text_mapped hmapped]
        exact List.append_ne_nil_of_left_ne_nil (by decide) _

end Net
