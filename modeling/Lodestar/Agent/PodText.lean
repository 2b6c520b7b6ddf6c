import Lodestar.Agent.PodIds
import Lodestar.Agent.RoundTrip
import Lodestar.Lib.Scan

/-!
# The addresses in the text of a message

`extract_pod_ips_from_content` finds the addresses of pods in a text by three regular expressions,
and `replace_pod_ip_with_generalpodid` replaces them by the names of the pods in a single pass, the
longest address first (`agent_codes/utils.py`).  A run of digits cannot be cut where a point, a quote
or the end of a word follows, so each of the expressions has at most one match at a place.
-/

namespace Lodestar.Agent

open Lib List

/-- The characters of Python: what `str.strip` takes for a space and `\w` for a part of a word. -/
structure Characters extends Digits where
  isSpace : Char → Bool
  isWord : Char → Bool
  isSpace_ascii : ∀ c : Char, c.toNat < 128 →
    isSpace c = (c.toNat = 32 || 9 ≤ c.toNat && c.toNat ≤ 13 || 28 ≤ c.toNat && c.toNat ≤ 31)
  isSpace_isDigit : ∀ c, isSpace c = true → isDigit c = false
  isWord_ascii : ∀ c : Char, c.toNat < 128 → isWord c = (c.isAlphanum || c = '_')

def Characters.ascii : Characters where
  toDigits := .ascii
  isSpace c := c.toNat = 32 || 9 ≤ c.toNat && c.toNat ≤ 13 || 28 ≤ c.toNat && c.toNat ≤ 31
  isWord c := c.isAlphanum || c = '_'
  isSpace_ascii _ _ := rfl
  isSpace_isDigit c h := by
    show c.isDigit = false
    rw [Bool.eq_false_iff]
    intro hdigit
    obtain ⟨h₁, h₂⟩ := Char.isDigit_iff_toNat.mp hdigit
    have hlow : '0'.toNat = 48 := by decide
    simp only [Bool.or_eq_true, Bool.and_eq_true, decide_eq_true_eq] at h
    omega
  isWord_ascii _ _ := rfl

section

variable (py : Characters)

/-- `\d`. -/
def decimal (c : Char) : Bool := (py.value c).isSome

/-- `\d{1,3}` where no digit follows, and the rest of the text. -/
def digitGroup (t : Text) : Option (Text × Text) :=
  let digits := t.takeWhile (decimal py)
  if 1 ≤ digits.length ∧ digits.length ≤ 3 then some (digits, t.drop digits.length) else none

/-- `\.` and the next group. -/
def pointGroup : Text → Option (Text × Text)
  | '.' :: t => (digitGroup py t).map fun (digits, rest) => ('.' :: digits, rest)
  | _ => none

def ipv4 (t : Text) : Option (Text × Text) := do
  let (a, t) ← digitGroup py t
  let (b, t) ← pointGroup py t
  let (c, t) ← pointGroup py t
  let (d, t) ← pointGroup py t
  some (a ++ b ++ c ++ d, t)

def selectedpodPattern : Matcher Char PodIP := fun _ t =>
  if "selectedpod@".toList.isPrefixOf t then
    match ipv4 py (t.drop 12) with
    | some (ip, '@' :: _) => some (ip, 12 + ip.length)
    | _ => none
  else none

def jsonIpPattern : Matcher Char PodIP := fun _ t =>
  match t with
  | '"' :: t =>
    match ipv4 py t with
    | some (ip, '"' :: ':' :: _) => some (ip, ip.length + 2)
    | _ => none
  | _ => none

def generalIpPattern : Matcher Char PodIP := fun prev t =>
  if prev.any py.isWord then none
  else
    match ipv4 py t with
    | some (ip, rest) => if rest.head?.any py.isWord then none else some (ip, ip.length - 1)
    | none => none

def validIp (ip : PodIP) : Bool :=
  (ip.splitOn '.').length = 4 && (ip.splitOn '.').all fun part =>
    !isdigit py.toDigits part || (natValue py.toDigits part).any (· ≤ 255)

/-- `extract_pod_ips_from_content`. -/
def extractPodIps (content : Text) : List PodIP :=
  let selectedpodMatches := findAll (selectedpodPattern py) content
  let jsonIpMatches := findAll (jsonIpPattern py) content
  let podLikeIps := (findAll (generalIpPattern py) content).filter ("10.".toList.isPrefixOf ·)
  ((selectedpodMatches ++ jsonIpMatches ++ podLikeIps).filter (validIp py)).dedup

end

/-- The pattern that has the addresses as its alternatives. -/
def ipPattern (ips : List PodIP) : Matcher Char PodIP := fun _ t =>
  (ips.find? fun ip => ip.isPrefixOf t).map fun ip => (ip, ip.length - 1)

/-- The pieces of a text that are addresses, and the characters between them. -/
def pieces (ips : List PodIP) (t : Text) : Content :=
  (scan (ipPattern ips) 0 none t).map (Sum.elim (fun c => .text [c]) .podIp)

/-- `pattern.sub`: the addresses are replaced by the names. -/
def rewrite (ids : AList fun _ : PodIP => GeneralPodId) (podIps : List PodIP) (t : Text) : Text :=
  let replaceable := podIps.insertionSort fun ip ip' => ip'.length ≤ ip.length
  (substitute ids (pieces replaceable t)).flatten

variable {py : Characters} {t rest : Text} {ip : PodIP} {c : Char}
  {ids : AList fun _ : PodIP => GeneralPodId} {ips podIps : List PodIP}

/-! ### Addresses -/

/-- A text in the form of an address: three points between groups of digits. -/
structure IpText (py : Characters) (ip : PodIP) : Prop where
  chars : ∀ c ∈ ip, decimal py c = true ∨ c = '.'
  points : ip.count '.' = 3
  head : ∃ c ∈ ip.head?, decimal py c = true

lemma decimal_ascii (h : c.toNat < 128) : decimal py c = c.isDigit := by
  rw [decimal, Bool.eq_iff_iff, Option.isSome_iff_exists]
  constructor
  · rintro ⟨d, hd⟩
    rw [← py.isDigit_ascii c h]
    exact py.isDigit_of_value c d hd
  · exact fun hc => ⟨_, py.value_ascii c hc⟩

lemma digitGroup_spec {digits : Text} (h : digitGroup py t = some (digits, rest)) :
    t = digits ++ rest ∧ digits ≠ [] ∧ ∀ c ∈ digits, decimal py c = true := by
  unfold digitGroup at h
  dsimp only at h
  split at h
  · rename_i hlen
    obtain ⟨rfl, rfl⟩ := Prod.mk.inj (Option.some.inj h)
    refine ⟨?_, ne_nil_of_length_pos hlen.1, fun c hc => mem_takeWhile_imp hc⟩
    exact (prefix_iff_eq_append.mp ( takeWhile_prefix _)).symm
  · simp at h

lemma pointGroup_spec {group : Text} (h : pointGroup py t = some (group, rest)) :
    t = group ++ rest ∧ ∃ digits, group = '.' :: digits ∧ ∀ c ∈ digits, decimal py c = true := by
  unfold pointGroup at h
  split at h
  · obtain ⟨⟨digits, rest'⟩, hdigits, heq⟩ := Option.map_eq_some_iff.mp h
    obtain ⟨rfl, rfl⟩ := Prod.mk.inj heq
    obtain ⟨rfl, -, hall⟩ := digitGroup_spec hdigits
    exact ⟨rfl, digits, rfl, hall⟩
  · simp at h

lemma count_point_of_decimal {digits : Text} (h : ∀ c ∈ digits, decimal py c = true) :
    digits.count '.' = 0 := by
  refine count_eq_zero.mpr fun hmem => ?_
  have hpoint := h '.' hmem
  rw [decimal_ascii (by decide)] at hpoint
  exact absurd hpoint (by decide)

lemma ipv4_spec (h : ipv4 py t = some (ip, rest)) : t = ip ++ rest ∧ IpText py ip := by
  simp only [ipv4, Option.bind_eq_bind, Option.bind_eq_some_iff, Prod.exists] at h
  obtain ⟨a, t₁, ha, b, t₂, hb, c, t₃, hc, d, t₄, hd, rfl, rfl⟩ := h
  obtain ⟨rfl, hne, hda⟩ := digitGroup_spec ha
  obtain ⟨rfl, b, rfl, hdb⟩ := pointGroup_spec hb
  obtain ⟨rfl, c, rfl, hdc⟩ := pointGroup_spec hc
  obtain ⟨rfl, d, rfl, hdd⟩ := pointGroup_spec hd
  refine ⟨by simp, ?_, ?_, ?_⟩
  · intro x hx
    simp only [mem_append, mem_cons] at hx
    rcases hx with ((hx | rfl | hx) | rfl | hx) | rfl | hx
    · exact .inl (hda x hx)
    · exact .inr rfl
    · exact .inl (hdb x hx)
    · exact .inr rfl
    · exact .inl (hdc x hx)
    · exact .inr rfl
    · exact .inl (hdd x hx)
  · simp [count_point_of_decimal hda, count_point_of_decimal hdb, count_point_of_decimal hdc,
      count_point_of_decimal hdd]
  · obtain ⟨x, a, rfl⟩ := exists_cons_of_ne_nil hne
    exact ⟨x, rfl, hda x mem_cons_self⟩

lemma IpText.ne_nil (h : IpText py ip) : ip ≠ [] := by
  obtain ⟨c, hc, -⟩ := h.head
  rintro rfl
  simp at hc

/-- A character of a text that is not part of an address. -/
def Separates (py : Characters) (c : Char) : Prop := decimal py c = false ∧ c ≠ '.'

lemma separates_ascii (h : c.toNat < 128 ∧ c.isDigit = false ∧ c ≠ '.') : Separates py c :=
  ⟨(decimal_ascii h.1).trans h.2.1, h.2.2⟩

lemma IpText.notMem (h : IpText py ip) (hc : Separates py c) : c ∉ ip := fun hmem => by
  rcases h.chars c hmem with hdecimal | hpoint
  · exact Bool.false_ne_true (hc.1.symm.trans hdecimal)
  · exact hc.2 hpoint

lemma digitGroup_append {digits : Text} (hc : decimal py c = false)
    (h : digitGroup py t = some (digits, rest)) (u : Text) :
    digitGroup py (t ++ c :: u) = some (digits, rest ++ c :: u) := by
  have htake : ∀ l : Text, (l ++ c :: u).takeWhile (decimal py) = l.takeWhile (decimal py) := by
    intro l
    induction l with
    | nil => simp [hc]
    | cons d l ih =>
      rw [cons_append, takeWhile_cons, takeWhile_cons, ih]
  unfold digitGroup at h ⊢
  dsimp only at h ⊢
  rw [htake]
  split at h
  · rename_i hlen
    obtain ⟨rfl, rfl⟩ := Prod.mk.inj (Option.some.inj h)
    rw [if_pos hlen, drop_append_of_le_length]
    exact ( takeWhile_prefix _).length_le
  · simp at h

lemma pointGroup_append {group : Text} (hc : decimal py c = false)
    (h : pointGroup py t = some (group, rest)) (u : Text) :
    pointGroup py (t ++ c :: u) = some (group, rest ++ c :: u) := by
  unfold pointGroup at h
  split at h
  · obtain ⟨⟨digits, rest'⟩, hdigits, heq⟩ := Option.map_eq_some_iff.mp h
    obtain ⟨rfl, rfl⟩ := Prod.mk.inj heq
    rw [cons_append, pointGroup, digitGroup_append hc hdigits]
    rfl
  · simp at h

lemma ipv4_append (hc : decimal py c = false) (h : ipv4 py t = some (ip, rest)) (u : Text) :
    ipv4 py (t ++ c :: u) = some (ip, rest ++ c :: u) := by
  simp only [ipv4, Option.bind_eq_bind, Option.bind_eq_some_iff, Option.some.injEq,
    Prod.mk.injEq, Prod.exists] at h ⊢
  obtain ⟨a, t₁, ha, b, t₂, hb, c, t₃, hc', d, t₄, hd, heq, rfl⟩ := h
  exact ⟨a, _, digitGroup_append hc ha u, b, _, pointGroup_append hc hb u, c, _,
    pointGroup_append hc hc' u, d, _, pointGroup_append hc hd u, heq, rfl⟩

/-! ### Finding addresses -/

structure PodAddress (py : Characters) (ip : PodIP) : Prop where
  reads : ipv4 py ip = some (ip, [])
  valid : validIp py ip = true

lemma PodAddress.ipText (h : PodAddress py ip) : IpText py ip := (ipv4_spec h.reads).2

lemma separates_quote : Separates py '"' := separates_ascii (by decide)

lemma separates_colon : Separates py ':' := separates_ascii (by decide)

lemma jsonIpPattern_spec {prev : Option Char} {more : ℕ}
    (h : jsonIpPattern py prev t = some (ip, more)) :
    (∃ u, t = '"' :: (ip ++ '"' :: ':' :: u)) ∧ IpText py ip ∧ more = ip.length + 2 := by
  unfold jsonIpPattern at h
  split at h
  · split at h
    · rename_i ip' u hread
      obtain ⟨rfl, rfl⟩ := Prod.mk.inj (Option.some.inj h)
      obtain ⟨rfl, hip⟩ := ipv4_spec hread
      exact ⟨⟨u, rfl⟩, hip, rfl⟩
    · simp at h
  · simp at h

lemma jsonIpPattern_key (h : PodAddress py ip) (prev : Option Char) (u : Text) :
    jsonIpPattern py prev ('"' :: (ip ++ '"' :: ':' :: u)) = some (ip, ip.length + 2) := by
  simp [jsonIpPattern, ipv4_append separates_quote.1 h.reads]

lemma jsonIpPattern_before (h : IpText py ip) {prev : Option Char} {a u : Text} {x : PodIP} {k : ℕ}
    (hne : a ≠ []) (hm : jsonIpPattern py prev (a ++ '"' :: (ip ++ '"' :: ':' :: u)) = some (x, k)) :
    k < a.length := by
  obtain ⟨⟨v, hv⟩, hx, rfl⟩ := jsonIpPattern_spec hm
  -- the quote before the key is not the end of the match, for a digit follows and not a colon
  have hhead : ∀ w, ip ++ '"' :: ':' :: u ≠ ':' :: w := by
    intro w heq
    obtain ⟨c, hc, hdecimal⟩ := h.head
    obtain ⟨d, ip', rfl⟩ := exists_cons_of_ne_nil h.ne_nil
    obtain rfl : d = c := by simpa using hc
    obtain rfl := (List.cons.inj heq).1
    exact Bool.false_ne_true (separates_colon.1.symm.trans hdecimal)
  obtain ⟨c, a, rfl⟩ := exists_cons_of_ne_nil hne
  have heq := (List.cons.inj hv).2
  rcases append_eq_append_iff.mp heq with ⟨w, rfl, hw⟩ | ⟨w, rfl, hw⟩
  · cases w with
    | nil => exact absurd (List.cons.inj hw).2 (hhead v)
    | cons d w =>
      obtain rfl := (List.cons.inj hw).1
      exact absurd (mem_append_right a mem_cons_self) (hx.notMem separates_quote)
  · cases w with
    | nil => exact absurd (List.cons.inj hw).2.symm (hhead v)
    | cons d w =>
      cases w with
      | nil => simp at hw
      | cons e w =>
        simp only [length_cons, length_append]
        omega

lemma mem_extractPodIps (h : PodAddress py ip) {content : Text}
    (hkey : '"' :: (ip ++ ['"', ':']) <:+: content) : ip ∈ extractPodIps py content := by
  obtain ⟨pre, u, rfl⟩ := hkey
  have htext : pre ++ '"' :: (ip ++ ['"', ':']) ++ u = pre ++ '"' :: (ip ++ '"' :: ':' :: u) := by simp
  rw [htext]
  have hfound : ip ∈ findAll (jsonIpPattern py) (pre ++ '"' :: (ip ++ '"' :: ':' :: u)) := by
    refine mem_findAll.mpr (mem_scan_of_match (by simp) (fun prev => jsonIpPattern_key h prev u) ?_
      (Nat.zero_le _) none)
    exact fun prev a x k hne _ hm => jsonIpPattern_before h.ipText hne hm
  simp only [extractPodIps, mem_dedup, mem_filter, mem_append]
  exact ⟨.inl (.inr hfound), h.valid⟩

lemma ipText_of_mem {content : Text} (h : ip ∈ extractPodIps py content) : IpText py ip := by
  simp only [extractPodIps, mem_dedup, mem_filter, mem_append, mem_findAll] at h
  rcases h.1 with (hfound | hfound) | ⟨hfound, -⟩
  · obtain ⟨prev, t, more, -, hm⟩ := exists_match_of_mem_scan hfound
    unfold selectedpodPattern at hm
    split at hm
    · split at hm
      · rename_i hread
        obtain ⟨rfl, -⟩ := Prod.mk.inj (Option.some.inj hm)
        exact (ipv4_spec hread).2
      · simp at hm
    · simp at hm
  · obtain ⟨prev, t, more, -, hm⟩ := exists_match_of_mem_scan hfound
    exact (jsonIpPattern_spec hm).2.1
  · obtain ⟨prev, t, more, -, hm⟩ := exists_match_of_mem_scan hfound
    unfold generalIpPattern at hm
    split at hm
    · simp at hm
    · split at hm
      · rename_i hread
        split at hm
        · simp at hm
        · obtain ⟨rfl, -⟩ := Prod.mk.inj (Option.some.inj hm)
          exact (ipv4_spec hread).2
      · simp at hm

/-! ### Replacing addresses -/

section

lemma prefix_append_cons_iff (hc : c ∉ ip) (a b : Text) : ip <+: a ++ c :: b ↔ ip <+: a := by
  constructor
  · intro h
    rcases prefix_or_prefix_of_prefix h (prefix_append a (c :: b)) with ha | ⟨w, rfl⟩
    · exact ha
    · rw [prefix_append_right_inj] at h
      cases w with
      | nil => simp
      | cons d w =>
        obtain rfl := (cons_prefix_cons.mp h).1
        exact absurd (mem_append_right a mem_cons_self) hc
  · exact fun h => h.trans (prefix_append _ _)

lemma ipPattern_barrier (hips : ∀ ip ∈ ips, IpText py ip) (hc : Separates py c) :
    Barrier (ipPattern ips) c where
  stops prev a b := by
    have hfind : ips.find? (fun ip => ip.isPrefixOf (a ++ c :: b)) =
        ips.find? fun ip => ip.isPrefixOf a := by
      refine find?_congr fun ip hip => ?_
      rw [Bool.eq_iff_iff, isPrefixOf_iff_prefix, isPrefixOf_iff_prefix,
        prefix_append_cons_iff ((hips ip hip).notMem hc)]
    rw [ipPattern, ipPattern, hfind]
  covers prev a found more h := by
    obtain ⟨ip, hfind, heq⟩ := Option.map_eq_some_iff.mp h
    obtain ⟨rfl, rfl⟩ := Prod.mk.inj heq
    have hstart := find?_some hfind
    have hle := ( isPrefixOf_iff_prefix.mp hstart).length_le
    have hpos := length_pos_of_ne_nil (hips ip (mem_of_find?_eq_some hfind)).ne_nil
    omega

lemma rewrite_eq : rewrite ids podIps t =
    (scan (ipPattern (podIps.insertionSort fun ip ip' => ip'.length ≤ ip.length)) 0 none t).flatMap
      (Sum.elim (fun c => [c]) fun ip => (ids.lookup ip).getD ip) := by
  rw [rewrite, pieces, substitute, map_map]
  congr 2
  funext x
  cases x <;> rfl

lemma mem_sorted : ip ∈ podIps.insertionSort (fun ip ip' => ip'.length ≤ ip.length) ↔ ip ∈ podIps :=
  mem_insertionSort _

variable (hips : ∀ ip ∈ podIps, IpText py ip)
include hips

lemma rewrite_append_cons (hc : Separates py c) (a b : Text) :
    rewrite ids podIps (a ++ c :: b) = rewrite ids podIps a ++ c :: rewrite ids podIps b := by
  have hbarrier := ipPattern_barrier (fun ip hip => hips ip (mem_sorted.mp hip)) hc
  rw [rewrite_eq, rewrite_eq, rewrite_eq, scan_append_cons hbarrier (Nat.zero_le _),
    flatMap_append, scan_congr (fun _ _ _ => rfl) 0 (some c) none]
  rfl

lemma rewrite_cons (hc : Separates py c) (b : Text) :
    rewrite ids podIps (c :: b) = c :: rewrite ids podIps b :=
  rewrite_append_cons hips hc [] b

omit hips in
lemma rewrite_eq_or_infix : rewrite ids podIps t = t ∨ ∃ ip ∈ podIps, ip <:+: t ∧
    (ids.lookup ip).getD ip ⊆ rewrite ids podIps t := by
  by_cases h : ∃ ip, .inr ip ∈
      scan (ipPattern (podIps.insertionSort fun ip ip' => ip'.length ≤ ip.length)) 0 none t
  · obtain ⟨ip, hfound⟩ := h
    obtain ⟨prev, u, more, hu, hm⟩ := exists_match_of_mem_scan hfound
    obtain ⟨ip', hfind, heq⟩ := Option.map_eq_some_iff.mp hm
    obtain ⟨rfl, -⟩ := Prod.mk.inj heq
    have hstart := find?_some hfind
    refine .inr ⟨ip', mem_sorted.mp (mem_of_find?_eq_some hfind), ?_, ?_⟩
    · exact ( isPrefixOf_iff_prefix.mp hstart).isInfix.trans hu.isInfix
    · intro c hc
      rw [rewrite_eq]
      exact mem_flatMap.mpr ⟨_, hfound, hc⟩
  · push Not at h
    refine .inl ?_
    rw [rewrite_eq, scan_eq_map h, flatMap_map]
    simp

omit hips in
lemma mem_of_mem_rewrite (h : c ∈ rewrite ids podIps t) :
    c ∈ t ∨ ∃ ip ∈ podIps, c ∈ (ids.lookup ip).getD ip := by
  rw [rewrite_eq] at h
  obtain ⟨x, hx, hc⟩ := mem_flatMap.mp h
  cases x with
  | inl d =>
    obtain rfl : c = d := List.mem_singleton.mp hc
    exact .inl (mem_of_inl_mem_scan hx)
  | inr ip =>
    obtain ⟨prev, u, more, -, hm⟩ := exists_match_of_mem_scan hx
    obtain ⟨ip', hfind, heq⟩ := Option.map_eq_some_iff.mp hm
    obtain ⟨rfl, -⟩ := Prod.mk.inj heq
    exact .inr ⟨ip', mem_sorted.mp (mem_of_find?_eq_some hfind), hc⟩

lemma rewrite_of_count_lt (h : t.count '.' < 3) : rewrite ids podIps t = t := by
  rcases rewrite_eq_or_infix with heq | ⟨ip, hip, hinfix, -⟩
  · exact heq
  · have hle := hinfix.sublist.count_le '.'
    rw [(hips ip hip).points] at hle
    omega

/-- **An address is replaced as a whole**: no longer one starts at the same place. -/
lemma rewrite_ip (hip : ip ∈ podIps) : rewrite ids podIps ip = (ids.lookup ip).getD ip := by
  have hsorted : (podIps.insertionSort fun ip ip' => ip'.length ≤ ip.length).Pairwise
      fun ip ip' => ip'.length ≤ ip.length := pairwise_insertionSort _ _
  have hfind : (podIps.insertionSort fun ip ip' => ip'.length ≤ ip.length).find?
      (fun ip' => ip'.isPrefixOf ip) = some ip := by
    cases hfound : (podIps.insertionSort fun ip ip' => ip'.length ≤ ip.length).find?
        (fun ip' => ip'.isPrefixOf ip) with
    | none =>
      exact absurd ( isPrefixOf_iff_prefix.mpr prefix_rfl)
        (find?_eq_none.mp hfound ip (mem_sorted.mpr hip))
    | some ip' =>
      obtain ⟨hstart, before, after, hsplit, hbefore⟩ := find?_eq_some_iff_append.mp hfound
      have hle : ip.length ≤ ip'.length := by
        have hmem := mem_sorted.mpr hip
        rw [hsplit] at hmem hsorted
        rcases mem_append.mp hmem with hmem | hmem
        · exact absurd ( isPrefixOf_iff_prefix.mpr prefix_rfl) (by simpa using hbefore ip hmem)
        · rcases mem_cons.mp hmem with rfl | hmem
          · exact le_rfl
          · exact (pairwise_cons.mp (pairwise_append.mp hsorted).2.1).1 ip hmem
      rw [( isPrefixOf_iff_prefix.mp hstart).eq_of_length_le hle]
  have hmatch : ∀ prev, ipPattern (podIps.insertionSort fun ip ip' => ip'.length ≤ ip.length) prev ip =
      some (ip, ip.length - 1) := fun prev => by rw [ipPattern, hfind]; rfl
  obtain ⟨c, l, rfl⟩ := exists_cons_of_ne_nil (hips ip hip).ne_nil
  rw [rewrite_eq, scan_cons_some (hmatch none), scan_of_length_le (by simp)]
  simp

omit hips in
lemma intercalate_cons_cons (c : Char) (p q : Text) (parts : List Text) :
    [c].intercalate (p :: q :: parts) = p ++ c :: [c].intercalate (q :: parts) := by
  simp [List.intercalate]

lemma rewrite_intercalate (hc : Separates py c) (parts : List Text) :
    rewrite ids podIps ([c].intercalate parts) = [c].intercalate (parts.map (rewrite ids podIps)) := by
  induction parts with
  | nil => exact rewrite_of_count_lt hips (by simp)
  | cons p parts ih =>
    cases parts with
    | nil => simp
    | cons q parts =>
      rw [intercalate_cons_cons, rewrite_append_cons hips hc, ih]
      exact (intercalate_cons_cons c _ _ _).symm

end

/-! ### Replacing the addresses of a message -/

section

def PlainNames (ids : AList fun _ : PodIP => GeneralPodId) : Prop :=
  ∀ ip id, ids.lookup ip = some id → ∀ c ∈ id, plainChar c = true

def podName (ids : AList fun _ : PodIP => GeneralPodId) (hplain : PlainNames ids) (ip : PlainText) :
    PlainText :=
  ⟨(ids.lookup ip.1).getD ip.1, by
    cases hid : ids.lookup ip.1 with
    | none => exact ip.2
    | some id => exact hplain ip.1 id hid⟩

def PodMap.rename (f : PlainText → PlainText) (m : PodMap) : PodMap :=
  (m.entries.map fun e => ⟨f e.1, e.2⟩ : List (Sigma fun _ : PlainText => Scalar)).toAList

variable {f : PlainText → PlainText} {m : PodMap}

lemma PodMap.entries_rename (hinj : Set.InjOn f {k | k ∈ m.keys}) :
    (m.rename f).entries = m.entries.map fun e => ⟨f e.1, e.2⟩ := by
  have hdedup : ∀ l : List (Sigma fun _ : PlainText => Scalar), l.NodupKeys → l.dedupKeys = l := by
    intro l hl
    induction l with
    | nil => rfl
    | cons e l ih =>
      obtain ⟨hnew, hl⟩ := nodupKeys_cons.mp hl
      rw [dedupKeys_cons, kinsert_def, ih hl, kerase_of_notMem_keys hnew]
  refine hdedup _ ?_
  rw [List.NodupKeys, List.keys, map_map]
  have hkeys : m.entries.map (Sigma.fst ∘ fun e => (⟨f e.1, e.2⟩ : Sigma fun _ : PlainText => Scalar)) =
      m.keys.map f := by
    rw [AList.keys, List.keys, map_map]
    rfl
  rw [hkeys]
  exact (nodup_map_iff_inj_on m.keys_nodup).mpr fun x hx y hy => hinj hx hy

lemma PodMap.finite_rename (hinj : Set.InjOn f {k | k ∈ m.keys}) :
    (m.rename f).finite = m.finite := by
  rw [finite, entries_rename hinj, all_map]
  rfl

variable {hplain : PlainNames ids}

/-- A map of pods by address, with values that cannot be taken for addresses. -/
structure PodMap.ByAddress (py : Characters) (m : PodMap) : Prop where
  finite : m.finite = true
  keys : ∀ k ∈ m.keys, PodAddress py k.1
  values : ∀ e ∈ m.entries, e.2.text.count '.' < 3

variable (hips : ∀ ip ∈ podIps, IpText py ip)
include hips

lemma rewrite_entryText {e : Sigma fun _ : PlainText => Scalar} (hkey : e.1.1 ∈ podIps)
    (hvalue : e.2.text.count '.' < 3) :
    rewrite ids podIps (PodMap.entryText e) = PodMap.entryText ⟨podName ids hplain e.1, e.2⟩ := by
  have hsplit : PodMap.entryText e = '"' :: (e.1.1 ++ '"' :: ':' :: e.2.text) := by
    simp [PodMap.entryText]
  rw [hsplit, rewrite_cons hips separates_quote, rewrite_append_cons hips separates_quote,
    rewrite_cons hips separates_colon, rewrite_ip hips hkey, rewrite_of_count_lt hips hvalue]
  simp [PodMap.entryText, podName]

/-- **In a map the keys are renamed**, and nothing else changes. -/
lemma rewrite_jsonStringify (hm : m.ByAddress py) (hkeys : ∀ k ∈ m.keys, k.1 ∈ podIps)
    (hinj : Set.InjOn (podName ids hplain) {k | k ∈ m.keys}) :
    rewrite ids podIps m.jsonStringify = (m.rename (podName ids hplain)).jsonStringify := by
  have hentries : m.entries.map (fun e => rewrite ids podIps (PodMap.entryText e)) =
      (m.rename (podName ids hplain)).entries.map PodMap.entryText := by
    rw [PodMap.entries_rename hinj, map_map]
    refine map_congr_left fun e he => ?_
    exact rewrite_entryText hips (hkeys e.1 (mem_map_of_mem he)) (hm.values e he)
  have hfinite : (m.rename (podName ids hplain)).finite = true :=
    (PodMap.finite_rename hinj).trans hm.finite
  have hbrace : Separates py '{' := separates_ascii (by decide)
  have hend : Separates py '}' := separates_ascii (by decide)
  have hcomma : Separates py ',' := separates_ascii (by decide)
  rw [PodMap.jsonStringify, PodMap.jsonStringify, PodMap.marshal_eq_some hm.finite,
    PodMap.marshal_eq_some hfinite, Option.getD_some, cons_append, rewrite_cons hips hbrace,
    rewrite_append_cons hips hend, rewrite_intercalate hips hcomma, map_map,
    rewrite_of_count_lt hips (by simp)]
  rw [← hentries]
  rfl

end

def FieldValue.rewritten (ids : AList fun _ : PodIP => GeneralPodId) (hplain : PlainNames ids)
    (podIps : List PodIP) : FieldValue → FieldValue
  | .text s => .text (rewrite ids podIps s)
  | .map m => .map (m.rename (podName ids hplain))
  | v => v

def InferenceRecord.rewritten (ids : AList fun _ : PodIP => GeneralPodId) (hplain : PlainNames ids)
    (podIps : List PodIP) (r : InferenceRecord) : InferenceRecord :=
  let named (m : PodMap) : PodMap := m.rename (podName ids hplain)
  { r with
    requestID := rewrite ids podIps r.requestID
    allPodsKvCacheHitRatios := named r.allPodsKvCacheHitRatios
    allPodsKvCacheLastAccess := named r.allPodsKvCacheLastAccess
    numInflightRequestsAllPods := named r.numInflightRequestsAllPods
    numInflightPrefillRequestsAllPods := named r.numInflightPrefillRequestsAllPods
    numInflightDecodeRequestsAllPods := named r.numInflightDecodeRequestsAllPods
    vllmGPUKVCacheUsage := named r.vllmGPUKVCacheUsage
    vllmNumRequestsRunning := named r.vllmNumRequestsRunning
    vllmNumRequestWaiting := named r.vllmNumRequestWaiting
    vllmNumPreemptions := named r.vllmNumPreemptions
    numPrefillTokensForAllPods := named r.numPrefillTokensForAllPods
    numDecodeTokensForAllPods := named r.numDecodeTokensForAllPods
    subAlgorithm := rewrite ids podIps r.subAlgorithm
    gpuModelMap := named r.gpuModelMap }

lemma count_point_int (n : ℤ) : (FieldValue.int n).written.count '.' = 0 := by
  have hdigits : ∀ k : ℕ, (Nat.toDigits 10 k).count '.' = 0 := fun k =>
    count_eq_zero.mpr (notMem_of_isDigit (isDigit_toDigits k) (by decide))
  cases n with
  | ofNat k => exact hdigits k
  | negSucc k =>
    show ('-' :: Nat.toDigits 10 (k + 1)).count '.' = 0
    rw [count_cons_of_ne (by decide), hdigits]

lemma infix_intercalate (sep : Text) {p : Text} {parts : List Text} (h : p ∈ parts) :
    p <:+: sep.intercalate parts := by
  induction parts with
  | nil => simp at h
  | cons q parts ih =>
    cases parts with
    | nil =>
      obtain rfl := List.mem_singleton.mp h
      simp
    | cons q' parts =>
      have hsplit : sep.intercalate (q :: q' :: parts) = q ++ sep ++ sep.intercalate (q' :: parts) := by
        simp
      rw [hsplit]
      rcases mem_cons.mp h with rfl | h
      · exact ⟨[], sep ++ sep.intercalate (q' :: parts), by simp⟩
      · exact (ih h).trans (suffix_append _ _).isInfix

def FieldValue.asMap : FieldValue → Option PodMap
  | .map m => some m
  | _ => none

lemma InferenceRecord.filterMap_fields (r : InferenceRecord) :
    (r.fields.filterMap fun f => f.2.asMap) = r.maps.take 6 ++ ∅ :: r.maps.drop 6 := rfl

lemma InferenceRecord.exists_field_iff {r : InferenceRecord} {m : PodMap} :
    (∃ key, (key, .map m) ∈ r.fields) ↔ m = ∅ ∨ m ∈ r.maps := by
  have hmem : m ∈ (r.fields.filterMap fun f => f.2.asMap) ↔ m = ∅ ∨ m ∈ r.maps := by
    rw [filterMap_fields, mem_append, mem_cons, or_left_comm, ← mem_append, take_append_drop]
  rw [← hmem, mem_filterMap]
  constructor
  · rintro ⟨key, hfield⟩
    exact ⟨_, hfield, rfl⟩
  · rintro ⟨⟨key, v⟩, hfield, hv⟩
    cases v with
    | map m' =>
      obtain rfl : m' = m := Option.some.inj hv
      exact ⟨key, hfield⟩
    | _ => simp [FieldValue.asMap] at hv

lemma InferenceRecord.mem_extractPodIps {r : InferenceRecord} {m : PodMap} (hm : m ∈ r.maps)
    (hby : m.ByAddress py) {k : PlainText} (hk : k ∈ m.keys) :
    k.1 ∈ extractPodIps py r.logMessage := by
  refine Agent.mem_extractPodIps (hby.keys k hk) ?_
  obtain ⟨e, he, rfl⟩ := mem_map.mp hk
  obtain ⟨key, hfield⟩ := exists_field_iff.mpr (.inr hm)
  have hentry : '"' :: (e.1.1 ++ ['"', ':']) <:+: PodMap.entryText e :=
    ⟨[], e.2.text, by simp [PodMap.entryText]⟩
  have hmap : PodMap.entryText e <:+: m.jsonStringify := by
    rw [PodMap.jsonStringify, PodMap.marshal_eq_some hby.finite, cons_append]
    refine (infix_intercalate [','] (mem_map_of_mem he)).trans ?_
    exact ⟨['{'], ['}'], by simp⟩
  have hpart : m.jsonStringify ∈ r.fields.flatMap fun f => [f.1, f.2.written] :=
    mem_flatMap.mpr ⟨_, hfield, by simp [FieldValue.written]⟩
  refine hentry.trans (hmap.trans ((infix_intercalate ['@'] hpart).trans ?_))
  exact (suffix_append _ _).isInfix

variable {hplain : PlainNames ids} {r : InferenceRecord}

section

variable (hips : ∀ ip ∈ podIps, IpText py ip)
include hips

lemma InferenceRecord.fields_rewritten :
    (r.rewritten ids hplain podIps).fields =
      r.fields.map fun f => (f.1, f.2.rewritten ids hplain podIps) := by
  have hunknown : rewrite ids podIps "-9999".toList = "-9999".toList :=
    rewrite_of_count_lt hips (by decide)
  have hempty : PodMap.rename (podName ids hplain) ∅ = ∅ := rfl
  simp only [fields, rewritten, unknown, map_cons, map_nil, FieldValue.rewritten, hunknown, hempty]

lemma InferenceRecord.rewrite_key {f : Text × FieldValue}
    (hf : f ∈ r.fields) : rewrite ids podIps f.1 = f.1 := by
  have hcount : ∀ key ∈ r.fields.map Prod.fst, key.count '.' < 3 := by
    simp only [fields, map_cons]
    decide +kernel
  exact rewrite_of_count_lt hips (hcount f.1 (mem_map_of_mem hf))

lemma rewrite_start (t : Text) :
    rewrite ids podIps ("**@latency_metrics@".toList ++ t) =
      "**@latency_metrics@".toList ++ rewrite ids podIps t := by
  have hsep : Separates py '@' := separates_ascii (by decide)
  have hstart : ∀ t : Text, "**@latency_metrics@".toList ++ t =
      "**".toList ++ '@' :: ("latency_metrics".toList ++ '@' :: t) := fun t => rfl
  have hstars : rewrite ids podIps "**".toList = "**".toList := rewrite_of_count_lt hips (by decide)
  have htitle : rewrite ids podIps "latency_metrics".toList = "latency_metrics".toList :=
    rewrite_of_count_lt hips (by decide)
  rw [hstart, hstart, rewrite_append_cons hips hsep, rewrite_append_cons hips hsep, hstars, htitle]

/-- **In a message with addresses for keys the keys are renamed**, and nothing else changes, except
perhaps the two texts that come from the client. -/
lemma InferenceRecord.rewrite_logMessage
    (hmaps : ∀ m ∈ r.maps, m.ByAddress py) (hkeys : ∀ m ∈ r.maps, ∀ k ∈ m.keys, k.1 ∈ podIps)
    (hinj : ∀ m ∈ r.maps, Set.InjOn (podName ids hplain) {k | k ∈ m.keys}) :
    rewrite ids podIps r.logMessage = (r.rewritten ids hplain podIps).logMessage := by
  have hsep : Separates py '@' := separates_ascii (by decide)
  have hvalue : ∀ f ∈ r.fields,
      rewrite ids podIps f.2.written = (f.2.rewritten ids hplain podIps).written := by
    rintro ⟨key, v⟩ hf
    cases v with
    | text s => rfl
    | int n => exact rewrite_of_count_lt hips (by rw [count_point_int]; omega)
    | float negative micros =>
      exact rewrite_of_count_lt hips (by rw [count_point_written]; omega)
    | map m =>
      rcases exists_field_iff.mp ⟨key, hf⟩ with rfl | hm
      · exact rewrite_of_count_lt hips (show ['{', '}'].count '.' < 3 by decide)
      · exact rewrite_jsonStringify hips (hmaps m hm) (hkeys m hm) (hinj m hm)
  have hparts : (r.fields.flatMap fun f => [f.1, f.2.written]).map (rewrite ids podIps) =
      (r.rewritten ids hplain podIps).fields.flatMap fun f => [f.1, f.2.written] := by
    rw [fields_rewritten hips, flatMap_map, map_flatMap]
    refine flatMap_congr fun f hf => ?_
    simp [rewrite_key hips hf, hvalue f hf]
  refine (rewrite_start hips _).trans ?_
  rw [rewrite_intercalate hips hsep]
  exact congrArg (fun parts => "**@latency_metrics@".toList ++ ['@'].intercalate parts) hparts

end
end Lodestar.Agent
