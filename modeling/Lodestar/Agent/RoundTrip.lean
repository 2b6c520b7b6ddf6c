import Lodestar.Agent.Message

/-!
# Does the agent read what the gateway wrote?

The separator of the message is not escaped, and the agent guesses the types.  So a request ID or a
sub-algorithm, which come from the headers of the client, must not contain the separator and must
not look like a number or a JSON text (`ReadsAsText`).  A negative integer comes back as a text, and
a map with a value that JSON cannot express is written as an empty one.  `readBack_iff` says that
these are all the exceptions.
-/

namespace Lodestar.Agent

open List
variable {py : Digits} {json : PythonJson}

/-! ### Texts -/

def NumberLike (py : Digits) (s : Text) : Prop :=
  isdigit py s = true ∨ s.count '.' = 1 ∧
    isdigit py (s.filter fun c => c ≠ '.' ∧ c ≠ '-') = true ∧ (pyFloat py s).isSome = true

def ReadsAsText (py : Digits) (json : PythonJson) (s : Text) : Prop :=
  if inBraces s then ¬ ['\\', '"'] <:+: s ∧ json.loads s = none else ¬ NumberLike py s

lemma replaceEscapedQuotes_eq_iff (s : Text) :
    replaceEscapedQuotes s = s ↔ ¬ ['\\', '"'] <:+: s := by
  fun_induction replaceEscapedQuotes s with
  | case1 t ih =>
    refine iff_of_false (by simp) (not_not.mpr ⟨[], t, rfl⟩)
  | case2 c t hne ih =>
    rw [List.cons.injEq, ih, infix_cons_iff, not_or]
    simp only [true_and]
    refine ⟨fun h => ⟨?_, h⟩, fun h => h.2⟩
    rintro ⟨u, hu⟩
    simp only [cons_append, List.cons.injEq] at hu
    exact hne u hu.1.symm hu.2.symm
  | case3 => simp

lemma parseValue_text (s : Text) :
    (∃ b, parseValue py json s = some (.str s, b)) ↔ ReadsAsText py json s := by
  unfold parseValue ReadsAsText
  by_cases hb : inBraces s = true
  · rw [if_pos hb, if_pos hb]
    by_cases hq : ['\\', '"'] <:+: s
    · refine iff_of_false ?_ fun h => h.1 hq
      have hne : replaceEscapedQuotes s ≠ s := fun h => (replaceEscapedQuotes_eq_iff s).mp h hq
      dsimp only
      split <;> simp [hne]
    · rw [(replaceEscapedQuotes_eq_iff s).mpr hq]
      cases hl : json.loads s <;> simp [hq, hl]
  · rw [if_neg hb, if_neg hb]
    unfold fastParseValue NumberLike
    cases s with
    | nil => simp [isdigit]
    | cons c t =>
      simp only [isEmpty_cons]
      by_cases hd : isdigit py (c :: t) = true
      · simp only [hd, true_or, not_true_eq_false, iff_false]
        rintro ⟨b, h⟩
        cases hn : natValue py (c :: t) <;> simp [hn] at h
      · simp only [hd, Bool.false_eq_true, if_false, false_or]
        split
        · rename_i hf
          cases hp : pyFloat py (c :: t) <;> simp_all
        · rename_i hf
          simp only [Bool.and_eq_true, decide_eq_true_eq] at hf
          exact iff_of_true ⟨false, rfl⟩ fun h => hf ⟨h.1, h.2.1⟩

/-! ### Numbers -/

variable {c : Char}

lemma toNat_lt_of_isDigit (h : c.isDigit = true) : c.toNat < 128 := by
  have := (Char.isDigit_iff_toNat.mp h).2
  have : '9'.toNat < 128 := by decide
  omega

variable {s : Text}

lemma isdigit_of_ascii (hne : s ≠ []) (h : ∀ c ∈ s, c.isDigit = true) : isdigit py s = true := by
  have hall : ∀ c ∈ s, py.isDigit c = true := fun c hc => by
    rw [py.isDigit_ascii c (toNat_lt_of_isDigit (h c hc))]
    exact h c hc
  simpa [isdigit, hne] using hall

lemma isdigit_of_mem (hc : c ∈ s) (hdigit : c.isDigit = false) (hascii : c.toNat < 128) :
    isdigit py s = false := by
  rw [← Bool.not_eq_true]
  intro h
  simp only [isdigit, Bool.and_eq_true, all_eq_true] at h
  have := h.2 c hc
  rw [py.isDigit_ascii c hascii, hdigit] at this
  exact Bool.false_ne_true this

lemma natValue_of_ascii (h : ∀ c ∈ s, c.isDigit = true) :
    natValue py s = some (Nat.ofDigitChars 10 s 0) := by
  have hmap : s.mapM py.value = some (s.map fun c => c.toNat - '0'.toNat) := by
    induction s with
    | nil => rfl
    | cons c s ih =>
      rw [mapM_cons, py.value_ascii c (h c mem_cons_self),
        ih fun c hc => h c (mem_cons_of_mem _ hc)]
      rfl
  rw [natValue, hmap, Option.map_some, Nat.ofDigitChars, foldl_map]

lemma isDigit_toDigits (n : ℕ) : ∀ c ∈ Nat.toDigits 10 n, c.isDigit = true :=
  fun _ hc => Nat.isDigit_of_mem_toDigits (by decide) (by decide) hc

lemma notMem_of_isDigit (h : ∀ c ∈ s, c.isDigit = true) (hc : c.isDigit = false) :
    c ∉ s := fun hmem => by
  rw [h c hmem] at hc
  exact Bool.noConfusion hc

lemma inBraces_of_head (h : s.head? = some c) (hc : c ≠ '{') : inBraces s = false := by
  simp [inBraces, h, hc]

lemma head?_of_isDigit {s : Text} (hne : s ≠ []) (h : ∀ c ∈ s, c.isDigit = true) (t : Text) :
    ∃ c, (s ++ t).head? = some c ∧ c.isDigit = true := by
  obtain ⟨c, s, rfl⟩ := exists_cons_of_ne_nil hne
  exact ⟨c, rfl, h c mem_cons_self⟩

lemma ne_of_isDigit {c d : Char} (hc : c.isDigit = true) (hd : d.isDigit = false) : c ≠ d := by
  rintro rfl
  rw [hc] at hd
  exact Bool.noConfusion hd

lemma parseValue_int (n : ℤ) :
    (∃ b, parseValue py json (FieldValue.int n).written = some (.int n, b)) ↔ 0 ≤ n := by
  cases n with
  | ofNat n =>
    refine iff_of_true ⟨false, ?_⟩ (Int.natCast_nonneg n)
    obtain ⟨c, hc, hdigit⟩ := head?_of_isDigit Nat.toDigits_ne_nil (isDigit_toDigits n) []
    rw [append_nil] at hc
    rw [FieldValue.written, parseValue, inBraces_of_head hc (ne_of_isDigit hdigit (by decide)),
      fastParseValue, isEmpty_eq_false_iff.mpr Nat.toDigits_ne_nil, if_neg Bool.false_ne_true,
      isdigit_of_ascii Nat.toDigits_ne_nil (isDigit_toDigits n), if_pos rfl,
      natValue_of_ascii (isDigit_toDigits n), Nat.ofDigitChars_toDigits (by decide) (by decide)]
    rfl
  | negSucc n =>
    refine iff_of_false ?_ (by omega)
    rintro ⟨b, h⟩
    have hpoint : ('-' :: Nat.toDigits 10 (n + 1)).count '.' = 0 := by
      rw [count_eq_zero, mem_cons, not_or]
      exact ⟨by decide, notMem_of_isDigit (isDigit_toDigits _) (by decide)⟩
    rw [FieldValue.written, parseValue, inBraces_of_head rfl (by decide), fastParseValue,
      isdigit_of_mem mem_cons_self (by decide) (by decide), hpoint] at h
    simp at h

lemma isDigit_decimals (k n : ℕ) : ∀ c ∈ decimals k n, c.isDigit = true := by
  have hdigit : ∀ d < 10, (Nat.digitChar d).isDigit = true := by decide
  induction k generalizing n with
  | zero => simp [decimals]
  | succ k ih =>
    intro c hc
    rcases mem_append.mp hc with hc | hc
    · exact ih _ c hc
    · rw [List.mem_singleton.mp hc]
      exact hdigit _ (Nat.mod_lt _ (by decide))

lemma length_decimals (k n : ℕ) : (decimals k n).length = k := by
  induction k generalizing n with
  | zero => rfl
  | succ k ih => rw [decimals, length_append, ih, length_singleton]

lemma ofDigitChars_decimals (k n : ℕ) : Nat.ofDigitChars 10 (decimals k n) 0 = n % 10 ^ k := by
  have hvalue : ∀ d < 10, (Nat.digitChar d).toNat - '0'.toNat = d := by decide
  induction k generalizing n with
  | zero => simp [decimals, Nat.mod_one]
  | succ k ih =>
    have hsplit : Nat.ofDigitChars 10 (decimals (k + 1) n) 0 =
        10 * Nat.ofDigitChars 10 (decimals k (n / 10)) 0 +
          ((Nat.digitChar (n % 10)).toNat - '0'.toNat) := by
      simp [decimals, Nat.ofDigitChars]
    rw [hsplit, ih, hvalue _ (Nat.mod_lt _ (by decide)), pow_succ', Nat.mod_mul]
    omega

lemma unsignedFloat_decimal {w f : Text} (hw : ∀ c ∈ w, c.isDigit = true) (hne : w ≠ [])
    (hf : ∀ c ∈ f, c.isDigit = true) :
    unsignedFloat py (w ++ '.' :: f) =
      some ((Nat.ofDigitChars 10 w 0 : ℚ) + (Nat.ofDigitChars 10 f 0 : ℚ) / 10 ^ f.length) := by
  have hpoint : ∀ c ∈ w, (decide (c ≠ '.')) = true := fun c hc => by
    simpa using ne_of_isDigit (hw c hc) (by decide)
  have htake : (w ++ '.' :: f).takeWhile (fun c => decide (c ≠ '.')) = w :=
    FlatReader.takeWhile_append hpoint (by decide)
  have hdrop : (w ++ '.' :: f).dropWhile (fun c => decide (c ≠ '.')) = '.' :: f :=
    FlatReader.dropWhile_append hpoint (by decide)
  simp only [unsignedFloat, htake, hdrop, tail_cons, isEmpty_eq_false_iff.mpr hne,
    Bool.false_and, Bool.false_eq_true, if_false, natValue_of_ascii hw, natValue_of_ascii hf]

/-! ### Rewards -/

section

variable (negative : Bool) (micros : ℕ)

def wholePart : Text := Nat.toDigits 10 (micros / 1000000)

lemma written_float : (FieldValue.float negative micros).written =
    (if negative then ['-'] else []) ++ wholePart micros ++ '.' :: decimals 6 micros := rfl

lemma isDigit_wholePart : ∀ c ∈ wholePart micros, c.isDigit = true := isDigit_toDigits _

lemma wholePart_ne_nil : wholePart micros ≠ [] := Nat.toDigits_ne_nil

lemma unsignedFloat_micros : unsignedFloat py (wholePart micros ++ '.' :: decimals 6 micros) =
      some (micros / 1000000 : ℚ) := by
  rw [unsignedFloat_decimal (isDigit_wholePart micros) (wholePart_ne_nil micros)
    (isDigit_decimals 6 micros), length_decimals, ofDigitChars_decimals, wholePart,
    Nat.ofDigitChars_toDigits (by decide) (by decide)]
  have hsplit : (micros : ℚ) = 1000000 * (micros / 1000000 : ℕ) + (micros % 1000000 : ℕ) := by
    exact_mod_cast (Nat.div_add_mod micros 1000000).symm
  rw [hsplit]
  field_simp
  norm_num

lemma pyFloat_written : pyFloat py (FieldValue.float negative micros).written =
    some (if negative then -(micros / 1000000 : ℚ) else micros / 1000000) := by
  rw [written_float, pyFloat]
  cases negative with
  | true => simp [unsignedFloat_micros]
  | false =>
    obtain ⟨c, hhead, hdigit⟩ := head?_of_isDigit (wholePart_ne_nil micros)
      (isDigit_wholePart micros) ('.' :: decimals 6 micros)
    have hminus : c ≠ '-' := ne_of_isDigit hdigit (by decide)
    simp [hhead, hminus, unsignedFloat_micros]

lemma inBraces_written_float : inBraces (FieldValue.float negative micros).written = false := by
  rw [written_float]
  cases negative with
  | true => exact inBraces_of_head rfl (by decide)
  | false =>
    obtain ⟨c, hhead, hdigit⟩ := head?_of_isDigit (wholePart_ne_nil micros)
      (isDigit_wholePart micros) ('.' :: decimals 6 micros)
    exact inBraces_of_head (by simpa using hhead) (ne_of_isDigit hdigit (by decide))

lemma count_point_written : (FieldValue.float negative micros).written.count '.' = 1 := by
  have h₁ := count_eq_zero.mpr
    (notMem_of_isDigit (isDigit_wholePart micros) (by decide : '.'.isDigit = false))
  have h₂ := count_eq_zero.mpr
    (notMem_of_isDigit (isDigit_decimals 6 micros) (by decide : '.'.isDigit = false))
  rw [written_float]
  cases negative <;> simp [h₁, h₂]

lemma filter_written_float :
    (FieldValue.float negative micros).written.filter (fun c => c ≠ '.' ∧ c ≠ '-') =
      wholePart micros ++ decimals 6 micros := by
  have hkeep : ∀ {l : Text}, (∀ c ∈ l, c.isDigit = true) →
      l.filter (fun c => decide (c ≠ '.' ∧ c ≠ '-')) = l := fun h =>
    filter_eq_self.mpr fun c hc => by
      simpa using ⟨ne_of_isDigit (h c hc) (by decide), ne_of_isDigit (h c hc) (by decide)⟩
  rw [written_float, filter_append, filter_append, filter_cons_of_neg (by decide),
    hkeep (isDigit_wholePart micros), hkeep (isDigit_decimals 6 micros)]
  cases negative <;> rfl

lemma parseValue_float : ∃ b, parseValue py json (FieldValue.float negative micros).written =
    some ((FieldValue.float negative micros).value, b) := by
  have hpoint : '.' ∈ (FieldValue.float negative micros).written := by simp [written_float]
  have hdigits : isdigit py (wholePart micros ++ decimals 6 micros) = true :=
    isdigit_of_ascii (by simp [wholePart_ne_nil]) fun c hc =>
      (mem_append.mp hc).elim (isDigit_wholePart micros c) (isDigit_decimals 6 micros c)
  refine ⟨false, ?_⟩
  rw [parseValue, inBraces_written_float, fastParseValue,
    isEmpty_eq_false_iff.mpr (ne_nil_of_mem hpoint), if_neg Bool.false_ne_true,
    isdigit_of_mem hpoint (by decide) (by decide), if_neg Bool.false_ne_true, count_point_written,
    filter_written_float, hdigits, pyFloat_written]
  rfl

end

/-! ### Maps -/

lemma PodMap.marshal_eq_some {m : PodMap} (h : m.finite = true) : m.marshal =
    some ('{' :: [','].intercalate (m.entries.map PodMap.entryText) ++ ['}']) := by
  rw [marshal, if_pos h]

lemma plainChar_of_numberChar (h : numberChar c = true) : plainChar c = true := by
  simp only [numberChar, Bool.or_eq_true, contains_iff_mem] at h
  rcases h with h | h
  · obtain ⟨h₁, h₂⟩ := Char.isDigit_iff_toNat.mp h
    have hlow : '0'.toNat = 48 := by decide
    have hhigh : '9'.toNat = 57 := by decide
    simp only [plainChar, decide_eq_true_eq]
    refine ⟨by omega, ?_, by omega, by omega⟩
    simp only [mem_cons, not_mem_nil, or_false, not_or]
    refine ⟨?_, ?_, ?_, ?_, ?_, ?_⟩ <;> exact ne_of_isDigit h (by decide)
  · simp only [mem_cons, not_mem_nil, or_false] at h
    rcases h with rfl | rfl | rfl | rfl <;> decide

lemma mem_of_mem_intercalate {sep : Text} {parts : List Text} (hc : c ∈ sep.intercalate parts) :
    c ∈ sep ∨ ∃ part ∈ parts, c ∈ part := by
  induction parts with
  | nil => simp at hc
  | cons p parts ih =>
    cases parts with
    | nil => exact .inr ⟨p, mem_cons_self, by simpa [List.intercalate] using hc⟩
    | cons q parts =>
      have hsplit : sep.intercalate (p :: q :: parts) = p ++ sep ++ sep.intercalate (q :: parts) := by
        simp
      rw [hsplit, mem_append, mem_append] at hc
      rcases hc with (hc | hc) | hc
      · exact .inr ⟨p, mem_cons_self, hc⟩
      · exact .inl hc
      · exact (ih hc).imp_right fun ⟨part, hpart, h⟩ => ⟨part, mem_cons_of_mem _ hpart, h⟩

lemma Scalar.mem_text {v : Scalar} (hc : c ∈ v.text) : plainChar c = true ∨ c = '"' := by
  cases v with
  | num text => exact .inl (plainChar_of_numberChar (text.2.1.2 c hc))
  | nonFinite => simp [Scalar.text] at hc
  | str name =>
    simp only [Scalar.text, cons_append, mem_cons, mem_append, not_mem_nil, or_false] at hc
    rcases hc with rfl | hc | rfl
    · exact .inr rfl
    · exact .inl (name.2 c hc)
    · exact .inr rfl

lemma PodMap.mem_entryText {e : Sigma fun _ : PlainText => Scalar} (hc : c ∈ entryText e) :
    plainChar c = true ∨ c = '"' := by
  simp only [entryText, cons_append, mem_cons, mem_append] at hc
  rcases hc with rfl | hc | rfl | rfl | hc
  · exact .inr rfl
  · exact .inl (e.1.2 c hc)
  · exact .inr rfl
  · exact .inl (by decide)
  · exact Scalar.mem_text hc

lemma PodMap.mem_jsonStringify {m : PodMap} (hc : c ∈ m.jsonStringify) :
    plainChar c = true ∨ c = '"' := by
  unfold jsonStringify marshal at hc
  split at hc
  · simp only [Option.getD_some, cons_append, mem_cons, mem_append, not_mem_nil, or_false] at hc
    rcases hc with rfl | hc | rfl
    · exact .inl (by decide)
    · rcases mem_of_mem_intercalate hc with hc | ⟨part, hpart, hc⟩
      · obtain rfl := List.mem_singleton.mp hc
        exact .inl (by decide)
      · obtain ⟨e, -, rfl⟩ := mem_map.mp hpart
        exact mem_entryText hc
    · exact .inl (by decide)
  · simp only [Option.getD_none, mem_cons, not_mem_nil, or_false] at hc
    rcases hc with rfl | rfl <;> exact .inl (by decide)

lemma parseValue_map (m : PodMap) :
    (∃ b, parseValue py json (FieldValue.map m).written = some (.json m.json, b)) ↔
      m.finite = true := by
  have hempty : json.loads ['{', '}'] = some (.obj []) := json.loads_marshal ∅ _ rfl
  have hquotes : replaceEscapedQuotes m.jsonStringify = m.jsonStringify := by
    refine (replaceEscapedQuotes_eq_iff _).mpr fun hquote => ?_
    rcases m.mem_jsonStringify (hquote.subset mem_cons_self) with h | h <;>
      exact absurd h (by decide)
  by_cases hfinite : m.finite = true
  · have hstring : m.jsonStringify =
        '{' :: [','].intercalate (m.entries.map PodMap.entryText) ++ ['}'] := by
      rw [PodMap.jsonStringify, PodMap.marshal_eq_some hfinite]
      rfl
    have hbraces : inBraces m.jsonStringify = true := by
      rw [hstring, inBraces, getLast?_concat]
      rfl
    refine iff_of_true ⟨true, ?_⟩ hfinite
    rw [FieldValue.written, parseValue, if_pos hbraces, hquotes]
    dsimp only
    rw [json.loads_marshal m _ (by rw [PodMap.marshal_eq_some hfinite, hstring])]
  · refine iff_of_false ?_ hfinite
    rintro ⟨b, h⟩
    have hstring : m.jsonStringify = ['{', '}'] := by
      rw [PodMap.jsonStringify, PodMap.marshal, if_neg hfinite]
      rfl
    rw [FieldValue.written, hstring, parseValue, if_pos (by decide)] at h
    have hsame : replaceEscapedQuotes ['{', '}'] = ['{', '}'] := rfl
    simp only [hsame, hempty, Option.some.injEq, Prod.mk.injEq, PodMap.json] at h
    have hnil : m.entries = [] := by simpa using h.1.symm
    exact hfinite (by simp [PodMap.finite, hnil])

/-! ### The separator -/

lemma separator_notMem_int (n : ℤ) : '@' ∉ (FieldValue.int n).written := by
  cases n with
  | ofNat n => exact notMem_of_isDigit (isDigit_toDigits n) (by decide)
  | negSucc n =>
    rw [FieldValue.written, mem_cons, not_or]
    exact ⟨by decide, notMem_of_isDigit (isDigit_toDigits _) (by decide)⟩

lemma separator_notMem_float (negative : Bool) (micros : ℕ) :
    '@' ∉ (FieldValue.float negative micros).written := by
  have h₁ := notMem_of_isDigit (isDigit_toDigits (micros / 1000000)) (by decide : '@'.isDigit = false)
  have h₂ := notMem_of_isDigit (isDigit_decimals 6 micros) (by decide : '@'.isDigit = false)
  cases negative <;> simp [FieldValue.written, h₁, h₂]

lemma separator_notMem_map (m : PodMap) : '@' ∉ (FieldValue.map m).written := fun hc => by
  rcases m.mem_jsonStringify hc with h | h
  · exact absurd h (by decide)
  · exact absurd h (by decide)

lemma notMem_of_mem_splitOn {s part : Text} (h : part ∈ s.splitOn c) : c ∉ part := by
  induction s generalizing part with
  | nil =>
    obtain rfl : part = [] := by simpa [List.splitOn] using h
    simp
  | cons d s ih =>
    rw [List.splitOn, splitOnP_cons_eq_if_modifyHead] at h
    split at h
    · rcases mem_cons.mp h with rfl | h
      · simp
      · exact ih h
    · rename_i hne
      cases hparts : s.splitOnP (· == c) with
      | nil => simp [hparts] at h
      | cons p ps =>
        have hsub : ∀ q ∈ p :: ps, c ∉ q := fun q hq => ih (by rw [List.splitOn, hparts]; exact hq)
        rw [hparts] at h
        rcases mem_cons.mp h with rfl | h
        · rw [mem_cons, not_or]
          exact ⟨fun heq => hne (by simp [heq]), hsub p mem_cons_self⟩
        · exact hsub part (mem_cons_of_mem _ h)

lemma mem_replaceEscapedQuotes (hc : c ∈ replaceEscapedQuotes s) : c ∈ s := by
  fun_induction replaceEscapedQuotes s with
  | case1 t ih =>
    rcases mem_cons.mp hc with rfl | hc
    · simp
    · exact mem_cons_of_mem _ (mem_cons_of_mem _ (ih hc))
  | case2 d t hne ih =>
    rcases mem_cons.mp hc with rfl | hc
    · exact mem_cons_self
    · exact mem_cons_of_mem _ (ih hc)
  | case3 => exact hc

lemma mem_of_parseValue {s s' : Text} {b : Bool} (h : parseValue py json s = some (.str s', b))
    (hc : c ∈ s') : c ∈ s := by
  unfold parseValue at h
  split at h
  · dsimp only at h
    split at h
    · simp at h
    · obtain ⟨rfl, -⟩ : replaceEscapedQuotes s = s' ∧ false = b := by simpa using h
      exact mem_replaceEscapedQuotes hc
  · obtain ⟨v, hv, hvb⟩ := Option.map_eq_some_iff.mp h
    obtain ⟨rfl, -⟩ := Prod.mk.inj hvb
    unfold fastParseValue at hv
    split at hv
    · obtain rfl : s = s' := by simpa using hv
      exact hc
    split at hv
    · obtain ⟨n, -, hn⟩ := Option.map_eq_some_iff.mp hv
      exact Value.noConfusion hn
    split at hv
    · split at hv
      · simp at hv
      · obtain rfl : s = s' := by simpa using hv
        exact hc
    · obtain rfl : s = s' := by simpa using hv
      exact hc

def NoSeparator (row : Row) : Prop := ∀ key s, row.lookup key = some (.str s) → '@' ∉ s

variable {acc result : Row × List Text}

lemma NoSeparator.readParts {parts : List Text} (hparts : ∀ part ∈ parts, '@' ∉ part)
    (hacc : NoSeparator acc.1) (h : readParts py json parts acc = some result) :
    NoSeparator result.1 := by
  fun_induction Agent.readParts py json parts acc with
  | case1 key value parts row cols hnone => simp at h
  | case2 key value parts row cols v isJson hv ih =>
    refine ih (fun part hpart => hparts part (by simp [hpart])) ?_ h
    intro k s hk hs
    by_cases hkey : k = key
    · subst hkey
      rw [AList.lookup_insert, Option.some.injEq] at hk
      subst hk
      exact hparts value (by simp) (mem_of_parseValue hv hs)
    · rw [AList.lookup_insert_ne hkey] at hk
      exact hacc k s hk hs
  | case3 =>
    obtain rfl := Option.some.inj h
    exact hacc

/-! ### Fields -/

def FieldValue.Recognised (py : Digits) (json : PythonJson) : FieldValue → Prop
  | .text s => ReadsAsText py json s
  | .int n => 0 ≤ n
  | .float _ _ => True
  | .map m => m.finite = true

lemma parseValue_written (v : FieldValue) :
    (∃ b, parseValue py json v.written = some (v.value, b)) ↔ v.Recognised py json := by
  cases v with
  | text s => exact parseValue_text s
  | int n => exact parseValue_int n
  | float negative micros => exact iff_of_true (parseValue_float negative micros) trivial
  | map m => exact parseValue_map m

lemma separator_notMem_written {v : FieldValue} (h : ∀ s, v = .text s → '@' ∉ s) :
    '@' ∉ v.written := by
  cases v with
  | text s => exact h s rfl
  | int n => exact separator_notMem_int n
  | float negative micros => exact separator_notMem_float negative micros
  | map m => exact separator_notMem_map m

/-! ### The message -/

def messageParts (fs : List (Text × FieldValue)) : List Text := fs.flatMap fun f => [f.1, f.2.written]

variable {fs : List (Text × FieldValue)}
attribute [local simp] messageParts

lemma lookup_readParts {key : Text} (h : readParts py json (messageParts fs) acc = some result)
    (hkey : key ∉ fs.map Prod.fst) :
    result.1.lookup key = acc.1.lookup key := by
  induction fs generalizing acc with
  | nil =>
    obtain rfl := Option.some.inj h
    rfl
  | cons f fs ih =>
    rw [map_cons, mem_cons, not_or] at hkey
    cases hv : parseValue py json f.2.written with
    | none => simp [readParts, hv] at h
    | some v =>
      simp only [messageParts, flatMap_cons, cons_append, readParts, hv] at h
      rw [ih h hkey.2, AList.lookup_insert_ne hkey.1]

lemma exists_readParts_iff (acc : Row × List Text) :
    (∃ result, readParts py json (messageParts fs) acc = some result) ↔
      ∀ f ∈ fs, ∃ v, parseValue py json f.2.written = some v := by
  induction fs generalizing acc with
  | nil => exact iff_of_true ⟨acc, rfl⟩ (by simp)
  | cons f fs ih =>
    obtain ⟨row, cols⟩ := acc
    rw [forall_mem_cons]
    cases hv : parseValue py json f.2.written with
    | none => simp [readParts, hv]
    | some v =>
      have hstep : readParts py json (messageParts (f :: fs)) (row, cols) =
          readParts py json (messageParts fs)
            (row.insert f.1 v.1, if v.2 then cols ++ [f.1] else cols) := by
        simp [readParts, hv]
      rw [hstep, ih]
      simp

lemma lookup_of_parseValue (hnodup : (fs.map Prod.fst).Nodup)
    (h : readParts py json (messageParts fs) acc = some result) {f : Text × FieldValue}
    (hf : f ∈ fs) {v : Value × Bool} (hv : parseValue py json f.2.written = some v) :
    result.1.lookup f.1 = some v.1 := by
  induction fs generalizing acc with
  | nil => simp at hf
  | cons g fs ih =>
    rw [map_cons, nodup_cons] at hnodup
    cases hg : parseValue py json g.2.written with
    | none => simp [readParts, hg] at h
    | some w =>
      simp only [messageParts, flatMap_cons, cons_append, readParts, hg] at h
      rcases mem_cons.mp hf with rfl | hf
      · obtain rfl : w = v := Option.some.inj (hg.symm.trans hv)
        rw [lookup_readParts h hnodup.1, AList.lookup_insert]
      · exact ih hnodup.2 h hf

lemma readParts_fields (hnodup : (fs.map Prod.fst).Nodup) (acc : Row × List Text) :
    (∃ result, readParts py json (messageParts fs) acc = some result ∧
        ∀ f ∈ fs, result.1.lookup f.1 = some f.2.value) ↔
      ∀ f ∈ fs, ∃ b, parseValue py json f.2.written = some (f.2.value, b) := by
  constructor
  · rintro ⟨result, hresult, hvalues⟩ f hf
    obtain ⟨v, hv⟩ := (exists_readParts_iff acc).mp ⟨result, hresult⟩ f hf
    have hvalue := (lookup_of_parseValue hnodup hresult hf hv).symm.trans (hvalues f hf)
    exact ⟨v.2, by rw [hv, ← Option.some.inj hvalue]⟩
  · intro h
    obtain ⟨result, hresult⟩ := (exists_readParts_iff acc).mpr fun f hf =>
      let ⟨_, hv⟩ := h f hf
      ⟨_, hv⟩
    refine ⟨result, hresult, fun f hf => ?_⟩
    obtain ⟨b, hv⟩ := h f hf
    exact lookup_of_parseValue hnodup hresult hf hv

namespace InferenceRecord

/-- The agent finds each field of the record with the value that was written. -/
def ReadBack (py : Digits) (json : PythonJson) (r : InferenceRecord) : Prop :=
  ∃ result, parseLogToDict py json r.logMessage = some result ∧
    ∀ f ∈ r.fields, result.1.lookup f.1 = some f.2.value

def maps (r : InferenceRecord) : List PodMap :=
  [r.allPodsKvCacheHitRatios, r.allPodsKvCacheLastAccess, r.numInflightRequestsAllPods,
   r.numInflightPrefillRequestsAllPods, r.numInflightDecodeRequestsAllPods, r.vllmGPUKVCacheUsage,
   r.vllmNumRequestsRunning, r.vllmNumRequestWaiting, r.vllmNumPreemptions,
   r.numPrefillTokensForAllPods, r.numDecodeTokensForAllPods, r.gpuModelMap]

structure Unambiguous (py : Digits) (json : PythonJson) (r : InferenceRecord) : Prop where
  requestID_separator : '@' ∉ r.requestID
  requestID_text : ReadsAsText py json r.requestID
  subAlgorithm_separator : '@' ∉ r.subAlgorithm
  subAlgorithm_text : ReadsAsText py json r.subAlgorithm
  startTime_nonneg : 0 ≤ r.normalizedRequestStartTime
  maps_finite : ∀ m ∈ r.maps, m.finite = true

variable {r : InferenceRecord}

section

variable (r : InferenceRecord)

lemma parseLogToDict_logMessage : parseLogToDict py json r.logMessage =
      readParts py json ((['@'].intercalate (messageParts r.fields)).splitOn '@') (∅, []) := rfl

lemma nodup_fields : (r.fields.map Prod.fst).Nodup := by
  simp only [fields, map_cons]
  decide

lemma requestID_mem :
    ("requestID".toList, .text r.requestID) ∈ r.fields := mem_cons_self

lemma subAlgorithm_mem :
    ("subAlgorithm".toList, .text r.subAlgorithm) ∈ r.fields :=
  mem_of_getElem? (i := 24) rfl

end

lemma recognised_unknown : unknown.Recognised py json := by
  have hdigit : isdigit py "-9999".toList = false :=
    isdigit_of_mem (c := '-') (by decide) (by decide) (by decide)
  show ¬ NumberLike py _
  rintro (h | h)
  · exact Bool.false_ne_true (hdigit.symm.trans h)
  · exact absurd h.1 (by decide)

lemma forall_recognised : (∀ f ∈ r.fields, f.2.Recognised py json) ↔
      ReadsAsText py json r.requestID ∧ ReadsAsText py json r.subAlgorithm ∧
        0 ≤ r.normalizedRequestStartTime ∧ ∀ m ∈ r.maps, m.finite = true := by
  simp only [fields, maps, forall_mem_cons, recognised_unknown]
  tauto

lemma separator_notMem (hid : '@' ∉ r.requestID) (hsub : '@' ∉ r.subAlgorithm) :
    ∀ part ∈ messageParts r.fields, '@' ∉ part := by
  have hkeys : ∀ key ∈ r.fields.map Prod.fst, '@' ∉ key := by
    simp only [fields, map_cons, map_nil]
    decide
  have htexts : ∀ f ∈ r.fields, ∀ s, f.2 = .text s → '@' ∉ s := by
    simp only [fields, unknown, forall_mem_cons, FieldValue.text.injEq, reduceCtorEq,
      not_mem_nil, false_imp_iff, implies_true, and_true, true_and, forall_eq']
    exact ⟨hid, by decide, by decide, by decide, by decide, by decide, by decide, hsub⟩
  intro part hpart
  obtain ⟨f, hf, hpart⟩ := mem_flatMap.mp hpart
  simp only [mem_cons, not_mem_nil, or_false] at hpart
  rcases hpart with rfl | rfl
  · exact hkeys _ (mem_map_of_mem hf)
  · exact separator_notMem_written (htexts f hf)

lemma readBack_iff_recognised (hid : '@' ∉ r.requestID) (hsub : '@' ∉ r.subAlgorithm) :
    r.ReadBack py json ↔ ∀ f ∈ r.fields, f.2.Recognised py json := by
  unfold ReadBack
  rw [parseLogToDict_logMessage, splitOn_intercalate _ (separator_notMem hid hsub)
    (by simp [fields]), readParts_fields r.nodup_fields]
  simp only [parseValue_written]

lemma ReadBack.separator_notMem (h : r.ReadBack py json) :
    '@' ∉ r.requestID ∧ '@' ∉ r.subAlgorithm := by
  obtain ⟨result, hresult, hfields⟩ := h
  have hno : NoSeparator result.1 :=
    NoSeparator.readParts (fun _ => notMem_of_mem_splitOn) (by simp [NoSeparator]) hresult
  exact ⟨hno _ _ (hfields _ r.requestID_mem), hno _ _ (hfields _ r.subAlgorithm_mem)⟩

/-- **The round trip**: the agent reads back what the gateway wrote exactly if the two strings of
the client contain no separator and look like texts, the time is not negative, and the maps can be
written. -/
theorem readBack_iff (py : Digits) (json : PythonJson) (r : InferenceRecord) :
    r.ReadBack py json ↔ r.Unambiguous py json := by
  by_cases hsep : '@' ∉ r.requestID ∧ '@' ∉ r.subAlgorithm
  · rw [readBack_iff_recognised hsep.1 hsep.2, forall_recognised]
    exact ⟨fun h => ⟨hsep.1, h.1, hsep.2, h.2.1, h.2.2.1, h.2.2.2⟩, fun h => ⟨h.2, h.4, h.5, h.6⟩⟩
  · exact iff_of_false (fun h => hsep h.separator_notMem) fun h => hsep ⟨h.1, h.3⟩

def onePod (requestID : Text) : InferenceRecord :=
  let pod : PlainText := ⟨"10.0.0.7".toList, List.all_eq_true.mp (by decide)⟩
  let numbers (text : Text) (h : (text ≠ [] ∧ text.all numberChar = true) ∧ goNumber text = true) :
      PodMap := AList.singleton pod (.num ⟨text, ⟨h.1.1, all_eq_true.mp h.1.2⟩, h.2⟩)
  { requestID
    normalizedRequestStartTime := 1500
    numInputTokens := 32
    allPodsKvCacheHitRatios := numbers "0.25".toList (by decide)
    allPodsKvCacheLastAccess := numbers "12".toList (by decide)
    prefixGroupHash := 77
    numInflightRequestsAllPods := numbers "1".toList (by decide)
    numInflightPrefillRequestsAllPods := numbers "1".toList (by decide)
    numInflightDecodeRequestsAllPods := ∅
    vllmGPUKVCacheUsage := numbers "0.5".toList (by decide)
    vllmNumRequestsRunning := numbers "1".toList (by decide)
    vllmNumRequestWaiting := numbers "1".toList (by decide)
    vllmNumPreemptions := numbers "1".toList (by decide)
    numPrefillTokensForAllPods := numbers "64".toList (by decide)
    numDecodeTokensForAllPods := numbers "1".toList (by decide)
    subAlgorithm := "lodestar".toList
    prevReward := (true, 250000)
    gpuModelMap := AList.singleton pod (.str ⟨"NVIDIA-L20".toList, List.all_eq_true.mp (by decide)⟩) }

/-- A separator in the request ID cuts it off, and an ID of digits comes back as a number. -/
theorem readBack_spoiled :
    ¬ (onePod "a@b".toList).ReadBack .ascii .flat ∧ ¬ (onePod "42".toList).ReadBack .ascii .flat := by
  refine ⟨fun h => absurd h.separator_notMem.1 (by decide), fun h => ?_⟩
  have htext := (readBack_iff_recognised (by decide) (by decide)).mp h _ (requestID_mem _)
  exact htext (.inl (by decide))

/-- The request ID that Envoy makes. -/
theorem readBack_uuid : (onePod "3f2a9c10-77de".toList).ReadBack .ascii .flat := by
  refine (readBack_iff .ascii .flat _).mpr ⟨by decide, ?_, by decide, ?_, by decide, by decide⟩
  · show ¬ NumberLike _ _
    unfold NumberLike
    decide
  · show ¬ NumberLike _ _
    unfold NumberLike
    decide

end InferenceRecord
end Lodestar.Agent
