import Mathlib

/-!
# The JSON maps of the messages

The messages to the routing agent carry maps from pods to numbers or to names, as `json.Marshal`
writes them.  The keys are addresses of pods and the names are those of GPUs; both are texts that
JSON writes as they are.  A number is its decimal text, so that the double that is written and
the double that is read are the same.

What Python's `json.loads` does with an arbitrary text is left open; it reads back the maps that
were written (`PythonJson`).
-/

namespace Lodestar.Agent

abbrev Text := List Char

instance : LawfulBEq Text := inferInstance

/-- A character that JSON writes as it is, other than the separator of the messages. -/
def plainChar (c : Char) : Bool :=
  32 ≤ c.toNat ∧ c ∉ ['"', '\\', '<', '>', '&', '@'] ∧ c.toNat ≠ 0x2028 ∧ c.toNat ≠ 0x2029

def numberChar (c : Char) : Bool := c.isDigit || ['-', '+', '.', 'e'].contains c

/-- The exponent of a number, if it has one; `json.Marshal` writes its sign. -/
def exponentText : Text → Bool
  | [] => true
  | 'e' :: sign :: digits =>
    (sign = '+' || sign = '-') && !digits.isEmpty && digits.all Char.isDigit
  | _ => false

/-- A number as `json.Marshal` writes it: without leading zeros, and no longer than a double or a
64-bit integer can be. -/
def goNumber (t : Text) : Bool :=
  let whole := if t.head? = some '-' then t.tail else t
  let int := whole.takeWhile Char.isDigit
  t.length ≤ 25 && (int = ['0'] || !int.isEmpty && int.head? ≠ some '0') &&
    match whole.dropWhile Char.isDigit with
    | '.' :: rest =>
      !(rest.takeWhile Char.isDigit).isEmpty && exponentText (rest.dropWhile Char.isDigit)
    | rest => exponentText rest

abbrev PlainText := { t : Text // ∀ c ∈ t, plainChar c = true }
abbrev NumberText := { t : Text // (t ≠ [] ∧ ∀ c ∈ t, numberChar c = true) ∧ goNumber t = true }

/-- A value of a map; `nonFinite` stands for NaN and the infinities, which JSON cannot express. -/
inductive Scalar where
  | num (text : NumberText)
  | nonFinite
  | str (name : PlainText)

abbrev PodMap := AList (fun _ : PlainText => Scalar)

/-- What `json.loads` returns. -/
inductive Json where
  | null
  | bool (b : Bool)
  | num (text : Text)
  | str (s : Text)
  | arr (items : List Json)
  | obj (members : List (Text × Json))

/-! ### Writing -/

def Scalar.text : Scalar → Text
  | .num text => text.1
  | .nonFinite => []
  | .str name => '"' :: name.1 ++ ['"']

def Scalar.finite : Scalar → Bool
  | .nonFinite => false
  | _ => true

def Scalar.json : Scalar → Json
  | .num text => .num text.1
  | .nonFinite => .num "NaN".toList
  | .str name => .str name.1

namespace PodMap

def finite (m : PodMap) : Bool := m.entries.all fun e => e.2.finite

def entryText (e : Sigma fun _ : PlainText => Scalar) : Text :=
  '"' :: e.1.1 ++ '"' :: ':' :: e.2.text

/-- `json.Marshal` of a map; it fails for a value that JSON cannot express. -/
def marshal (m : PodMap) : Option Text :=
  if m.finite then some ('{' :: [','].intercalate (m.entries.map entryText) ++ ['}']) else none

def jsonStringify (m : PodMap) : Text := m.marshal.getD ['{', '}']

def json (m : PodMap) : Json := .obj (m.entries.map fun e => (e.1.1, e.2.json))

end PodMap

/-! ### Reading -/

/-- `json.loads`: it reads back a map that was written. -/
structure PythonJson where
  loads : Text → Option Json
  loads_marshal : ∀ (m : PodMap) (t : Text), m.marshal = some t → loads t = some m.json

namespace FlatReader

def value (t : Text) : Json × Text :=
  if t.head? = some '"' then
    (.str (t.tail.takeWhile (· ≠ '"')), (t.tail.dropWhile (· ≠ '"')).tail)
  else (.num (t.takeWhile numberChar), t.dropWhile numberChar)

/-- The members of a flat object, behind the opening brace or a comma. -/
def members : ℕ → Text → Option (List (Text × Json))
  | 0, _ => none
  | fuel + 1, t =>
    let key := t.tail.takeWhile (· ≠ '"')
    let (v, rest) := value ((t.tail.dropWhile (· ≠ '"')).drop 2)
    match rest with
    | ['}'] => some [(key, v)]
    | ',' :: t => (members fuel t).map ((key, v) :: ·)
    | _ => none

def read : Text → Option Json
  | ['{', '}'] => some (.obj [])
  | '{' :: t => (members t.length t).map .obj
  | _ => none

section

variable {p : Char → Bool} {s t : Text} (hs : ∀ c ∈ s, p c = true) {c : Char} (hc : p c = false)
include hs hc

lemma takeWhile_append : (s ++ c :: t).takeWhile p = s := by
  rw [List.takeWhile_append_of_pos hs]
  simp [hc]

lemma dropWhile_append : (s ++ c :: t).dropWhile p = c :: t := by
  rw [List.dropWhile_append_of_pos hs]
  simp [hc]

end

lemma ne_quote (t : PlainText) : ∀ c ∈ t.1, (decide (c ≠ '"')) = true := by
  intro c hc
  have := t.2 c hc
  simp only [plainChar, decide_eq_true_eq, List.mem_cons, not_or] at this ⊢
  exact this.2.1.1

lemma value_text {v : Scalar} (hv : v.finite = true) {c : Char} (hc : numberChar c = false)
    (t : Text) : value (v.text ++ c :: t) = (v.json, c :: t) := by
  cases v with
  | nonFinite => simp [Scalar.finite] at hv
  | num text =>
    have hquote : (text.1 ++ c :: t).head? ≠ some '"' := by
      obtain ⟨d, ds, hd⟩ := List.exists_cons_of_ne_nil text.2.1.1
      have hnum := text.2.1.2 d (by simp [hd])
      rw [hd]
      rintro heq
      obtain rfl : d = '"' := by simpa using heq
      exact absurd hnum (by decide)
    rw [value, Scalar.text, if_neg hquote, takeWhile_append text.2.1.2 hc,
      dropWhile_append text.2.1.2 hc]
    rfl
  | str name =>
    have htail : (Scalar.text (.str name) ++ c :: t).tail = name.1 ++ '"' :: c :: t := by
      simp [Scalar.text]
    rw [value, htail, takeWhile_append (ne_quote name) (by decide),
      dropWhile_append (ne_quote name) (by decide)]
    rfl

lemma members_entry {e : Sigma fun _ : PlainText => Scalar} (he : e.2.finite = true) (fuel : ℕ)
    {c : Char} (hc : numberChar c = false) (t : Text) :
    members (fuel + 1) (PodMap.entryText e ++ c :: t) = match c :: t with
      | ['}'] => some [(e.1.1, e.2.json)]
      | ',' :: t => (members fuel t).map ((e.1.1, e.2.json) :: ·)
      | _ => none := by
  have htail : (PodMap.entryText e ++ c :: t).tail = e.1.1 ++ '"' :: ':' :: (e.2.text ++ c :: t) := by
    simp [PodMap.entryText]
  rw [members, htail, takeWhile_append (ne_quote e.1) (by decide),
    dropWhile_append (ne_quote e.1) (by decide), List.drop_succ_cons, List.drop_succ_cons,
    List.drop_zero, value_text he hc]
  rfl

lemma intercalate_entries (e e' : Sigma fun _ : PlainText => Scalar)
    (entries : List (Sigma fun _ : PlainText => Scalar)) :
    [','].intercalate ((e :: e' :: entries).map PodMap.entryText) =
      PodMap.entryText e ++ ',' :: [','].intercalate ((e' :: entries).map PodMap.entryText) := by
  simp

lemma length_le_intercalate (entries : List (Sigma fun _ : PlainText => Scalar)) :
    entries.length ≤ ([','].intercalate (entries.map PodMap.entryText)).length := by
  induction entries with
  | nil => simp
  | cons e entries ih =>
    cases entries with
    | nil => simp [PodMap.entryText]
    | cons e' entries =>
      rw [intercalate_entries, List.length_append]
      simp only [List.length_cons] at ih ⊢
      omega

lemma members_entries {entries : List (Sigma fun _ : PlainText => Scalar)} (hne : entries ≠ [])
    (hfinite : ∀ e ∈ entries, e.2.finite = true) {fuel : ℕ} (hfuel : entries.length ≤ fuel) :
    members fuel ([','].intercalate (entries.map PodMap.entryText) ++ ['}']) =
      some (entries.map fun e => (e.1.1, e.2.json)) := by
  induction entries generalizing fuel with
  | nil => exact (hne rfl).elim
  | cons e entries ih =>
    obtain ⟨fuel, rfl⟩ : ∃ k, fuel = k + 1 := Nat.exists_eq_add_one.mpr (by simp at hfuel; omega)
    have he := hfinite e List.mem_cons_self
    cases entries with
    | nil =>
      have htext : [','].intercalate ([e].map PodMap.entryText) = PodMap.entryText e := by simp
      rw [htext, members_entry he fuel (by decide)]
      rfl
    | cons e' entries =>
      rw [intercalate_entries, List.append_assoc, List.cons_append,
        members_entry he fuel (by decide)]
      have hlen : (e' :: entries).length ≤ fuel := by simpa using hfuel
      show Option.map _ (members fuel _) = _
      rw [ih (by simp) (fun x hx => hfinite x (List.mem_cons_of_mem _ hx)) hlen]
      rfl

end FlatReader

def PythonJson.flat : PythonJson where
  loads := FlatReader.read
  loads_marshal := by
    intro m t ht
    unfold PodMap.marshal at ht
    split at ht
    · rename_i hfinite
      have hfinite' : ∀ e ∈ m.entries, e.2.finite = true := by
        simpa [PodMap.finite] using hfinite
      obtain rfl := Option.some.inj ht
      rw [PodMap.json]
      cases hentries : m.entries with
      | nil => rfl
      | cons e entries =>
        rw [← hentries]
        set body := [','].intercalate (m.entries.map PodMap.entryText) with hbody
        have hlen : m.entries.length ≤ (body ++ ['}']).length := by
          rw [List.length_append]
          exact (FlatReader.length_le_intercalate m.entries).trans (Nat.le_add_right _ _)
        have hread := FlatReader.members_entries (by simp [hentries]) hfinite' hlen
        obtain ⟨rest, hrest⟩ : ∃ rest, body = '"' :: rest := by
          rw [hbody, hentries]
          cases entries with
          | nil => exact ⟨_, by simp [PodMap.entryText]; rfl⟩
          | cons e' entries =>
            exact ⟨_, rfl⟩
        rw [← hbody, hrest] at hread
        rw [hrest]
        exact congrArg (Option.map Json.obj) hread
    · simp at ht

end Lodestar.Agent
