import UbirchClient.Json.Str
import Mathlib.Data.List.Sort
set_option autoImplicit false

/-!
# `json.Unmarshal` into `interface{}`

WHAT THIS FILE IS FOR.  `GetSortedCompactJSON` decodes the request body into an
`interface{}`.  The decoder then produces `nil`, `bool`, `float64`, `string`,
`[]interface{}` and `map[string]interface{}`: the six constructors of `Value`.
Strings are rune lists (see `Json/Str.lean`).  A Go map has no order and at most
one entry per key; it is represented here by its entries in increasing key order
(the order `encoding/json` writes them in), so that two maps are equal exactly
when their representations are.

WHAT THE DECODER DOES.  `Syn.toValue` walks the tree the scanner accepted:
numbers go through `strconv.ParseFloat` and a literal out of `float64` range is an
`UnmarshalTypeError` (Go saves the first such error, finishes the walk and
returns it; the result is the same as stopping at the first one); each object
member is stored with `m[key] = value`, so a later duplicate key replaces an
earlier one.  `unmarshal` is `checkValid` followed by this walk.

THE FACTS PROVED HERE.  The key order is a strict total order on keys
(`keyLt_trans`, `keyLt_irrefl`, `keyLt_total`), `insertKey` keeps a map sorted,
and the walk only ever builds sorted maps (`toValue_sorted`).
-/

namespace UbirchClient.Json

open UbirchClient.Go

/-! ## Key order -/

/-- Go's `<` on strings: bytewise lexicographic order. -/
def bytesLt : GoString → GoString → Bool
  | [], [] => false
  | [], _ :: _ => true
  | _ :: _, [] => false
  | a :: as, b :: bs => a < b || (a == b && bytesLt as bs)

/-- The order `encoding/json` writes map keys in: `sv[i].ks < sv[j].ks`. -/
def keyLt (k k' : List Rune) : Bool := bytesLt (utf8Bytes k) (utf8Bytes k')

theorem bytesLt_irrefl (a : GoString) : bytesLt a a = false := by
  induction a with
  | nil => rfl
  | cons b a ih => simp [bytesLt, ih]

theorem bytesLt_trans {a b c : GoString} (h1 : bytesLt a b = true) (h2 : bytesLt b c = true) :
    bytesLt a c = true := by
  induction a generalizing b c with
  | nil => cases b <;> cases c <;> simp_all [bytesLt]
  | cons x a ih =>
    cases b with
    | nil => simp [bytesLt] at h1
    | cons y b =>
      cases c with
      | nil => simp [bytesLt] at h2
      | cons z c =>
        simp only [bytesLt, Bool.or_eq_true, Bool.and_eq_true, beq_iff_eq, decide_eq_true_eq,
          lt_iff_toNat_lt] at h1 h2 ⊢
        rcases h1 with h1 | ⟨rfl, h1⟩ <;> rcases h2 with h2 | ⟨rfl, h2⟩
        · exact .inl (by omega)
        · exact .inl h1
        · exact .inl h2
        · exact .inr ⟨rfl, ih h1 h2⟩

theorem bytesLt_total {a b : GoString} (h : a ≠ b) : bytesLt a b = true ∨ bytesLt b a = true := by
  induction a generalizing b with
  | nil => cases b with
    | nil => exact absurd rfl h
    | cons => simp [bytesLt]
  | cons x a ih =>
    cases b with
    | nil => simp [bytesLt]
    | cons y b =>
      simp only [bytesLt, Bool.or_eq_true, Bool.and_eq_true, beq_iff_eq, decide_eq_true_eq]
      by_cases hxy : x = y
      · subst hxy
        have : a ≠ b := fun e => h (by rw [e])
        rcases ih this with h' | h'
        · exact .inl (.inr ⟨rfl, h'⟩)
        · exact .inr (.inr ⟨rfl, h'⟩)
      · rw [lt_iff_toNat_lt, lt_iff_toNat_lt]
        have : x.toNat ≠ y.toNat := fun e => hxy (UInt8.toNat.inj e)
        omega

theorem utf8Bytes_cons (r : Rune) (s : List Rune) :
    utf8Bytes (r :: s) = encodeRune r ++ utf8Bytes s := by
  simp [utf8Bytes]

/-- A Go string built from runes determines the runes. -/
theorem utf8Bytes_injective {s s' : List Rune} (h : utf8Bytes s = utf8Bytes s') : s = s' := by
  induction s generalizing s' with
  | nil =>
    cases s' with
    | nil => rfl
    | cons r s' =>
      rw [utf8Bytes_cons] at h
      exact absurd (List.append_eq_nil.1 h.symm).1 (encodeRune_ne_nil r)
  | cons r s ih =>
    cases s' with
    | nil =>
      rw [utf8Bytes_cons] at h
      exact absurd (List.append_eq_nil.1 h).1 (encodeRune_ne_nil r)
    | cons r' s' =>
      rw [utf8Bytes_cons, utf8Bytes_cons] at h
      have e := congrArg decodeRune h
      rw [decodeRune_encodeRune, decodeRune_encodeRune] at e
      obtain ⟨rfl, hl⟩ := Prod.mk.inj e
      rw [ih (List.append_cancel_left h)]

theorem keyLt_irrefl (k : List Rune) : keyLt k k = false := bytesLt_irrefl _

theorem keyLt_trans {k1 k2 k3 : List Rune} (h1 : keyLt k1 k2 = true) (h2 : keyLt k2 k3 = true) :
    keyLt k1 k3 = true := bytesLt_trans h1 h2

theorem keyLt_total {k k' : List Rune} (h : k ≠ k') : keyLt k k' = true ∨ keyLt k' k = true :=
  bytesLt_total fun e => h (utf8Bytes_injective e)

theorem keyLt_asymm {k k' : List Rune} (h : keyLt k k' = true) : keyLt k' k = false := by
  cases h' : keyLt k' k
  · rfl
  · have := keyLt_trans h h'; rw [keyLt_irrefl] at this; cases this

/-! ## Maps in key order -/

/-- Entries in strictly increasing key order: the representation of a Go map. -/
def KeysSorted {α : Type} (kvs : List (List Rune × α)) : Prop :=
  kvs.Pairwise fun a b => keyLt a.1 b.1 = true

/-- `m[key] = value`, on a map kept in key order. -/
def insertKey {α : Type} (k : List Rune) (v : α) : List (List Rune × α) → List (List Rune × α)
  | [] => [(k, v)]
  | (k', v') :: kvs =>
    if k = k' then (k, v) :: kvs
    else if keyLt k k' then (k, v) :: (k', v') :: kvs
    else (k', v') :: insertKey k v kvs

/-- A map built by `m[key] = value` for each entry in turn. -/
def buildMap {α : Type} (kvs : List (List Rune × α)) : List (List Rune × α) :=
  kvs.foldl (fun m kv => insertKey kv.1 kv.2 m) []

theorem mem_insertKey {α : Type} {k : List Rune} {v : α} {kvs : List (List Rune × α)}
    {x : List Rune × α} (h : x ∈ insertKey k v kvs) : x = (k, v) ∨ x ∈ kvs := by
  induction kvs with
  | nil => simpa [insertKey] using h
  | cons kv kvs ih =>
    obtain ⟨k', v'⟩ := kv
    simp only [insertKey] at h
    split_ifs at h
    · simp only [List.mem_cons] at h
      rcases h with h | h
      · exact .inl h
      · exact .inr (List.mem_cons_of_mem _ h)
    · simpa using h
    · simp only [List.mem_cons] at h
      rcases h with h | h
      · exact .inr (by simp [h])
      · rcases ih h with h | h
        · exact .inl h
        · exact .inr (List.mem_cons_of_mem _ h)

/-- `m[key] = value` keeps the entries in key order. -/
theorem insertKey_sorted {α : Type} (k : List Rune) (v : α) {kvs : List (List Rune × α)}
    (h : KeysSorted kvs) : KeysSorted (insertKey k v kvs) := by
  induction kvs with
  | nil => simp [insertKey, KeysSorted]
  | cons kv kvs ih =>
    obtain ⟨k', v'⟩ := kv
    unfold KeysSorted at h ⊢
    rw [List.pairwise_cons] at h
    simp only [insertKey]
    split_ifs with h1 h2
    · subst h1
      exact List.pairwise_cons.2 ⟨h.1, h.2⟩
    · refine List.pairwise_cons.2 ⟨?_, List.pairwise_cons.2 h⟩
      intro x hx
      rcases List.mem_cons.1 hx with rfl | hx
      · exact h2
      · exact keyLt_trans h2 (h.1 x hx)
    · have hlt : keyLt k' k = true := by
        rcases keyLt_total h1 with h' | h'
        · exact absurd h' h2
        · exact h'
      refine List.pairwise_cons.2 ⟨?_, ih h.2⟩
      intro x hx
      rcases mem_insertKey hx with rfl | hx
      · exact hlt
      · exact h.1 x hx

theorem buildMap_sorted {α : Type} (kvs : List (List Rune × α)) : KeysSorted (buildMap kvs) := by
  suffices ∀ m, KeysSorted m → KeysSorted (kvs.foldl (fun m kv => insertKey kv.1 kv.2 m) m) from
    this [] List.Pairwise.nil
  induction kvs with
  | nil => exact fun m h => h
  | cons kv kvs ih => exact fun m h => ih _ (insertKey_sorted _ _ h)

/-! ## Values and the decoder -/

/-- A decoded `interface{}`: `nil`, `bool`, `float64`, `string`, `[]interface{}`, or a
`map[string]interface{}` as its entries in key order. -/
inductive Value where
  | null
  | bool (b : Bool)
  | number (f : Float64)
  | string (s : List Rune)
  | array (vs : List Value)
  | object (kvs : List (List Rune × Value))

/-- Why the walk over an accepted text failed. -/
inductive DecodeError where
  /-- `UnmarshalTypeError{Value: "number " + literal, Type: float64}`: `ParseFloat`
  returned a range error -/
  | numberRange (lit : NumLit)
  /-- `unquote` refused a string the scanner accepted; Go panics with
  `phasePanicMsg` here, which `unquote_isSome` shows never happens -/
  | phase
  deriving DecidableEq

mutual
/-- `valueInterface`: the value of an accepted tree. -/
def Syn.toValue : Syn → Except DecodeError Value
  | .null => .ok .null
  | .bool b => .ok (.bool b)
  | .num n =>
    match parseFloat n with
    | some f => .ok (.number f)
    | none => .error (.numberRange n)
  | .str raw =>
    match unquote raw with
    | some s => .ok (.string s)
    | none => .error .phase
  | .arr0 _ => .ok (.array [])
  | .arr e es =>
    match elemValue e, elemsValue es with
    | .ok v, .ok vs => .ok (.array (v :: vs))
    | .error err, _ => .error err
    | .ok _, .error err => .error err
  | .obj0 _ => .ok (.object [])
  | .obj m ms =>
    match memberEntry m, membersEntries ms with
    | .ok kv, .ok kvs => .ok (.object (buildMap (kv :: kvs)))
    | .error err, _ => .error err
    | .ok _, .error err => .error err
/-- The value of an element. -/
def elemValue : Elem → Except DecodeError Value
  | (_, v, _) => v.toValue
/-- The values of elements, in order. -/
def elemsValue : List Elem → Except DecodeError (List Value)
  | [] => .ok []
  | e :: es =>
    match elemValue e, elemsValue es with
    | .ok v, .ok vs => .ok (v :: vs)
    | .error err, _ => .error err
    | .ok _, .error err => .error err
/-- The key and value of a member, the key read by `unquote`. -/
def memberEntry : Member → Except DecodeError (List Rune × Value)
  | (_, k, _, e) =>
    match unquote k, elemValue e with
    | some key, .ok v => .ok (key, v)
    | none, _ => .error .phase
    | some _, .error err => .error err
/-- The entries of members, in order. -/
def membersEntries : List Member → Except DecodeError (List (List Rune × Value))
  | [] => .ok []
  | m :: ms =>
    match memberEntry m, membersEntries ms with
    | .ok kv, .ok kvs => .ok (kv :: kvs)
    | .error err, _ => .error err
    | .ok _, .error err => .error err
end

/-- Why `json.Unmarshal` failed. -/
inductive UnmarshalError where
  /-- `checkValid` rejected the text -/
  | checkValid (e : SyntaxError)
  /-- the walk over the accepted text failed -/
  | decode (e : DecodeError)
  deriving DecidableEq

/-- `json.Unmarshal(data, &v)` with `v` of type `interface{}`. -/
def unmarshal (d : GoString) : Except UnmarshalError Value :=
  match parseText d with
  | .error e => .error (.checkValid e)
  | .ok p =>
    match p.2.1.toValue with
    | .ok v => .ok v
    | .error e => .error (.decode e)

/-! ## The decoder builds maps in key order -/

mutual
/-- Every map inside the value is in key order. -/
def Value.Sorted : Value → Prop
  | .array vs => listSorted vs
  | .object kvs => KeysSorted kvs ∧ entriesSorted kvs
  | _ => True
/-- `Value.Sorted` of each value of a list. -/
def listSorted : List Value → Prop
  | [] => True
  | v :: vs => v.Sorted ∧ listSorted vs
/-- `Value.Sorted` of each value of a map. -/
def entriesSorted : List (List Rune × Value) → Prop
  | [] => True
  | kv :: kvs => kv.2.Sorted ∧ entriesSorted kvs
end

theorem entriesSorted_iff (kvs : List (List Rune × Value)) :
    entriesSorted kvs ↔ ∀ kv ∈ kvs, kv.2.Sorted := by
  induction kvs with
  | nil => simp [entriesSorted]
  | cons kv kvs ih => simp [entriesSorted, ih]

theorem buildMap_entriesSorted {kvs : List (List Rune × Value)} (h : entriesSorted kvs) :
    entriesSorted (buildMap kvs) := by
  rw [entriesSorted_iff] at h ⊢
  suffices ∀ m : List (List Rune × Value), (∀ kv ∈ m, kv.2.Sorted) →
      ∀ kv ∈ kvs.foldl (fun m kv => insertKey kv.1 kv.2 m) m, kv.2.Sorted from this [] (by simp)
  induction kvs with
  | nil => exact fun m hm => hm
  | cons kv kvs ih =>
    intro m hm
    refine ih (fun x hx => h x (List.mem_cons_of_mem _ hx)) _ fun x hx => ?_
    rcases mem_insertKey hx with rfl | hx
    · exact h kv (List.mem_cons_self _ _)
    · exact hm x hx

mutual
/-- Every value the decoder returns has its maps in key order. -/
theorem Syn.toValue_sorted : (t : Syn) → ∀ v, t.toValue = .ok v → v.Sorted
  | .null, v, h => by cases h; trivial
  | .bool _, v, h => by cases h; trivial
  | .num n, v, h => by
    simp only [Syn.toValue] at h
    split at h <;> cases h
    trivial
  | .str raw, v, h => by
    simp only [Syn.toValue] at h
    split at h <;> cases h
    trivial
  | .arr0 _, v, h => by cases h; exact trivial
  | .arr e es, v, h => by
    simp only [Syn.toValue] at h
    split at h <;> cases h
    rename_i v' vs he hes
    exact ⟨elemValue_sorted e v' he, elemsValue_sorted es vs hes⟩
  | .obj0 _, v, h => by cases h; exact ⟨List.Pairwise.nil, trivial⟩
  | .obj m ms, v, h => by
    simp only [Syn.toValue] at h
    split at h <;> cases h
    rename_i kv kvs hm hms
    exact ⟨buildMap_sorted _, buildMap_entriesSorted
      ⟨memberEntry_sorted m kv hm, membersEntries_sorted ms kvs hms⟩⟩
theorem elemValue_sorted : (e : Elem) → ∀ v, elemValue e = .ok v → v.Sorted
  | (_, t, _), v, h => Syn.toValue_sorted t v h
theorem elemsValue_sorted : (es : List Elem) → ∀ vs, elemsValue es = .ok vs → listSorted vs
  | [], vs, h => by cases h; trivial
  | e :: es, vs, h => by
    simp only [elemsValue] at h
    split at h <;> cases h
    rename_i v vs' he hes
    exact ⟨elemValue_sorted e v he, elemsValue_sorted es vs' hes⟩
theorem memberEntry_sorted : (m : Member) → ∀ kv, memberEntry m = .ok kv → kv.2.Sorted
  | (_, _, _, e), kv, h => by
    simp only [memberEntry] at h
    split at h <;> cases h
    rename_i key v _ he
    exact elemValue_sorted e v he
theorem membersEntries_sorted :
    (ms : List Member) → ∀ kvs, membersEntries ms = .ok kvs → entriesSorted kvs
  | [], kvs, h => by cases h; trivial
  | m :: ms, kvs, h => by
    simp only [membersEntries] at h
    split at h <;> cases h
    rename_i kv kvs' hm hms
    exact ⟨memberEntry_sorted m kv hm, membersEntries_sorted ms kvs' hms⟩
end

/-! ## Depth -/

mutual
/-- The number of arrays and maps open at the deepest point of a value. -/
def Value.depth : Value → Nat
  | .array vs => listDepth vs + 1
  | .object kvs => entriesDepth kvs + 1
  | _ => 0
/-- The greatest `Value.depth` of a list. -/
def listDepth : List Value → Nat
  | [] => 0
  | v :: vs => max v.depth (listDepth vs)
/-- The greatest `Value.depth` of a map's values. -/
def entriesDepth : List (List Rune × Value) → Nat
  | [] => 0
  | kv :: kvs => max kv.2.depth (entriesDepth kvs)
end

theorem listDepth_le_iff (vs : List Value) (n : Nat) :
    listDepth vs ≤ n ↔ ∀ v ∈ vs, v.depth ≤ n := by
  induction vs with
  | nil => simp [listDepth]
  | cons v vs ih => simp [listDepth, ih]

theorem entriesDepth_le_iff (kvs : List (List Rune × Value)) (n : Nat) :
    entriesDepth kvs ≤ n ↔ ∀ kv ∈ kvs, kv.2.depth ≤ n := by
  induction kvs with
  | nil => simp [entriesDepth]
  | cons kv kvs ih => simp [entriesDepth, ih]

theorem elemsDepth_le_iff (es : List Elem) (n : Nat) :
    elemsDepth es ≤ n ↔ ∀ e ∈ es, elemDepth e ≤ n := by
  induction es with
  | nil => simp [elemsDepth]
  | cons e es ih => simp [elemsDepth, ih]

theorem membersDepth_le_iff (ms : List Member) (n : Nat) :
    membersDepth ms ≤ n ↔ ∀ m ∈ ms, memberDepth m ≤ n := by
  induction ms with
  | nil => simp [membersDepth]
  | cons m ms ih => simp [membersDepth, ih]

theorem mem_foldl_insertKey {α : Type} {x : List Rune × α} (kvs : List (List Rune × α)) :
    ∀ m, x ∈ kvs.foldl (fun m kv => insertKey kv.1 kv.2 m) m → x ∈ m ∨ x ∈ kvs := by
  induction kvs with
  | nil => exact fun m h => .inl h
  | cons kv kvs ih =>
    intro m hm
    rcases ih _ hm with h | h
    · rcases mem_insertKey h with rfl | h
      · exact .inr (List.mem_cons_self _ _)
      · exact .inl h
    · exact .inr (List.mem_cons_of_mem _ h)

theorem mem_buildMap {α : Type} {kvs : List (List Rune × α)} {x : List Rune × α}
    (h : x ∈ buildMap kvs) : x ∈ kvs := by
  simpa using mem_foldl_insertKey kvs [] h

mutual
/-- The decoded value is no deeper than the text. -/
theorem Syn.toValue_depth : (t : Syn) → ∀ v, t.toValue = .ok v → v.depth ≤ t.depth
  | .null, v, h => by cases h; exact le_rfl
  | .bool _, v, h => by cases h; exact le_rfl
  | .num n, v, h => by
    simp only [Syn.toValue] at h
    split at h <;> cases h
    exact le_rfl
  | .str raw, v, h => by
    simp only [Syn.toValue] at h
    split at h <;> cases h
    exact le_rfl
  | .arr0 _, v, h => by cases h; simp [Value.depth, listDepth, Syn.depth]
  | .arr e es, v, h => by
    simp only [Syn.toValue] at h
    split at h <;> cases h
    rename_i v' vs he hes
    have h1 := elemValue_depth e v' he
    have h2 := elemsValue_depth es vs hes
    simp only [Value.depth, listDepth, Syn.depth]
    omega
  | .obj0 _, v, h => by cases h; simp [Value.depth, entriesDepth, Syn.depth]
  | .obj m ms, v, h => by
    simp only [Syn.toValue] at h
    split at h <;> cases h
    rename_i kv kvs hm hms
    have h1 := memberEntry_depth m kv hm
    have h2 := membersEntries_depth ms kvs hms
    have : entriesDepth (buildMap (kv :: kvs)) ≤ max (memberDepth m) (membersDepth ms) :=
      (entriesDepth_le_iff _ _).2 fun x hx => by
        rcases List.mem_cons.1 (mem_buildMap hx) with rfl | hx
        · exact le_trans h1 (le_max_left _ _)
        · exact le_trans ((entriesDepth_le_iff _ _).1 h2 x hx) (le_max_right _ _)
    simp only [Value.depth, Syn.depth]
    omega
theorem elemValue_depth : (e : Elem) → ∀ v, elemValue e = .ok v → v.depth ≤ elemDepth e
  | (_, t, _), v, h => Syn.toValue_depth t v h
theorem elemsValue_depth : (es : List Elem) → ∀ vs, elemsValue es = .ok vs → listDepth vs ≤ elemsDepth es
  | [], vs, h => by cases h; exact le_rfl
  | e :: es, vs, h => by
    simp only [elemsValue] at h
    split at h <;> cases h
    rename_i v vs' he hes
    have h1 := elemValue_depth e v he
    have h2 := elemsValue_depth es vs' hes
    simp only [listDepth, elemsDepth]
    omega
theorem memberEntry_depth : (m : Member) → ∀ kv, memberEntry m = .ok kv → kv.2.depth ≤ memberDepth m
  | (_, _, _, e), kv, h => by
    simp only [memberEntry] at h
    split at h <;> cases h
    rename_i key v _ he
    exact elemValue_depth e v he
theorem membersEntries_depth :
    (ms : List Member) → ∀ kvs, membersEntries ms = .ok kvs → entriesDepth kvs ≤ membersDepth ms
  | [], kvs, h => by cases h; exact le_rfl
  | m :: ms, kvs, h => by
    simp only [membersEntries] at h
    split at h <;> cases h
    rename_i kv kvs' hm hms
    have h1 := memberEntry_depth m kv hm
    have h2 := membersEntries_depth ms kvs' hms
    simp only [entriesDepth, membersDepth]
    omega
end

end UbirchClient.Json
