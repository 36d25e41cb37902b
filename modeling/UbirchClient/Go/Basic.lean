import Mathlib.Data.List.Nodup
set_option autoImplicit false

/-!
# Go strings, byte arrays and maps

WHAT THIS FILE IS FOR.  The client is Go; every value it reads from a request or a
configuration file is a Go `string`, a `[]byte`, a fixed `[n]byte` array or a
`map[string]T`.  This file fixes one Lean carrier for each, together with the
handful of `strings` functions the modelled code calls (`HasSuffix`, `TrimSuffix`,
`Split`, the ASCII half of `ToLower`).

CARRIERS.  A Go `string` and a `[]byte` are both byte sequences with no encoding
invariant: a string holding invalid UTF-8 is still a string.  Both are `GoString`,
a list of `UInt8`.  A `[n]byte` is `ByteArr n`, which carries its length, so a
`[32]byte` of the wrong length cannot be built.  A Go map is `GoMap`, whose keys
are distinct by construction.  A Go `int` is `GoInt`, an integer in 64-bit range.
-/

namespace UbirchClient.Go

/-- A Go `string` or `[]byte`: a sequence of bytes. -/
abbrev GoString := List UInt8

/-- A byte is below 256 (`UInt8.size`, stated as the number `omega` needs). -/
theorem toNat_lt_256 (b : UInt8) : b.toNat < 256 := b.toNat_lt_size

/-- `UInt8.size` as the number it is, so that `simp` leaves byte arithmetic to `omega`. -/
@[simp] theorem uint8_size_eq : UInt8.size = 256 := rfl

/-- A byte is the byte of its value. -/
theorem ofNat_toNat (b : UInt8) : UInt8.ofNat b.toNat = b :=
  UInt8.toNat.inj (UInt8.toNat_ofNat_of_lt b.toNat_lt_size)

/-- The value of a byte literal below 256. -/
theorem toNat_ofNat {n : Nat} (h : n < 256) : (UInt8.ofNat n).toNat = n :=
  UInt8.toNat_ofNat_of_lt h

/-- Byte comparisons are comparisons of values. -/
theorem lt_iff_toNat_lt {a b : UInt8} : a < b ↔ a.toNat < b.toNat := Iff.rfl

theorem le_iff_toNat_le {a b : UInt8} : a ≤ b ↔ a.toNat ≤ b.toNat := Iff.rfl

theorem eq_iff_toNat_eq {a b : UInt8} : a = b ↔ a.toNat = b.toNat :=
  ⟨congrArg _, UInt8.toNat.inj⟩

/-- The bytes of an ASCII literal of the Go source.  Every literal this is applied to
below is ASCII, for which Go's UTF-8 encoding is one byte per character. -/
def ascii (s : String) : GoString := s.toList.map fun c => c.toNat.toUInt8

/-- A Go array `[n]byte`: exactly `n` bytes. -/
structure ByteArr (n : Nat) where
  toList : GoString
  length_eq : toList.length = n
  deriving DecidableEq, Repr

/-- A Go `int`: 64 bits on the platforms the client is built for. -/
abbrev GoInt := {n : Int // -9223372036854775808 ≤ n ∧ n < 9223372036854775808}

/-! ## The `strings` package -/

/-- `strings.HasSuffix(s, suffix)`:
`len(s) >= len(suffix) && s[len(s)-len(suffix):] == suffix`. -/
def hasSuffix (s suffix : GoString) : Bool :=
  decide (suffix.length ≤ s.length ∧ s.drop (s.length - suffix.length) = suffix)

/-- `strings.TrimSuffix(s, suffix)`. -/
def trimSuffix (s suffix : GoString) : GoString :=
  if hasSuffix s suffix then s.take (s.length - suffix.length) else s

/-- `strings.Split(s, sep)` for a one-byte separator: the pieces between the
separators, so a string without `sep` splits into the one-element list `[s]`. -/
def splitByte (sep : UInt8) : GoString → List GoString
  | [] => [[]]
  | c :: cs =>
    if c = sep then [] :: splitByte sep cs
    else
      match splitByte sep cs with
      | w :: ws => (c :: w) :: ws
      | [] => [[c]]

/-- A string without the separator splits into itself alone. -/
theorem splitByte_of_not_mem (sep : UInt8) :
    ∀ s : GoString, sep ∉ s → splitByte sep s = [s]
  | [], _ => rfl
  | c :: cs, h => by
    have hc : c ≠ sep := fun e => h (e ▸ List.mem_cons_self c cs)
    have ih := splitByte_of_not_mem sep cs (fun hm => h (List.mem_cons_of_mem c hm))
    simp [splitByte, hc, ih]

theorem splitByte_ne_nil (sep : UInt8) : ∀ s : GoString, splitByte sep s ≠ []
  | [] => List.cons_ne_nil _ _
  | c :: cs => by
    unfold splitByte
    split
    · exact List.cons_ne_nil _ _
    · split <;> exact List.cons_ne_nil _ _

/-- A string holding the separator splits into at least two pieces. -/
theorem two_le_length_splitByte (sep : UInt8) : ∀ s : GoString, sep ∈ s → 2 ≤ (splitByte sep s).length
  | [], h => absurd h (List.not_mem_nil _)
  | c :: cs, h => by
    unfold splitByte
    split
    · have := List.length_pos.2 (splitByte_ne_nil sep cs)
      simp only [List.length_cons]
      omega
    · rename_i hc
      have ih := two_le_length_splitByte sep cs
        ((List.mem_cons.1 h).resolve_left fun e => hc e.symm)
      split <;> simp_all

/-- The ASCII branch of `strings.ToLower`: `A`..`Z` become `a`..`z`. -/
def asciiLower (s : GoString) : GoString :=
  s.map fun c => if 0x41 ≤ c ∧ c ≤ 0x5A then c + 0x20 else c

/-- `strings.ToLower` takes its ASCII branch exactly when no byte is `>= utf8.RuneSelf`. -/
def isASCII (s : GoString) : Bool := s.all fun c => decide (c < 0x80)

/-! ## Maps -/

/-- A Go `map[string]α`: key/value pairs with pairwise distinct keys.  Iteration
order, which Go leaves unspecified, is the list order. -/
structure GoMap (α : Type) where
  entries : List (GoString × α)
  nodup_keys : (entries.map Prod.fst).Nodup

namespace GoMap

variable {α : Type}

/-- The empty map (also what a `nil` map reads as). -/
def empty : GoMap α := ⟨[], List.nodup_nil⟩

/-- `v, ok := m[k]`. -/
def get? (m : GoMap α) (k : GoString) : Option α :=
  (m.entries.find? fun e => decide (e.1 = k)).map Prod.snd

/-- `len(m)`. -/
def len (m : GoMap α) : Nat := m.entries.length

/-- The keys of `m`, in iteration order. -/
def keys (m : GoMap α) : List GoString := m.entries.map Prod.fst

theorem nodup_keys_insert (m : GoMap α) (k : GoString) (v : α) :
    ((if k ∈ m.keys then m.entries.map (fun e => if e.1 = k then (k, v) else e)
      else m.entries ++ [(k, v)]).map Prod.fst).Nodup := by
  split
  · have : (m.entries.map fun e => if e.1 = k then (k, v) else e).map Prod.fst = m.keys := by
      simp only [keys, List.map_map]
      exact List.map_congr_left fun e _ => by by_cases h : e.1 = k <;> simp [h]
    rw [this]; exact m.nodup_keys
  · rename_i hk
    rw [List.map_append, List.nodup_append]
    exact ⟨m.nodup_keys, List.nodup_singleton _, by simpa [List.disjoint_singleton, keys] using hk⟩

/-- `m[k] = v`: overwrites the value of a present key in place, and appends a new one. -/
def insert (m : GoMap α) (k : GoString) (v : α) : GoMap α :=
  ⟨_, nodup_keys_insert m k v⟩

/-- The keys after `m[k] = v` are the old keys, with `k` appended if it was new. -/
theorem keys_insert (m : GoMap α) (k : GoString) (v : α) :
    (m.insert k v).keys = if k ∈ m.keys then m.keys else m.keys ++ [k] := by
  unfold insert keys
  split
  · simp only [List.map_map]
    exact List.map_congr_left fun e _ => by by_cases h : e.1 = k <;> simp [h]
  · simp

theorem mem_keys_insert (m : GoMap α) (k k' : GoString) (v : α) :
    k' ∈ (m.insert k v).keys ↔ k' ∈ m.keys ∨ k' = k := by
  rw [keys_insert]
  split
  · rename_i hk
    exact ⟨.inl, fun h => h.elim id fun e => e ▸ hk⟩
  · simp

@[simp] theorem len_empty : (empty : GoMap α).len = 0 := rfl

@[simp] theorem keys_empty : (empty : GoMap α).keys = [] := rfl

theorem len_eq_length_keys (m : GoMap α) : m.len = m.keys.length := by
  simp [len, keys]

/-- Writing a key never empties a map. -/
theorem len_insert_pos (m : GoMap α) (k : GoString) (v : α) : 0 < (m.insert k v).len := by
  rw [len_eq_length_keys, keys_insert]
  split
  · rename_i h; exact List.length_pos_of_mem h
  · simp

/-- A value of `m.insert k v` is `v` or a value `m` already held. -/
theorem mem_values_insert (m : GoMap α) (k : GoString) (v x : α)
    (h : x ∈ (m.insert k v).entries.map Prod.snd) :
    x = v ∨ x ∈ m.entries.map Prod.snd := by
  simp only [insert, List.mem_map] at h
  obtain ⟨e, he, rfl⟩ := h
  split at he
  · obtain ⟨e', he', rfl⟩ := List.mem_map.1 he
    by_cases hk : e'.1 = k
    · simp [hk]
    · exact .inr (List.mem_map.2 ⟨e', he', by simp [hk]⟩)
  · rcases List.mem_append.1 he with he | he
    · exact .inr (List.mem_map.2 ⟨e, he, rfl⟩)
    · simp at he; simp [he]

theorem find?_map_replace_ne {k k' : GoString} (v : α) (h : k' ≠ k) (l : List (GoString × α)) :
    ((l.map fun e => if e.1 = k then (k, v) else e).find? fun e => decide (e.1 = k')).map Prod.snd =
      (l.find? fun e => decide (e.1 = k')).map Prod.snd := by
  induction l with
  | nil => rfl
  | cons e l ih =>
    rw [List.map_cons]
    by_cases he : e.1 = k
    · rw [if_pos he, List.find?_cons_of_neg (p := fun e : GoString × α => decide (e.1 = k')) _ (by simpa using Ne.symm h),
        List.find?_cons_of_neg (p := fun e : GoString × α => decide (e.1 = k')) _ (by simpa [he] using Ne.symm h), ih]
    · rw [if_neg he]
      by_cases e' : e.1 = k'
      · rw [List.find?_cons_of_pos (p := fun e : GoString × α => decide (e.1 = k')) _ (by simpa using e'),
          List.find?_cons_of_pos (p := fun e : GoString × α => decide (e.1 = k')) _ (by simpa using e')]
      · rw [List.find?_cons_of_neg (p := fun e : GoString × α => decide (e.1 = k')) _ (by simpa using e'),
          List.find?_cons_of_neg (p := fun e : GoString × α => decide (e.1 = k')) _ (by simpa using e'), ih]

theorem find?_map_replace_self {k : GoString} (v : α) {l : List (GoString × α)}
    (hk : k ∈ l.map Prod.fst) :
    ((l.map fun e => if e.1 = k then (k, v) else e).find? fun e => decide (e.1 = k)).map Prod.snd =
      some v := by
  induction l with
  | nil => cases hk
  | cons e l ih =>
    rw [List.map_cons]
    by_cases he : e.1 = k
    · rw [if_pos he, List.find?_cons_of_pos (p := fun e : GoString × α => decide (e.1 = k)) _ (by simp)]; rfl
    · have hk' : k ∈ l.map Prod.fst := by simpa [Ne.symm he] using hk
      rw [if_neg he, List.find?_cons_of_neg (p := fun e : GoString × α => decide (e.1 = k)) _ (by simpa using he), ih hk']

/-- Reading after `m[k] = v`: `v` at `k`, what `m` held elsewhere. -/
theorem get?_insert (m : GoMap α) (k k' : GoString) (v : α) :
    (m.insert k v).get? k' = if k' = k then some v else m.get? k' := by
  obtain ⟨l, hl⟩ := m
  simp only [insert, get?, keys]
  split
  · rename_i hk
    split
    · rename_i e; subst e; exact find?_map_replace_self v hk
    · rename_i e; exact find?_map_replace_ne v e l
  · rename_i hk
    rw [List.find?_append]
    by_cases e' : k' = k
    · subst e'
      have : l.find? (fun e => decide (e.1 = k')) = none :=
        List.find?_eq_none.2 fun e he h => hk (List.mem_map.2 ⟨e, he, by simpa using h⟩)
      simp [this]
    · simp [e', Ne.symm e']

end GoMap

/-! ## Panics -/

/-- The runtime error of `xs[i]` out of range:
`runtime error: index out of range [i] with length n`. -/
inductive RuntimeError where
  | indexOutOfRange (index length : Nat)
  deriving DecidableEq, Repr

/-- What a Go function that returns a value or an `error` does, when it may also
panic. -/
inductive Outcome (ε α : Type) where
  | ok (a : α)
  | error (e : ε)
  | panic (r : RuntimeError)
  deriving DecidableEq

namespace Outcome

variable {ε α β : Type}

instance : Monad (Outcome ε) where
  pure := .ok
  bind x f :=
    match x with
    | .ok a => f a
    | .error e => .error e
    | .panic r => .panic r

/-- A `(T, error)` result of a function that does not panic. -/
def ofExcept : Except ε α → Outcome ε α
  | .ok a => .ok a
  | .error e => .error e

@[simp] theorem pure_eq (a : α) : (pure a : Outcome ε α) = .ok a := rfl

@[simp] theorem ok_bind (a : α) (f : α → Outcome ε β) : (Outcome.ok a >>= f) = f a := rfl

@[simp] theorem error_bind (e : ε) (f : α → Outcome ε β) :
    (Outcome.error e >>= f) = .error e := rfl

@[simp] theorem panic_bind (r : RuntimeError) (f : α → Outcome ε β) :
    (Outcome.panic r >>= f : Outcome ε β) = .panic r := rfl

@[simp] theorem ofExcept_ok (a : α) : ofExcept (.ok a : Except ε α) = .ok a := rfl

@[simp] theorem ofExcept_error (e : ε) : ofExcept (.error e : Except ε α) = .error e := rfl

@[simp] theorem ofExcept_eq_ok {x : Except ε α} {a : α} : ofExcept x = .ok a ↔ x = .ok a := by
  cases x <;> simp

theorem bind_eq_ok {x : Outcome ε α} {f : α → Outcome ε β} {b : β} :
    (x >>= f) = .ok b ↔ ∃ a, x = .ok a ∧ f a = .ok b := by
  cases x <;> simp

theorem bind_eq_panic {x : Outcome ε α} {f : α → Outcome ε β} {r : RuntimeError} :
    (x >>= f) = .panic r ↔ x = .panic r ∨ ∃ a, x = .ok a ∧ f a = .panic r := by
  cases x <;> simp

theorem ofExcept_ne_panic (x : Except ε α) (r : RuntimeError) : ofExcept x ≠ .panic r := by
  cases x <;> simp

end Outcome

@[simp] theorem mapError_eq_ok {ε ε' α : Type} {f : ε → ε'} {x : Except ε α} {a : α} :
    x.mapError f = .ok a ↔ x = .ok a := by
  cases x <;> simp [Except.mapError]

/-- `xs[i]`, which panics when `i` is out of range. -/
def index {ε α : Type} (xs : List α) (i : Nat) : Outcome ε α :=
  if h : i < xs.length then .ok xs[i] else .panic (.indexOutOfRange i xs.length)

theorem index_eq_panic {ε α : Type} {xs : List α} {i : Nat} {r : RuntimeError} :
    (index xs i : Outcome ε α) = .panic r ↔ xs.length ≤ i ∧ r = .indexOutOfRange i xs.length := by
  unfold index
  split <;> rename_i h
  · simp; omega
  · simp [eq_comm]; omega

theorem index_eq_ok {ε α : Type} {xs : List α} {i : Nat} {a : α} :
    (index xs i : Outcome ε α) = .ok a ↔ xs[i]? = some a := by
  unfold index
  split <;> rename_i h
  · simp [List.getElem?_eq_getElem h]
  · simp [List.getElem?_eq_none (Nat.le_of_not_lt h)]

end UbirchClient.Go
