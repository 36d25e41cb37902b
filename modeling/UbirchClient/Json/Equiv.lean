import Mathlib.Data.List.Perm.Basic
import UbirchClient.Json.Value
set_option autoImplicit false

/-!
# Texts that differ only in member order, whitespace and escape spelling

WHAT THIS FILE IS FOR.  A canonical form must not depend on how a document was
written down.  `Syn.Equiv t t'` says that `t'` is `t` with its whitespace changed,
its strings and keys spelled with other escapes (two spellings that `unquote` reads
as the same Go string), and the members of each of its objects put in another
order.  The decoder ignores all three as long as no object has two keys that decode
to the same string: Go keeps the last of two such members, so their order matters.

THE PROPERTY PROVED HERE.  `Syn.Equiv.toValue_eq`: a tree with distinct keys at
every depth and any tree equivalent to it decode to the same value.  Its one real
step is `buildMap_perm`: a map built from the same entries in another order is the
same map when the keys are distinct, because two insertions of different keys
commute (`insertKey_comm`).
-/

namespace UbirchClient.Json

open UbirchClient.Go

/-! ## A property of every node -/

mutual
/-- `P` holds at every node of the tree. -/
def Syn.Every (P : Syn → Prop) : Syn → Prop
  | .arr e es => P (.arr e es) ∧ elemEvery P e ∧ elemsEvery P es
  | .obj m ms => P (.obj m ms) ∧ memberEvery P m ∧ membersEvery P ms
  | t => P t
/-- `Syn.Every` of an element's value. -/
def elemEvery (P : Syn → Prop) : Elem → Prop
  | (_, t, _) => t.Every P
/-- `Syn.Every` of the values of elements. -/
def elemsEvery (P : Syn → Prop) : List Elem → Prop
  | [] => True
  | e :: es => elemEvery P e ∧ elemsEvery P es
/-- `Syn.Every` of a member's value. -/
def memberEvery (P : Syn → Prop) : Member → Prop
  | (_, _, _, e) => elemEvery P e
/-- `Syn.Every` of the values of members. -/
def membersEvery (P : Syn → Prop) : List Member → Prop
  | [] => True
  | m :: ms => memberEvery P m ∧ membersEvery P ms
end

/-- The key of a member as `unquote` reads it. -/
def memberKey (m : Member) : Option (List Rune) := unquote m.2.1

/-- At an object node: no two keys decode to the same Go string. -/
def keysDistinct : Syn → Prop
  | .obj m ms => ((m :: ms).map memberKey).Nodup
  | _ => True

/-- No object of the tree, at any depth, has two keys that decode to the same Go
string. -/
def Syn.DistinctKeys (t : Syn) : Prop := t.Every keysDistinct

/-! ## Respelling a text -/

mutual
/-- `t'` is `t` with whitespace changed, strings and keys respelled, and the members
of objects reordered. -/
inductive Syn.Equiv : Syn → Syn → Prop
  | null : Syn.Equiv .null .null
  | bool (b : Bool) : Syn.Equiv (.bool b) (.bool b)
  | num (n : NumLit) : Syn.Equiv (.num n) (.num n)
  | str {raw raw' : GoString} (h : unquote raw = unquote raw') : Syn.Equiv (.str raw) (.str raw')
  | arr0 (w w' : Ws) : Syn.Equiv (.arr0 w) (.arr0 w')
  | arr {e e' : Elem} {es es' : List Elem} (h : ElemsEquiv (e :: es) (e' :: es')) :
      Syn.Equiv (.arr e es) (.arr e' es')
  | obj0 (w w' : Ws) : Syn.Equiv (.obj0 w) (.obj0 w')
  /-- the members respelled in place, then permuted -/
  | obj {m m' : Member} {ms ms' ms'' : List Member} (h : MembersEquiv (m :: ms) ms'')
      (hp : ms''.Perm (m' :: ms')) : Syn.Equiv (.obj m ms) (.obj m' ms')
/-- Elements respelled one by one, the whitespace around them changed. -/
inductive ElemsEquiv : List Elem → List Elem → Prop
  | nil : ElemsEquiv [] []
  | cons {w1 w2 w1' w2' : Ws} {t t' : Syn} {es es' : List Elem} (h : Syn.Equiv t t')
      (hs : ElemsEquiv es es') : ElemsEquiv ((w1, t, w2) :: es) ((w1', t', w2') :: es')
/-- Members respelled one by one, in the same order. -/
inductive MembersEquiv : List Member → List Member → Prop
  | nil : MembersEquiv [] []
  | cons {w0 w1 w2 w3 w0' w1' w2' w3' : Ws} {k k' : GoString} {t t' : Syn}
      {ms ms' : List Member} (hk : unquote k = unquote k') (h : Syn.Equiv t t')
      (hs : MembersEquiv ms ms') :
      MembersEquiv ((w0, k, w1, (w2, t, w3)) :: ms) ((w0', k', w1', (w2', t', w3')) :: ms')
end

/-! ## The decoder on containers -/

theorem toValue_arr (e : Elem) (es : List Elem) :
    (Syn.arr e es).toValue = (elemsValue (e :: es)).map .array := by
  simp only [Syn.toValue, elemsValue]
  split <;> simp_all [Except.map]

theorem toValue_obj (m : Member) (ms : List Member) :
    (Syn.obj m ms).toValue = (membersEntries (m :: ms)).map fun kvs => .object (buildMap kvs) := by
  simp only [Syn.toValue, membersEntries]
  split <;> simp_all [Except.map]

theorem membersEntries_ok_iff {ms : List Member} {kvs : List (List Rune × Value)} :
    membersEntries ms = .ok kvs ↔ List.Forall₂ (fun m kv => memberEntry m = .ok kv) ms kvs := by
  induction ms generalizing kvs with
  | nil => cases kvs <;> simp [membersEntries]
  | cons m ms ih =>
    simp only [membersEntries]
    split <;> rename_i h1 h2 <;> cases kvs <;> simp_all

theorem memberKey_of_entry {m : Member} {kv : List Rune × Value} (h : memberEntry m = .ok kv) :
    memberKey m = some kv.1 := by
  obtain ⟨w0, k, w1, e⟩ := m
  simp only [memberEntry] at h
  split at h <;> cases h
  assumption

/-- The keys of the entries are the decoded keys of the members. -/
theorem membersEntries_keys {ms : List Member} {kvs : List (List Rune × Value)}
    (h : membersEntries ms = .ok kvs) : ms.map memberKey = kvs.map (some ∘ Prod.fst) := by
  have hf := membersEntries_ok_iff.mp h
  clear h
  induction hf with
  | nil => rfl
  | cons hm _ ih => simp [memberKey_of_entry hm, ih]

/-- Reordering the members reorders the entries. -/
theorem membersEntries_perm {ms ms' : List Member} (hp : ms.Perm ms')
    {kvs : List (List Rune × Value)} (h : membersEntries ms = .ok kvs) :
    ∃ kvs', membersEntries ms' = .ok kvs' ∧ kvs.Perm kvs' := by
  obtain ⟨kvs', h1, h2⟩ := List.perm_comp_forall₂ hp.symm (membersEntries_ok_iff.mp h)
  exact ⟨kvs', membersEntries_ok_iff.mpr h1, h2.symm⟩

/-! ## Maps built in another order -/

/-- Two insertions of different keys commute, on any list. -/
theorem insertKey_comm {α : Type} {k k' : List Rune} (hk : k ≠ k') (v v' : α) :
    ∀ m : List (List Rune × α),
      insertKey k v (insertKey k' v' m) = insertKey k' v' (insertKey k v m)
  | [] => by
    rcases keyLt_total hk with h | h <;> simp [insertKey, hk, Ne.symm hk, h, keyLt_asymm h]
  | (a, b) :: m => by
    have hk' := Ne.symm hk
    by_cases h1 : k = a
    · subst h1
      by_cases h3 : keyLt k' k = true
      · simp [insertKey, hk, hk', h3, keyLt_asymm h3]
      · simp [insertKey, hk, hk', h3]
    by_cases h2 : k' = a
    · subst h2
      by_cases h3 : keyLt k k' = true
      · simp [insertKey, hk, hk', h3, keyLt_asymm h3]
      · simp [insertKey, hk, hk', h3]
    by_cases h3 : keyLt k a = true <;> by_cases h4 : keyLt k' a = true
    · rcases keyLt_total hk with h | h <;>
        simp [insertKey, h1, h2, h3, h4, hk, hk', h, keyLt_asymm h]
    · have h5 : keyLt a k' = true := (keyLt_total (Ne.symm h2)).resolve_right h4
      simp [insertKey, h1, h2, h3, h4, hk, hk', keyLt_asymm (keyLt_trans h3 h5)]
    · have h5 : keyLt a k = true := (keyLt_total (Ne.symm h1)).resolve_right h3
      simp [insertKey, h1, h2, h3, h4, hk, hk', keyLt_asymm (keyLt_trans h4 h5)]
    · simp [insertKey, h1, h2, h3, h4, insertKey_comm hk v v' m]

/-- A map built from the same entries in another order is the same map, when no
two entries share a key. -/
theorem buildMap_perm {α : Type} {kvs kvs' : List (List Rune × α)} (hp : kvs.Perm kvs')
    (hd : (kvs.map Prod.fst).Nodup) : buildMap kvs = buildMap kvs' :=
  hp.foldl_eq' (fun x hx y hy z => by
    by_cases hxy : x = y
    · rw [hxy]
    · exact insertKey_comm (fun h => hxy (List.inj_on_of_nodup_map hd hy hx h).symm) _ _ _) []

/-! ## The decoder ignores respelling -/

theorem keysDistinct_entries {m : Member} {ms : List Member} (hd : keysDistinct (.obj m ms))
    {kvs : List (List Rune × Value)} (h : membersEntries (m :: ms) = .ok kvs) :
    (kvs.map Prod.fst).Nodup := by
  have hk : ((m :: ms).map memberKey).Nodup := hd
  rw [membersEntries_keys h, ← List.map_map] at hk
  exact List.Nodup.of_map _ hk

mutual
/-- A tree with distinct keys and a respelling of it decode to the same value. -/
theorem Syn.Equiv.toValue_eq : {t t' : Syn} → Syn.Equiv t t' → t.DistinctKeys →
    ∀ {v : Value}, t.toValue = .ok v → t'.toValue = .ok v
  | _, _, .null, _, _, h => h
  | _, _, .bool _, _, _, h => h
  | _, _, .num _, _, _, h => h
  | _, _, .str hu, _, _, h => by simpa only [Syn.toValue, hu] using h
  | _, _, .arr0 _ _, _, _, h => h
  | _, _, .obj0 _ _, _, _, h => h
  | .arr e es, _, .arr he, hd, v, h => by
    rw [toValue_arr] at h ⊢
    cases hx : elemsValue (e :: es) with
    | error err => simp [hx, Except.map] at h
    | ok vs =>
      rw [hx] at h
      rw [ElemsEquiv.elemsValue_eq he ⟨hd.2.1, hd.2.2⟩ hx]
      exact h
  | .obj m ms, _, .obj hm hp, hd, v, h => by
    rw [toValue_obj] at h ⊢
    cases hx : membersEntries (m :: ms) with
    | error err => simp [hx, Except.map] at h
    | ok kvs =>
      rw [hx] at h
      obtain ⟨kvs', h1, h2⟩ :=
        membersEntries_perm hp (MembersEquiv.membersEntries_eq hm ⟨hd.2.1, hd.2.2⟩ hx)
      rw [h1]
      simp only [Except.map] at h ⊢
      rw [← buildMap_perm h2 (keysDistinct_entries hd.1 hx)]
      exact h
/-- Elements respelled one by one decode to the same values. -/
theorem ElemsEquiv.elemsValue_eq : {es es' : List Elem} → ElemsEquiv es es' →
    elemsEvery keysDistinct es → ∀ {vs : List Value}, elemsValue es = .ok vs →
    elemsValue es' = .ok vs
  | _, _, .nil, _, _, h => h
  | (w1, t, w2) :: es, _, .cons ht hs, hd, vs, h => by
    simp only [elemsValue, elemValue] at h ⊢
    cases hx : t.toValue with
    | error err => simp [hx] at h
    | ok v =>
      cases hy : elemsValue es with
      | error err => simp [hx, hy] at h
      | ok vs' =>
        simp only [hx, hy, Except.ok.injEq] at h
        subst h
        rw [Syn.Equiv.toValue_eq ht hd.1 hx, ElemsEquiv.elemsValue_eq hs hd.2 hy]
/-- Members respelled one by one decode to the same entries. -/
theorem MembersEquiv.membersEntries_eq : {ms ms' : List Member} → MembersEquiv ms ms' →
    membersEvery keysDistinct ms → ∀ {kvs : List (List Rune × Value)},
    membersEntries ms = .ok kvs → membersEntries ms' = .ok kvs
  | _, _, .nil, _, _, h => h
  | (w0, k, w1, (w2, t, w3)) :: ms, _, .cons hk ht hs, hd, kvs, h => by
    simp only [membersEntries, memberEntry, elemValue] at h ⊢
    cases hu : unquote k with
    | none => simp [hu] at h
    | some key =>
      cases hx : t.toValue with
      | error err => simp [hu, hx] at h
      | ok v =>
        cases hy : membersEntries ms with
        | error err => simp [hu, hx, hy] at h
        | ok kvs' =>
          simp only [hu, hx, hy, Except.ok.injEq] at h
          subst h
          rw [← hk, hu, Syn.Equiv.toValue_eq ht hd.1 hx,
            MembersEquiv.membersEntries_eq hs hd.2 hy]
end

end UbirchClient.Json
